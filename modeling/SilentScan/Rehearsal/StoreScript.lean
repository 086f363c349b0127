/-
Scripted stores.

A scripted store does what its moves say, whatever it is asked for: it counts rows, sends
matches, lets time pass, and ends. The scan of an index is such a script too, one in which no
time passes.

* `StoreMove`, `StoreRun.play`: the moves, up to the next pause;
* `ScanReport.moves`: the moves of a scan of an index.
-/
import SilentScan.Scan.Engine

namespace SilentScan

/-- A move of a scripted store. -/
inductive StoreMove where
  | total (n : Nat)
  | processed (n : Nat)
  | sleep (ms : Nat)
  /-- Sends a match so many times, each one block higher than the one before. -/
  | emit (m : RawMatch) (count : Nat)
  /-- Ends if the scan has been cancelled. -/
  | checkCancelled
  | fail (e : StorageError)
  | crash (message : String)
deriving Repr

/-- A scan that a store carries out: its counters and the moves that are left. -/
structure StoreRun where
  processed : Nat := 0
  total : Nat := 0
  moves : List StoreMove
deriving Repr

/-- Where a store stands after some moves. -/
inductive StorePause where
  | asleep (ms : Nat) (run : StoreRun)
  | ended (outcome : ScanOutcome)
deriving Repr

namespace StoreRun

/-- The copies of a match, each one block higher than the one before. -/
def copies (m : RawMatch) (count : Nat) : List ScanInput :=
  (List.range count).map fun (i : Nat) => .push { m with height := m.height + i }

/-- Plays moves up to the next pause: what the scan is told, and where the store stands. A store
whose scan has been cancelled is not played on, so it never finds that out itself. -/
def playFrom (processed total : Nat) : List StoreMove → List ScanInput × StorePause
  | [] => ([], .ended .finished)
  | .total n :: rest =>
    let (inputs, pause) := playFrom processed n rest
    (.count processed n :: inputs, pause)
  | .processed n :: rest =>
    let done := (processed + n) % 0x1_0000_0000_0000_0000
    let (inputs, pause) := playFrom done total rest
    (.count done total :: inputs, pause)
  | .emit m count :: rest =>
    let (inputs, pause) := playFrom processed total rest
    (copies m count ++ inputs, pause)
  | .checkCancelled :: rest => playFrom processed total rest
  | .sleep ms :: rest => ([], .asleep ms { processed, total, moves := rest })
  | .fail e :: _ => ([], .ended (.failed e))
  | .crash message :: _ => ([], .ended (.crashed message))

/-- Plays a store up to its next pause. -/
def play (run : StoreRun) : List ScanInput × StorePause :=
  playFrom run.processed run.total run.moves

end StoreRun

/-- The moves of a scan of an index. -/
def ScanReport.moves (r : ScanReport) : List StoreMove :=
  .total r.total :: r.sent.map (.emit · 1) ++ [.processed r.processed]
    ++ (match r.result with
        | .ok () => []
        | .error e => [.fail e])

end SilentScan
