/-
Running a scan.

A scan is asked for by a session. The store that is scanned sends the rows it finds, and counts
the rows it has looked at. At regular ticks the engine looks at the counters and publishes what
has been found since the last time, in pages, together with the part done; when the store is
finished the rest follows as the final pages, with the part one. Before it starts, at every tick
and before the final pages the engine asks whether the session still wants the results, and
stops if it does not.

* `ScanRequest`, `buildQuery`: what is asked for, and the query for the store;
* `toEntry`, `pages`: what is published;
* `ScanRun`, with `begin`, `push`, `count`, `tick`, `finish`, `conclude`: a scan under way;
* `ScanRun.step`: the same as one function of what happens to it.
-/
import SilentScan.Event.Basic
import SilentScan.Index.Basic
import SilentScan.Log.Entry
import SilentScan.Payment.Address
import SilentScan.Scan.Progress

namespace SilentScan

/-- The number of entries on a page unless set otherwise. -/
def historyPageSize : Nat := 100

/-- Every so many ticks a page is published even if nothing was found. -/
def heartbeatTicks : Nat := 5

/-- How scans are run. -/
structure ScanSettings where
  /-- The time between ticks, in milliseconds. -/
  interval : Nat := 1000
  pageSize : Nat := historyPageSize
  batchSize : Option Nat := none
deriving DecidableEq, Repr

/-- A scan asked for by a session. -/
structure ScanRequest where
  owner : SessionId
  address : ScanAddress
  labels : LabelSet
  startHeight : Option Int
  endHeight : Option Int
deriving DecidableEq, Repr

namespace ScanRequest

/-- The subscription that the results belong to. -/
def key (r : ScanRequest) : SubscriptionKey where
  address := r.address.address
  labels := r.labels
  startHeight := r.startHeight

/-- The query for the store: the secret scalar, the spend point, and the shift of each label. -/
def buildQuery (s : Scheme) (batchSize : Option Nat) (r : ScanRequest) :
    Except KeyError ScanQuery := do
  let labelKeys ← r.labels.toList.mapM fun l => return toRawKey (← r.address.labelTweakKey s l)
  return { scanKey := r.address.scanBytes, spendKey := toRawKey r.address.spendKey, labelKeys,
           startHeight := r.startHeight, endHeight := r.endHeight, batchSize }

end ScanRequest

/-- What clients see of a row found; a row whose tweak point is no point is dropped. -/
def toEntry (c : Curve) (m : RawMatch) : Option TxEntry :=
  match compressRawKey c m.tweakKey with
  | .ok key =>
    some { height := m.height, txHash := Hex.encode m.txid, tweakKey := Hex.encode key,
           outputIndex := m.outputIndex }
  | .error _ => none

/-- Cuts a list into pieces of a positive length; only the last may be shorter. -/
def chunks {α : Type} (size : Nat) : (fuel : Nat) → List α → List (List α)
  | 0, _ => []
  | fuel + 1, l => if l.isEmpty then [] else l.take size :: chunks size fuel (l.drop size)

/-- The histories of the pages that publish some entries; without entries there is one empty
page, if it is forced. -/
def histories (pageSize : Nat) (entries : List TxEntry) (force : Bool) : List (List TxEntry) :=
  if entries.isEmpty then (if force then [[]] else [])
  else chunks (max pageSize 1) entries.length entries

/-- How the store ended. -/
inductive ScanOutcome where
  | finished
  | failed (e : StorageError)
  | crashed (message : String)
deriving Repr

/-- The wording of an outcome that is logged as a failure. -/
def ScanOutcome.failure? : ScanOutcome → Option String
  | .finished => none
  | .failed .cancelled => none
  | .failed e => some e.message
  | .crashed message => some ("task # panicked with message " ++ Text.quoteString message)

/-- Where a scan stands. -/
inductive ScanPhase where
  /-- The engine is about to ask whether the scan is wanted. -/
  | starting
  | running
  /-- The store is done with; these entries are still to be published. -/
  | closing (rest : List TxEntry)
  | done
deriving DecidableEq, Repr

/-- A scan under way: what the store has sent that is not published yet, its counters, and the
ticks so far. -/
structure ScanRun (Q : Type) where
  request : ScanRequest
  pageSize : Nat
  phase : ScanPhase := .starting
  waiting : List RawMatch := []
  processed : Nat := 0
  total : Nat := 0
  tracker : ProgressTracker Q
  ticks : Nat := 0

/-- What a scan gives rise to. -/
inductive ScanEffect (Q : Type) where
  | page (p : ScanPage Q)
  | query (q : ScanQuery)
  | cancelStore
  | record (r : LogRecord)

namespace ScanRun

variable {Q : Type} [Portion Q]

/-- A scan that has not started. -/
def new (settings : ScanSettings) (request : ScanRequest) : ScanRun Q where
  request := request
  pageSize := settings.pageSize
  tracker := .start

/-- The pages that publish some entries with a part done. -/
def pages (run : ScanRun Q) (progress : Q) (entries : List TxEntry) (force : Bool) :
    List (ScanEffect Q) :=
  (histories run.pageSize entries force).map fun history =>
    .page { owner := run.request.owner, subscription := run.request.key, progress, history }

/-- The record of a scan that has ended after some time. -/
def ended (run : ScanRun Q) (found elapsed : Nat) (error : Option String) : ScanEffect Q :=
  .record (scanRecord (toString run.request.owner) run.request.address.address
    run.request.startHeight run.request.endHeight found elapsed error)

/-- Starts the scan, if it is wanted and its query can be made. -/
def begin (s : Scheme) (batchSize : Option Nat) (alive : Bool) (run : ScanRun Q) :
    ScanRun Q × List (ScanEffect Q) :=
  if !alive then ({ run with phase := .closing [] }, [])
  else
    match run.request.buildQuery s batchSize with
    | .error e => ({ run with phase := .closing [] }, [run.ended 0 0 (some e.message)])
    | .ok q => ({ run with phase := .running }, [.query q])

/-- The store sends a row. -/
def push (m : RawMatch) (run : ScanRun Q) : ScanRun Q :=
  { run with waiting := run.waiting ++ [m] }

/-- The store sets its counters. -/
def count (processed total : Nat) (run : ScanRun Q) : ScanRun Q :=
  { run with processed, total }

/-- The entries for the rows that are waiting. -/
def drained (c : Curve) (run : ScanRun Q) : List TxEntry :=
  run.waiting.filterMap (toEntry c)

/-- A tick. If nobody wants the scan it is cancelled. If the store has not looked at anything, or
has looked at everything, the tick passes. -/
def tick (c : Curve) (alive : Bool) (run : ScanRun Q) : ScanRun Q × List (ScanEffect Q) :=
  let run := { run with ticks := run.ticks + 1 }
  if !alive then ({ run with phase := .closing [] }, [.cancelStore])
  else if run.processed = run.total then (run, [])
  else
    let tracker := run.tracker.update run.processed run.total
    ({ run with tracker, waiting := [] },
      run.pages tracker.last (run.drained c) (run.ticks % heartbeatTicks = 0))

/-- The store ends. What it sent that is not published yet is kept only if it ended well. -/
def finish (c : Curve) (outcome : ScanOutcome) (elapsed : Nat) (run : ScanRun Q) :
    ScanRun Q × List (ScanEffect Q) :=
  match outcome with
  | .finished =>
    let rest := run.drained c
    ({ run with phase := .closing rest, waiting := [] }, [run.ended rest.length elapsed none])
  | outcome =>
    ({ run with phase := .closing [] },
      match outcome.failure? with
      | some e => [run.ended 0 elapsed (some e)]
      | none => [])

/-- Publishes the final pages, if they are wanted. -/
def conclude (alive : Bool) (run : ScanRun Q) : ScanRun Q × List (ScanEffect Q) :=
  match run.phase with
  | .closing rest =>
    ({ run with phase := .done }, if alive then run.pages Portion.whole rest true else [])
  | _ => (run, [])

end ScanRun

/-- What can happen to a scan. The answers whether it is wanted come from outside. -/
inductive ScanInput where
  | begin (alive : Bool)
  | push (m : RawMatch)
  | count (processed total : Nat)
  | tick (alive : Bool)
  | finish (outcome : ScanOutcome) (elapsed : Nat)
  | conclude (alive : Bool)

/-- What happens to a scan, as far as its phase lets it. -/
def ScanRun.step {Q : Type} [Portion Q] (s : Scheme) (batchSize : Option Nat) (run : ScanRun Q)
    (input : ScanInput) : ScanRun Q × List (ScanEffect Q) :=
  match run.phase, input with
  | .starting, .begin alive => run.begin s batchSize alive
  | .running, .push m => (run.push m, [])
  | .running, .count processed total => (run.count processed total, [])
  | .running, .tick alive => run.tick s.curve alive
  | .running, .finish outcome elapsed => run.finish s.curve outcome elapsed
  | .closing _, .conclude alive => run.conclude alive
  | _, _ => (run, [])

end SilentScan
