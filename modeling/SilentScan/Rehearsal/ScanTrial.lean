/-
One scan with a scripted store.

The scan is run by itself or dispatched, in which case it publishes its final pages too. Whether
it is wanted is answered by a script as well: for so many questions, or for so long.

* `ScanTrial`, `ScanTrial.rehearse`: the rehearsal and what is seen of it.
-/
import SilentScan.Rehearsal.Agenda
import SilentScan.Rehearsal.StoreScript

namespace SilentScan

/-- What is due in a trial. -/
inductive TrialTask where
  | store (run : StoreRun)
  | tick
  | finish (outcome : ScanOutcome)

/-- A scan to be rehearsed. -/
structure ScanTrial where
  settings : ScanSettings
  request : ScanRequest
  moves : List StoreMove
  /-- Whether the scan is dispatched. -/
  dispatched : Bool
  /-- The number of questions to which the scan is wanted. -/
  aliveCalls : Option Nat := none
  /-- The time up to which the scan is wanted. -/
  aliveUntil : Option Nat := none

/-- A trial under way, with what has been seen. -/
structure ScanTrial.Course where
  agenda : Agenda TrialTask := {}
  run : ScanRun Double
  asked : Nat := 0
  queries : List ScanQuery := []
  pages : List (Nat × ScanPage Double) := []
  records : List LogRecord := []
  /-- The time at which the scan was over. -/
  overAt : Option Nat := none

namespace ScanTrial

/-- Whether the scan is wanted at a time when so many questions have been asked before. -/
def alive (t : ScanTrial) (c : Course) : Bool :=
  t.aliveCalls.all (c.asked < ·) && t.aliveUntil.all (c.agenda.now < ·)

/-- Something happens to the scan. -/
def input (s : Scheme) (t : ScanTrial) (c : Course) (i : ScanInput) : Course :=
  let (run, effects) := c.run.step s t.settings.batchSize i
  effects.foldl (fun c effect =>
    match effect with
    | .page p => { c with pages := c.pages ++ [(c.agenda.now, p)] }
    | .query q => { c with queries := c.queries ++ [q] }
    | .cancelStore => { c with agenda := { c.agenda with tasks := [] } }
    | .record r => { c with records := c.records ++ [r] }) { c with run }

/-- Something happens to the scan that depends on whether it is wanted. -/
def question (s : Scheme) (t : ScanTrial) (c : Course) (i : Bool → ScanInput) : Course :=
  let alive := t.alive c
  t.input s { c with asked := c.asked + 1 } (i alive)

/-- Ends the trial if the scan has ended. -/
def settle (s : Scheme) (t : ScanTrial) (c : Course) : Course :=
  match c.run.phase with
  | .closing _ =>
    let c := if t.dispatched then t.question s c .conclude else c
    { c with agenda := { c.agenda with tasks := [] }, overAt := some c.agenda.now }
  | _ => c

/-- Carries out a task. -/
def perform (s : Scheme) (t : ScanTrial) (c : Course) : TrialTask → Course
  | .store run =>
    let (inputs, pause) := run.play
    let c := inputs.foldl (t.input s) c
    match pause with
    | .asleep ms run => { c with agenda := c.agenda.add ms (.store run) }
    | .ended outcome => { c with agenda := c.agenda.add 0 (.finish outcome) }
  | .tick =>
    t.settle s (t.question s { c with agenda := c.agenda.add t.settings.interval .tick } .tick)
  | .finish outcome => t.settle s (t.input s c (.finish outcome c.agenda.now))

/-- Carries out tasks until there are none, but no more than `rounds` of them. -/
def loop (s : Scheme) (t : ScanTrial) : (rounds : Nat) → Course → Course
  | 0, c => c
  | rounds + 1, c =>
    match c.agenda.tasks with
    | [] => c
    | (due, task) :: rest =>
      let agenda := { now := max c.agenda.now due, tasks := rest }
      loop s t rounds (t.perform s { c with agenda } task)

/-- The greatest number of tasks carried out. -/
def maxRounds : Nat := 1000000

/-- Rehearses the scan. -/
def rehearse (s : Scheme) (t : ScanTrial) : Course :=
  let c := t.question s { run := .new t.settings t.request } .begin
  let c := match c.run.phase with
    | .running =>
      let agenda := c.agenda.add 0 (.store { moves := t.moves })
      { c with agenda := agenda.add t.settings.interval .tick }
    | _ => t.settle s c
  t.loop s maxRounds c

/-- The entries that a scan run by itself gives back. -/
def Course.returned (c : Course) : List TxEntry :=
  match c.run.phase with
  | .closing rest => rest
  | _ => []

end ScanTrial
end SilentScan
