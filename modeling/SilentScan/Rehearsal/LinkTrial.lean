/-
A link by itself with a scripted other server.

The link is used step by step, and after every step a millisecond passes. The callers of one
step ask at the same time and take their turns in order.

* `LinkTrialStep`, `LinkTrial.rehearse`: the steps, and what is seen of them.
-/
import SilentScan.Rehearsal.Agenda
import SilentScan.Rehearsal.Connection

namespace SilentScan

/-- A step of the rehearsal. -/
inductive LinkTrialStep where
  /-- Some callers ask, and perhaps the link is closed after some time. -/
  | request (calls : List (String × Json)) (closeAfter : Option Nat)
  | push (move : PeerMove)
  | advance (ms : Nat)
  | close

/-- What a step brings about. -/
inductive LinkTrialResult where
  | nothing
  | flag (b : Bool)
  /-- What each caller gets, and when. -/
  | answers (l : List (Nat × Except TransportError Response))

/-- What is seen of a step. -/
structure LinkTrialReport where
  result : LinkTrialResult
  notifications : List Notification
  heard : List String
  closed : Bool

/-- What is due in the rehearsal. -/
inductive LinkTrialTask where
  | connection (t : ConnectionTask)
  | close

/-- A rehearsal under way, with what has been seen since the last step. -/
structure LinkTrial where
  agenda : Agenda LinkTrialTask := {}
  connection : Connection
  callers : Nat := 0
  answers : List (Nat × Nat × Except TransportError Response) := []
  notifications : List Notification := []
  heard : List String := []
  /-- Whether the link is still to be closed in this step. -/
  closing : Bool := false

namespace LinkTrial

/-- Takes note of news. -/
def note (t : LinkTrial) : ConnectionNews → LinkTrial
  | .finished caller result => { t with answers := t.answers ++ [(caller, t.agenda.now, result)] }
  | .notified n => { t with notifications := t.notifications ++ [n] }
  | .heard line => { t with heard := t.heard ++ [line] }

/-- Takes over what a connection has done. -/
def take (t : LinkTrial) (p : Connection.Progress) : LinkTrial :=
  let t := { t with
    connection := p.connection
    agenda := t.agenda.addAll (p.later.map fun (ms, task) => (ms, .connection task)) }
  p.news.foldl note t

/-- Carries out a task. -/
def perform (t : LinkTrial) : LinkTrialTask → LinkTrial
  | .connection task => t.take (t.connection.perform task)
  | .close => { t.take t.connection.close with closing := false }

/-- The greatest number of tasks carried out in a step. -/
def maxRounds : Nat := 1000000

/-- Carries out what is due up to a time. -/
def runUntil (time : Nat) : (rounds : Nat) → LinkTrial → LinkTrial
  | 0, t => t
  | rounds + 1, t =>
    match t.agenda.next? time with
    | some (task, agenda) => runUntil time rounds ({ t with agenda }.perform task)
    | none => { t with agenda := t.agenda.advanceTo time }

/-- Carries out tasks until all callers have their answers. -/
def runUntilAnswered (count : Nat) : (rounds : Nat) → LinkTrial → LinkTrial
  | 0, t => t
  | rounds + 1, t =>
    if t.answers.length = count && !t.closing then t
    else
      match t.agenda.tasks with
      | (due, task) :: rest =>
        runUntilAnswered count rounds
          ({ t with agenda := { now := max t.agenda.now due, tasks := rest } }.perform task)
      | [] => t

/-- Some callers ask at the same time. -/
def ask (t : LinkTrial) (calls : List (String × Json)) : LinkTrial :=
  calls.foldl (fun t (method, params) =>
    { t with callers := t.callers + 1 }.take
      (t.connection.call { caller := t.callers, method, params })) t

/-- The answers in the order of the callers, of whom the first has a given number. -/
def answersFrom (t : LinkTrial) (first : Nat) :
    (count : Nat) → List (Nat × Except TransportError Response)
  | 0 => []
  | count + 1 => (t.answers.lookup first).toList ++ answersFrom t (first + 1) count

/-- Does what a step says. -/
def act (t : LinkTrial) : LinkTrialStep → LinkTrialResult × LinkTrial
  | .request calls closeAfter =>
    let first := t.callers
    let t := t.ask calls
    let t := match closeAfter with
      | some ms => { t with agenda := t.agenda.add ms .close, closing := true }
      | none => t
    let t := runUntilAnswered calls.length maxRounds t
    (.answers (t.answersFrom first calls.length), t)
  | .push move =>
    let (taken, p) := t.connection.push move
    (.flag taken, t.take p)
  | .advance ms => (.nothing, runUntil (t.agenda.now + ms) maxRounds t)
  | .close => (.nothing, t.take t.connection.close)

/-- Does a step and lets a millisecond pass. -/
def report (t : LinkTrial) (step : LinkTrialStep) : LinkTrialReport × LinkTrial :=
  let (result, t) := { t with answers := [], notifications := [], heard := [] }.act step
  let t := runUntil (t.agenda.now + 1) maxRounds t
  ({ result, notifications := t.notifications, heard := t.heard,
     closed := t.connection.link.closed }, t)

/-- Does steps one after another. -/
def reports : LinkTrial → List LinkTrialStep → List LinkTrialReport
  | _, [] => []
  | t, s :: rest =>
    let (r, t) := t.report s
    r :: reports t rest

/-- Rehearses a link: its reader starts, and the steps are done. -/
def rehearse (connection : Connection) (steps : List LinkTrialStep) : List LinkTrialReport :=
  reports { connection, agenda := ({} : Agenda LinkTrialTask).add 0 (.connection .start) } steps

end LinkTrial
end SilentScan
