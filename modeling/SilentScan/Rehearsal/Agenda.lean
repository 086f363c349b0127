/-
Tasks at their times.

In a rehearsal the clock moves only when nothing is left to do at the present time. The tasks
that are due stand in an agenda, by time and, at one time, in the order in which they were
entered.

* `Agenda`, with `add`, `next?` and `advanceTo`: the clock and the tasks.
-/
namespace SilentScan

/-- The present time in milliseconds, and the tasks to come with their times. -/
structure Agenda (T : Type) where
  now : Nat := 0
  tasks : List (Nat × T) := []

namespace Agenda

variable {T : Type}

/-- Puts a task behind those that are not due later. -/
def insert (due : Nat) (task : T) : List (Nat × T) → List (Nat × T)
  | [] => [(due, task)]
  | (d, t) :: rest =>
    if due < d then (due, task) :: (d, t) :: rest else (d, t) :: insert due task rest

/-- Enters a task that is due after some time. -/
def add (a : Agenda T) (delay : Nat) (task : T) : Agenda T :=
  { a with tasks := insert (a.now + delay) task a.tasks }

/-- Enters tasks, each due after some time. -/
def addAll (a : Agenda T) (tasks : List (Nat × T)) : Agenda T :=
  tasks.foldl (fun a (delay, task) => a.add delay task) a

/-- Takes the next task out, if it is due by `limit`; the clock moves to its time. -/
def next? (a : Agenda T) (limit : Nat) : Option (T × Agenda T) :=
  match a.tasks with
  | (due, task) :: rest =>
    if due ≤ limit then some (task, { now := max a.now due, tasks := rest }) else none
  | [] => none

/-- Moves the clock to a later time. -/
def advanceTo (a : Agenda T) (time : Nat) : Agenda T :=
  { a with now := max a.now time }

end Agenda
end SilentScan
