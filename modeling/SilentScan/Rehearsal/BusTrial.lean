/-
The bus with listeners that follow a script.

A listener takes note of every event that it is told of. At the first one it then does what its
script says, which may be to publish, to register others or to remove some.

* `BusDeed`, `BusResult`, `BusNote`: what is done with the bus, what it brings back, and what
  listeners take note of;
* `BusTrial.reports`: deeds one after another, with what is seen of them.
-/
import SilentScan.Event.Basic
import SilentScan.Event.Bus

namespace SilentScan

/-- Something that is done with the bus. -/
inductive BusDeed where
  /-- Registers a listener under a name, with its script. -/
  | register (name : String) (onFirst : List BusDeed)
  /-- Removes the latest listener of a name. -/
  | unregister (name : String)
  | publish (e : Event)
  /-- Counts the listeners. -/
  | count
deriving Inhabited

/-- What a deed brings back. -/
inductive BusResult where
  | nothing
  | removed (found : Bool)
  | counted (n : Nat)
deriving Repr

/-- What a listener takes note of. -/
inductive BusNote where
  | heard (name : String) (e : Event)
  | did (name : String) (result : BusResult)
deriving Repr

/-- A listener with its name, its number and its script. -/
structure ScriptedListener where
  name : String
  number : Nat
  onFirst : List BusDeed

/-- What the listeners have noted, which of them have followed their scripts, and the ids under
which names are registered. -/
structure BusTrial where
  notes : List BusNote := []
  started : List Nat := []
  ids : List (String × Nat) := []
  numbered : Nat := 0

/-- What is seen of a deed. -/
structure BusTrialReport where
  result : BusResult
  notes : List BusNote
  listeners : Nat

namespace BusTrial

/-- A deed, and what follows its result. -/
def act (next : BusResult → Reaction ScriptedListener Event BusTrial) :
    BusDeed → Reaction ScriptedListener Event BusTrial
  | .register name onFirst => .inspect fun t =>
    .register { name, number := t.numbered, onFirst } fun id =>
      .update (fun t => { t with numbered := t.numbered + 1, ids := (name, id) :: t.ids })
        (next .nothing)
  | .unregister name => .inspect fun t =>
    match t.ids.lookup name with
    | some id => .unregister id fun found => next (.removed found)
    | none => next .nothing
  | .publish e => .publish e (next .nothing)
  | .count => .count fun n => next (.counted n)

/-- Takes note of something. -/
def note (n : BusNote) (next : Reaction ScriptedListener Event BusTrial) :
    Reaction ScriptedListener Event BusTrial :=
  .update (fun t => { t with notes := t.notes ++ [n] }) next

/-- Follows a script. -/
def follow (name : String) : List BusDeed → Reaction ScriptedListener Event BusTrial
  | [] => .done
  | deed :: rest => act (fun result => note (.did name result) (follow name rest)) deed

/-- What a listener does when it is told of an event. -/
def react (l : ScriptedListener) (e : Event) : Reaction ScriptedListener Event BusTrial :=
  note (.heard l.name e) <| .inspect fun t =>
    if t.started.contains l.number then .done
    else .update (fun t => { t with started := l.number :: t.started }) (follow l.name l.onFirst)

/-- The greatest number of steps that a deed may take. -/
def maxSteps : Nat := 1000000

/-- Does a deed. Its result is the last thing noted, without a name. -/
def report (s : BusState ScriptedListener BusTrial) (deed : BusDeed) :
    Option (BusTrialReport × BusState ScriptedListener BusTrial) := do
  let s := { s with state := { s.state with notes := [] } }
  let s ← BusState.run react maxSteps s [.resume (act (fun r => note (.did "" r) .done) deed)]
  let result := match s.state.notes.getLast? with
    | some (.did _ result) => result
    | _ => .nothing
  return ({ result, notes := s.state.notes.dropLast, listeners := s.bus.count }, s)

/-- Does deeds one after another. -/
def reports : BusState ScriptedListener BusTrial → List BusDeed → List BusTrialReport
  | _, [] => []
  | s, deed :: rest =>
    match report s deed with
    | some (r, s) => r :: reports s rest
    | none => []

end BusTrial
end SilentScan
