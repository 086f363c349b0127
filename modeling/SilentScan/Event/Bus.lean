/-
A bus that hands events to listeners.

Listeners register and are given an id, never used twice. An event goes to those registered at
the moment it is published, in the order of their registration, even to one that is removed
while the event is on its way. A listener may use the bus while it is told of an event: what it
publishes then is delivered in full before it goes on.

* `Bus`: the registrations, with `register`, `unregister` and `recipients`;
* `Reaction`: what a listener does with the bus when it is told of an event;
* `BusState.run`: delivery with listeners that react.
-/
namespace SilentScan

/-- The listeners in the order of their registration, and the next id. -/
structure Bus (L : Type) where
  listeners : List (Nat × L) := []
  nextId : Nat := 0

namespace Bus

variable {L : Type}

/-- Adds a listener under a fresh id. -/
def register (b : Bus L) (l : L) : Nat × Bus L :=
  (b.nextId, { listeners := b.listeners ++ [(b.nextId, l)], nextId := b.nextId + 1 })

/-- Removes a registration; tells whether it was there. -/
def unregister (b : Bus L) (id : Nat) : Bool × Bus L :=
  (b.listeners.any (·.1 == id), { b with listeners := b.listeners.filter (·.1 != id) })

/-- Those who get an event published now, in order. -/
def recipients (b : Bus L) : List (Nat × L) :=
  b.listeners

/-- The number of registrations. -/
def count (b : Bus L) : Nat :=
  b.listeners.length

/-- A bus with so many registrations as shown to the operator. -/
def debugText (count : Nat) : String :=
  "EventBus \x7b listeners: " ++ toString count ++ " \x7d"

/-- The bus as shown to the operator. -/
def debug (b : Bus L) : String :=
  debugText b.count

end Bus

/-- What a listener does while it is told of an event: it works on a state of type `S` and uses
the bus, step by step. -/
inductive Reaction (L E S : Type) where
  | done
  | update (f : S → S) (next : Reaction L E S)
  | inspect (next : S → Reaction L E S)
  | register (l : L) (next : Nat → Reaction L E S)
  | unregister (id : Nat) (next : Bool → Reaction L E S)
  | publish (e : E) (next : Reaction L E S)
  | count (next : Nat → Reaction L E S)

/-- The bus together with the state that listeners work on. -/
structure BusState (L S : Type) where
  bus : Bus L
  state : S

/-- Work that is still to be done: telling a listener of an event, or going on with a
reaction. -/
inductive Work (L E S : Type) where
  | deliver (id : Nat) (l : L) (e : E)
  | resume (r : Reaction L E S)

namespace BusState

variable {L E S : Type}

/-- The deliveries of an event published now. -/
def deliveries (s : BusState L S) (e : E) : List (Work L E S) :=
  s.bus.recipients.map fun (id, l) => .deliver id l e

/-- Does one piece of work; what it gives rise to comes before the rest. -/
def step (react : L → E → Reaction L E S) (s : BusState L S) :
    Work L E S → BusState L S × List (Work L E S)
  | .deliver _ l e => (s, [.resume (react l e)])
  | .resume .done => (s, [])
  | .resume (.update f next) => ({ s with state := f s.state }, [.resume next])
  | .resume (.inspect next) => (s, [.resume (next s.state)])
  | .resume (.register l next) =>
    let (id, bus) := s.bus.register l
    ({ s with bus }, [.resume (next id)])
  | .resume (.unregister id next) =>
    let (found, bus) := s.bus.unregister id
    ({ s with bus }, [.resume (next found)])
  | .resume (.publish e next) => (s, s.deliveries e ++ [.resume next])
  | .resume (.count next) => (s, [.resume (next s.bus.count)])

/-- Does all the work, the first piece first; none where the steps do not suffice. -/
def run (react : L → E → Reaction L E S) :
    (steps : Nat) → BusState L S → List (Work L E S) → Option (BusState L S)
  | _, s, [] => some s
  | 0, _, _ :: _ => none
  | steps + 1, s, w :: rest =>
    let (s, more) := s.step react w
    run react steps s (more ++ rest)

end BusState
end SilentScan
