/-
The link to the other server.

Requests go out on one stream, and responses and notifications come in on it in any order. The
callers take turns: one at a time numbers its request, registers the number, writes the line and
waits for the response with that number. A reader takes in the lines of the stream. It hands
notifications on and delivers a response if its number is registered.

Everything that happens to a link is a `LinkStep`; the steps are small enough that between any
two steps of a caller the reader, the clock or the closing of the link may come.

* `Link`: the state, with the callers, the numbers registered and the responses delivered;
* `LinkStep`, `Link.step`: what can happen, and what it does;
* `Link.run`: several steps after one another;
* `Link.close`, `Link.lose`: the steps of a link that is closed or whose stream has ended.
-/
import SilentScan.Text.Blank
import SilentScan.Wire.Error

namespace SilentScan

/-- The longest line accepted from the other server, in bytes. -/
def maxLineLength : Nat := 32 * 1024 * 1024

/-- A request that a caller wants answered. -/
structure LinkCall where
  caller : Nat
  method : String
  params : Json

/-- How far the caller has come whose turn it is. -/
inductive TurnStage where
  | entered
  /-- Waits until the reader has started. -/
  | waiting
  /-- Has a number for its request. -/
  | numbered (id : Nat)
  /-- Has registered the number and is writing the line. -/
  | registered (id : Nat)
  /-- Waits for the response. -/
  | awaiting (id : Nat)
deriving DecidableEq, Repr

/-- The caller whose turn it is. -/
structure Turn where
  call : LinkCall
  stage : TurnStage

/-- A link. -/
structure Link where
  /-- The callers that wait for their turn. -/
  queue : List LinkCall := []
  turn : Option Turn := none
  /-- The numbers registered, with their callers. -/
  pending : List (Nat × Nat) := []
  /-- What has been delivered for a number. -/
  delivered : List (Nat × Except TransportError Response) := []
  /-- Set once the link has failed: no number is registered any more. -/
  failed : Option TransportError := none
  nextId : Nat := 1
  closed : Bool := false
  /-- Whether the reader has started. -/
  started : Bool := false
  /-- Whether the reader still takes in lines. -/
  reading : Bool := true

/-- What can happen to a link. -/
inductive LinkStep where
  | call (c : LinkCall)
  /-- The caller whose turn it is goes on, or the next one gets its turn. -/
  | proceed
  /-- The reader has not started in time. -/
  | giveUp
  | wrote
  | writeFailed (cause : String)
  /-- No response has come within so many milliseconds. -/
  | expire (ms : Nat)
  | start
  | receive (line : String)
  | markClosed
  | stopReading
  | failPending (e : TransportError)

/-- What a link gives rise to. -/
inductive LinkEffect where
  | send (line : String)
  | finished (caller : Nat) (result : Except TransportError Response)
  | notified (n : Notification)

namespace Link

/-- The turn ends with a result. -/
def endTurn (l : Link) (t : Turn) (result : Except TransportError Response) :
    Link × List LinkEffect :=
  ({ l with turn := none }, [.finished t.call.caller result])

/-- The caller whose turn it is has come further. -/
def moveTo (l : Link) (t : Turn) (stage : TurnStage) : Link :=
  { l with turn := some { t with stage } }

/-- Registers a number, unless the link has failed. -/
def register (l : Link) (t : Turn) (id : Nat) : Link × List LinkEffect :=
  match l.failed with
  | some e => l.endTurn t (.error e)
  | none =>
    ({ l.moveTo t (.registered id) with pending := (id, t.call.caller) :: l.pending },
      [.send (Request.numbered id t.call.method t.call.params).line])

/-- Takes a number back. -/
def cancel (l : Link) (id : Nat) : Link :=
  { l with pending := l.pending.filter (·.1 != id) }

/-- The caller whose turn it is goes on as far as nothing holds it up. -/
def proceedTurn (l : Link) (t : Turn) : Link × List LinkEffect :=
  match t.stage with
  | .entered => if l.closed then l.endTurn t (.error .closed) else (l.moveTo t .waiting, [])
  | .waiting =>
    if l.started then
      ({ l.moveTo t (.numbered l.nextId) with nextId := l.nextId + 1 }, [])
    else if l.reading then (l, [])
    else l.endTurn t (.error .closed)
  | .numbered id => l.register t id
  | .registered _ => (l, [])
  | .awaiting id =>
    match l.delivered.lookup id with
    | some result => l.endTurn t result
    | none => (l, [])

/-- Someone's turn goes on, or the first in the queue gets its turn. -/
def proceed (l : Link) : Link × List LinkEffect :=
  match l.turn, l.queue with
  | some t, _ => l.proceedTurn t
  | none, c :: rest => ({ l with queue := rest, turn := some ⟨c, .entered⟩ }, [])
  | none, [] => (l, [])

/-- Delivers a response if its number is registered. -/
def deliver (l : Link) (r : Response) : Link :=
  match r.numericId with
  | some id =>
    if l.pending.any (·.1 == id) then
      { l.cancel id with delivered := (id, .ok r) :: l.delivered }
    else l
  | none => l

/-- The reader takes in a line. Blank lines and lines that hold no frame are passed over. -/
def receive (l : Link) (line : String) : Link × List LinkEffect :=
  let line := Text.trim line
  if line.isEmpty then (l, [])
  else
    match Frame.classify line with
    | .ok (.notification n) => (l, [.notified n])
    | .ok (.response r) => (l.deliver r, [])
    | .error _ => (l, [])

/-- Nothing that is registered will be answered any more, and nothing more is registered. -/
def failPending (l : Link) (e : TransportError) : Link :=
  { l with
    pending := []
    delivered := l.pending.map (fun (id, _) => (id, .error e)) ++ l.delivered
    failed := some (l.failed.getD e) }

/-- What a step does to a link. A step that does not apply does nothing. -/
def step (l : Link) : LinkStep → Link × List LinkEffect
  | .call c => ({ l with queue := l.queue ++ [c] }, [])
  | .proceed => l.proceed
  | .giveUp =>
    match l.turn with
    | some t =>
      if t.stage = .waiting ∧ l.started = false then l.endTurn t (.error .notReady) else (l, [])
    | none => (l, [])
  | .wrote =>
    match l.turn with
    | some ⟨c, .registered id⟩ => (l.moveTo ⟨c, .registered id⟩ (.awaiting id), [])
    | _ => (l, [])
  | .writeFailed cause =>
    match l.turn with
    | some ⟨c, .registered id⟩ => (l.cancel id).endTurn ⟨c, .registered id⟩ (.error (.io cause))
    | _ => (l, [])
  | .expire ms =>
    match l.turn with
    | some ⟨c, .awaiting id⟩ =>
      if (l.delivered.lookup id).isSome then (l, [])
      else (l.cancel id).endTurn ⟨c, .awaiting id⟩ (.error (.timeout ms))
    | _ => (l, [])
  | .start => ({ l with started := true }, [])
  | .receive line => if l.started && l.reading then l.receive line else (l, [])
  | .markClosed => ({ l with closed := true }, [])
  | .stopReading => ({ l with reading := false }, [])
  | .failPending e => (l.failPending e, [])

/-- Several steps after one another. -/
def run (l : Link) : List LinkStep → Link × List LinkEffect
  | [] => (l, [])
  | s :: rest =>
    let (l, effects) := l.step s
    let (l, more) := l.run rest
    (l, effects ++ more)

/-- The steps of a link whose stream has ended with a failure. -/
def loseSteps (e : TransportError) : List LinkStep :=
  [.markClosed, .stopReading, .failPending e]

/-- The stream has ended. -/
def lose (l : Link) (e : TransportError) : Link × List LinkEffect :=
  l.run (loseSteps e)

/-- Closes a link that is not closed yet. -/
def close (l : Link) : Link × List LinkEffect :=
  if l.closed then (l, []) else l.lose .closed

end Link
end SilentScan
