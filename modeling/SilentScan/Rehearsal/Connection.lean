/-
A link to a scripted other server.

The link, the reader of its stream, the timeouts and the peer work at their times; whatever is to
be done later becomes a task.

* `Connection`, `ConnectionTask`: the link with its peer, and what can be due;
* `Connection.perform`: carries out a task;
* `Connection.call`, `push`, `close`: requests, what the peer is told to do, and the end.
-/
import SilentScan.Rehearsal.Peer
import SilentScan.Wire.Reader

namespace SilentScan

/-- For how long a caller waits, in milliseconds. -/
structure LinkTiming where
  request : Nat := 30000
  ready : Nat := 2000
deriving Repr

/-- What is due for a connection. -/
inductive ConnectionTask where
  /-- The reader starts. -/
  | start
  /-- The peer goes on. -/
  | attend
  /-- The peer wakes up. -/
  | wake
  /-- The reader takes in what has come. -/
  | read
  /-- The callers go on. -/
  | proceed
  /-- A caller has waited long enough for the reader. -/
  | giveUp (caller : Nat)
  /-- A caller has waited long enough for its response. -/
  | expire (caller : Nat)
deriving Repr

/-- What becomes known of a connection. -/
inductive ConnectionNews where
  | finished (caller : Nat) (result : Except TransportError Response)
  | notified (n : Notification)
  /-- The peer has read a request. -/
  | heard (line : String)

/-- A link with its peer, and what the peer has sent that is not taken in yet. -/
structure Connection extends LinkReader where
  peer : Peer
  stream : List StreamPiece := []
  timing : LinkTiming := {}

/-- A connection with what is to be done later and what has become known. -/
structure Connection.Progress where
  connection : Connection
  later : List (Nat × ConnectionTask) := []
  news : List ConnectionNews := []

namespace Connection

namespace Progress

/-- One step of a connection after another. -/
def andThen (p : Progress) (f : Connection → Progress) : Progress :=
  let q := f p.connection
  { connection := q.connection, later := p.later ++ q.later, news := p.news ++ q.news }

end Progress

/-- Effects of the link that concern nobody but its callers. -/
def newsOf : LinkEffect → Option ConnectionNews
  | .finished caller result => some (.finished caller result)
  | .notified n => some (.notified n)
  | .send _ => none

/-- Steps of the link. -/
def run (c : Connection) (steps : List LinkStep) : Progress :=
  let (link, effects) := c.link.run steps
  { connection := { c with link }, news := effects.filterMap newsOf }

/-- Writes a line to the peer, which fails if nobody is there. -/
def write (c : Connection) (t : Turn) (line : String) : Progress :=
  if c.peer.present then
    let p := { c with peer := { c.peer with inbox := c.peer.inbox ++ [line] } }.run [.wrote]
    let p := { p with later := [(0, .attend), (c.timing.request, .expire t.call.caller)] }
    if c.timing.request = 0 then p.andThen (·.run [.expire 0]) else p
  else c.run [.writeFailed "broken pipe"]

/-- The caller whose turn it is goes on by one step. -/
def proceedOnce (c : Connection) : Progress :=
  let (link, effects) := c.link.step .proceed
  let c := { c with link }
  let lines := effects.filterMap fun
    | .send line => some line
    | _ => none
  match lines, link.turn with
  | line :: _, some t => c.write t line
  | _, _ => { connection := c, news := effects.filterMap newsOf }

/-- Whether the callers can go on, and if not, whom the reader keeps waiting. -/
def standing (c : Connection) : Bool × Option Nat :=
  match c.link.turn with
  | none => (!c.link.queue.isEmpty, none)
  | some t =>
    match t.stage with
    | .waiting =>
      if c.link.started || !c.link.reading then (true, none) else (false, some t.call.caller)
    | .registered _ => (false, none)
    | .awaiting id => ((c.link.delivered.lookup id).isSome, none)
    | _ => (true, none)

/-- The callers go on as far as nothing holds them up, but by no more than `steps` steps. -/
def press : (steps : Nat) → Connection → Progress
  | 0, c => { connection := c, later := [(0, .proceed)] }
  | steps + 1, c =>
    match c.standing with
    | (true, _) => c.proceedOnce.andThen (press steps)
    | (false, some caller) =>
      if c.timing.ready = 0 then (c.run [.giveUp]).andThen (press steps)
      else { connection := c, later := [(c.timing.ready, .giveUp caller)] }
    | (false, none) => { connection := c }

/-- The number of steps that callers go on at once. -/
def pressSteps : Nat := 64

/-- The reader has taken in something. -/
def takeOver (c : Connection) (taken : LinkReader × List LinkEffect) : Progress :=
  { connection := { c with toLinkReader := taken.1 }, news := taken.2.filterMap newsOf }

/-- What the reader does about a piece of the stream. A line of many letters holds no more than a
line of one of them, except that it may be too long. -/
def readPiece (c : Connection) : StreamPiece → Progress
  | .bytes bytes => c.takeOver (c.feed bytes)
  | .filler n =>
    if 0 < n ∧ maxLineLength < c.splitter.length + n then
      let c := { c with splitter := { c.splitter with stopped := true } }
      c.takeOver (c.take (Reception.ofItem .tooLong))
    else c.takeOver (c.feed (List.replicate (min n 1) 120 ++ [10]))
  | .ending => c.takeOver c.finish

/-- The reader takes in what has come, and the callers go on after it. -/
def read (c : Connection) : Progress :=
  let readNext (p : Progress) (piece : StreamPiece) : Progress := p.andThen fun c =>
    if c.link.reading then c.readPiece piece else ⟨c, [], []⟩
  let p := c.stream.foldl readNext { connection := { c with stream := [] } }
  { p with later := p.later ++ [(0, .proceed)] }

/-- The peer goes on. -/
def attend (c : Connection) : Progress :=
  let d := c.peer.attend
  { connection := { c with peer := d.peer, stream := c.stream ++ d.sent }
    later := (if d.sent.isEmpty then [] else [(0, .read)])
      ++ (match d.wait with
          | some ms => [(ms, .wake)]
          | none => [])
    news := d.read.map .heard }

/-- Whose turn it is. -/
def turnOf (c : Connection) : Option Nat :=
  c.link.turn.map (·.call.caller)

/-- Carries out a task. -/
def perform (c : Connection) : ConnectionTask → Progress
  | .start => ((c.run [.start]).andThen read).andThen (press pressSteps)
  | .attend => c.attend
  | .wake => { c with peer := c.peer.wake }.attend
  | .read => if c.link.started then c.read else { connection := c }
  | .proceed => c.press pressSteps
  | .giveUp caller =>
    if c.turnOf = some caller then (c.run [.giveUp]).andThen (press pressSteps)
    else { connection := c }
  | .expire caller =>
    if c.turnOf = some caller then (c.run [.expire c.timing.request]).andThen (press pressSteps)
    else { connection := c }

/-- A request. -/
def call (c : Connection) (r : LinkCall) : Progress :=
  (c.run [.call r]).andThen fun c => if c.turnOf.isSome then ⟨c, [], []⟩ else c.press pressSteps

/-- Tells the peer to do something besides, if it is still there. -/
def push (c : Connection) (move : PeerMove) : Bool × Progress :=
  if c.peer.present then
    (true, { connection := { c with peer := { c.peer with asides := c.peer.asides ++ [move] } }
             later := [(0, .attend)] })
  else (false, { connection := c })

/-- Closes the link: no more requests will come to the peer. -/
def close (c : Connection) : Progress :=
  if c.link.closed then { connection := c }
  else
    let p := { c with peer := { c.peer with shut := true } }.run (Link.loseSteps .closed)
    { p with later := p.later ++ [(0, .proceed), (0, .attend)] }

end Connection
end SilentScan
