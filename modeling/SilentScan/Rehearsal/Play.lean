/-
Rehearsals of the server.

A rehearsal is a list of steps. After a step some time passes, so that what the step has set off
can happen, and then it is reported what has been seen since the step before.

* `StageStep`, `Stage.report`: steps of clients, partners and the clock;
* `StreamStep`, `ServedStream.report`: one client that is served over a stream.
-/
import SilentScan.Rehearsal.Stage

namespace SilentScan

/-- A step of a rehearsal. -/
inductive StageStep where
  | openClient (name : String) (peer : Option String) (linked : Bool)
  | line (client : String) (text : String)
  /-- Publishes an event, which may name sessions by their clients. -/
  | publish (e : (String → SessionId) → Event)
  /-- Changes the index. -/
  | write (f : Store → Store × Nat × Notice)
  /-- Has the other server of a client do something. -/
  | peer (client : String) (move : PeerMove)
  | advance (ms : Nat)
  | close (client : String)
  /-- Nobody takes the lines for a client any more. -/
  | deafen (client : String)
  /-- A client is dropped without its session being closed. -/
  | drop (client : String)
  | look (client : String)

/-- What a step brings back. -/
inductive StageResult where
  | nothing
  | reply (line : Option String)
  | count (n : Nat)
  | flag (b : Bool)
  /-- A session, and whether its link to the other server is closed. -/
  | session (s : Session) (linkClosed : Option Bool)

/-- What is reported of a step. -/
structure StageReport where
  result : StageResult
  listeners : Nat
  seen : Sighting

namespace Stage

/-- A client by name, the latest of that name. -/
def client? (st : Stage) (name : String) : Option StageClient :=
  st.clients.find? (·.name = name)

/-- The session of a client; one that nobody has where there is no such client. -/
def sessionNamed (st : Stage) (name : String) : SessionId :=
  ((st.client? name).map (·.session)).getD st.hub.nextSession

/-- A client comes; with a link its reader is about to start. -/
def openClient (st : Stage) (name : String) (peer : Option String) (linked : Bool) : Stage :=
  let (id, hub, effects) := st.hub.openSession peer linked
  let connection : Option Connection :=
    if linked then some { peer := { script := st.peerScript }, timing := st.timing } else none
  let st :=
    { st with clients := { name, session := id, connection } :: st.clients }.take (hub, effects)
  if linked then st.later 0 (.connection id .start) else st

/-- The session of a client ends, and its link with it. -/
def closeClient (st : Stage) (id : SessionId) : Stage :=
  let st := st.take (st.hub.closeSession id)
  match (st.clientOf? id).bind (·.connection) with
  | some c => st.takeProgress id c.close
  | none => st

/-- Changes the index and tells everybody. -/
def write (st : Stage) (f : Store → Store × Nat × Notice) : StageResult × Stage :=
  match st.source with
  | .index store =>
    let (store, n, notice) := f store
    let st := { st with source := .index store
                        seen := { st.seen with records := st.seen.records ++ notice.records } }
    (.count n, st.take (st.hub.publishAll st.scanning notice.events))
  | .script _ => (.nothing, st)

/-- Does what a step says. -/
def act (st : Stage) : StageStep → StageResult × Stage
  | .openClient name peer linked => (.nothing, st.openClient name peer linked)
  | .line client text =>
    let (reply, st) := st.handleLine (st.sessionNamed client) text
    (.reply reply, st)
  | .publish e => (.nothing, st.take (st.hub.publish st.scanning (e st.sessionNamed)))
  | .write f => st.write f
  | .peer client move =>
    match st.client? client with
    | some k =>
      match k.connection with
      | some c =>
        let (taken, p) := c.push move
        (.flag taken, st.takeProgress k.session p)
      | none => (.flag false, st)
    | none => (.flag false, st)
  | .advance ms => (.nothing, st.pass ms)
  | .close client => (.nothing, st.closeClient (st.sessionNamed client))
  | .deafen client | .drop client =>
    (.nothing, { st with hub := st.hub.deafen (st.sessionNamed client) })
  | .look client =>
    match (st.client? client).bind fun k => (st.hub.session? k.session).map (·, k) with
    | some (s, k) => (.session s (k.connection.map (·.link.closed)), st)
    | none => (.nothing, st)

/-- Does a step, lets some time pass, and reports. Without a time nothing else happens before the
next step. -/
def report (st : Stage) (step : StageStep) (settle : Option Nat) : StageReport × Stage :=
  let (result, st) := { st with seen := {} }.act step
  let st := settle.elim st st.pass
  ({ result, listeners := st.hub.bus.count, seen := st.seen }, st)

/-- Does steps, each followed by some time. -/
def reports : Stage → List (StageStep × Option Nat) → List StageReport
  | _, [] => []
  | st, (step, settle) :: rest =>
    let (r, st) := st.report step settle
    r :: reports st rest

end Stage

/-- A step of a client that is served over a stream. -/
inductive StreamStep where
  | send (bytes : Bytes)
  | shutdown

/-- A client that is served over a stream. -/
structure ServedStream where
  stage : Stage
  session : SessionId
  splitter : LineSplitter := {}
  /-- Whether the serving has ended. -/
  done : Bool := false

/-- What is reported of a step: the lines that have come back. -/
structure StreamReport where
  lines : List String
  done : Bool
  listeners : Nat

namespace ServedStream

/-- Begins to serve a client. -/
def start (st : Stage) (peer : String) : ServedStream :=
  let id := st.hub.nextSession
  { stage := st.openClient "" (some peer) false, session := id }

/-- The serving ends. -/
def stop (s : ServedStream) : ServedStream :=
  if s.done then s else { s with stage := s.stage.closeClient s.session, done := true }

/-- Answers an item of the stream; bytes that are no text end the serving. -/
def serveItem (s : ServedStream) (item : LineItem) : ServedStream :=
  if s.done then s
  else
    match item with
    | .line text =>
      match s.stage.handleLine s.session text with
      | (some reply, st) =>
        { s with stage := { st with
            seen := { st.seen with outbound := st.seen.outbound ++ [(s.session, reply)] } } }
      | (none, st) => { s with stage := st }
    | _ => s.stop

/-- Does what a step says. What is sent after the serving has ended is lost. -/
def act (s : ServedStream) : StreamStep → ServedStream
  | .send bytes =>
    let (items, splitter) := s.splitter.feed bytes
    items.foldl serveItem { s with splitter }
  | .shutdown => (s.splitter.finish.foldl serveItem s).stop

/-- Does a step, lets some time pass, and reports. -/
def report (settle : Nat) (s : ServedStream) (step : StreamStep) : StreamReport × ServedStream :=
  let s := { s with stage := { s.stage with seen := {} } }.act step
  let s := { s with stage := s.stage.pass settle }
  ({ lines := s.stage.seen.outbound.map (·.2), done := s.done,
     listeners := s.stage.hub.bus.count }, s)

/-- Does steps, each followed by some time. -/
def reports (settle : Nat) : ServedStream → List StreamStep → List StreamReport
  | _, [] => []
  | s, step :: rest =>
    let (r, s) := s.report settle step
    r :: reports settle s rest

end ServedStream
end SilentScan
