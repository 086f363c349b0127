/-
The whole server on a stage.

The server plays with scripted partners: a full node that answers by a script, other servers that
do, and stores that either are an index or follow a script. Clients come, send lines and go, and
the clock moves only when nothing else can happen. What can be seen from outside is collected
step by step.

* `Stage`, `Sighting`: the server with its partners, and what is seen of it;
* `Stage.perform`, `Stage.runUntil`: what is due;
* `Stage.converse`, `Stage.handleLine`: carries on a dialogue for a session.
-/
import SilentScan.Index.Store
import SilentScan.Protocol.Forwarding
import SilentScan.Protocol.Methods
import SilentScan.Rehearsal.Agenda
import SilentScan.Rehearsal.Connection
import SilentScan.Rehearsal.StoreScript
import SilentScan.Session.Hub

namespace SilentScan

/-- What scans look at. -/
inductive ScanSource where
  | index (store : Store)
  | script (moves : List StoreMove)

/-- A scripted full node: the answer to a question when so many of its kind have been asked
before. -/
abbrev NodeScript := (q : NodeQuery) → (before : Nat) → Except ChainError q.Answer

/-- What is due on the stage. -/
inductive StageTask where
  | beginScan (scan : Nat)
  /-- The store is asked. -/
  | askStore (scan : Nat) (q : ScanQuery)
  /-- The store goes on. -/
  | runStore (scan : Nat) (run : StoreRun)
  | tick (scan : Nat)
  | finishScan (scan : Nat) (outcome : ScanOutcome)
  | connection (session : SessionId) (task : ConnectionTask)

/-- A client, with the link of its session to the other server. -/
structure StageClient where
  name : String
  session : SessionId
  connection : Option Connection := none

/-- What is seen from outside. -/
structure Sighting where
  records : List LogRecord := []
  /-- Notifications, each with the session and the event that caused it. -/
  pushed : List (SessionId × Event × String) := []
  /-- All lines for clients, replies included. -/
  outbound : List (SessionId × String) := []
  events : List Event := []
  /-- What the full node was asked. -/
  asked : List NodeQuery := []
  /-- What the store was asked. -/
  queries : List ScanQuery := []
  /-- The requests that the other servers have read. -/
  heard : List (SessionId × String) := []

/-- The server with its partners. -/
structure Stage where
  setting : ServiceSetting
  scanning : ScanSettings
  timing : LinkTiming
  node : NodeScript
  peerScript : String → Json → List PeerMove
  source : ScanSource
  agenda : Agenda StageTask := {}
  hub : Hub := {}
  clients : List StageClient := []
  /-- When the scans have begun. -/
  began : List (Nat × Nat) := []
  /-- What the full node has been asked so far. -/
  questions : List NodeQuery := []
  callers : Nat := 0
  /-- The results for callers of links that have not been taken yet. -/
  finished : List (Nat × Except TransportError Response) := []
  seen : Sighting := {}

namespace Stage

/-- Enters a task. -/
def later (st : Stage) (delay : Nat) (task : StageTask) : Stage :=
  { st with agenda := st.agenda.add delay task }

/-- Takes note of an effect of the hub. -/
def note (st : Stage) : HubEffect → Stage
  | .push id cause line =>
    { st with seen := { st.seen with pushed := st.seen.pushed ++ [(id, cause, line)]
                                     outbound := st.seen.outbound ++ [(id, line)] } }
  | .observed e => { st with seen := { st.seen with events := st.seen.events ++ [e] } }
  | .started scan => st.later 0 (.beginScan scan)
  | .query scan q => (st.later 0 (.askStore scan q)).later st.scanning.interval (.tick scan)
  | .cancelled _ => st
  | .record r => { st with seen := { st.seen with records := st.seen.records ++ [r] } }

/-- Takes over a hub with its effects. -/
def take (st : Stage) (r : Hub × List HubEffect) : Stage :=
  r.2.foldl note { st with hub := r.1 }

/-- Something happens to a scan. -/
def scanStep (st : Stage) (scan : Nat) (input : Bool → ScanInput) : Stage :=
  st.take (st.hub.scanStep st.setting.scheme st.scanning scan input)

/-- Whether a scan is running. -/
def isRunning (st : Stage) (scan : Nat) : Bool :=
  (st.hub.scan? scan).any (·.phase = .running)

/-- Publishes the final pages of a scan that has ended. -/
def settleScan (st : Stage) (scan : Nat) : Stage :=
  if st.isRunning scan then st else st.scanStep scan .conclude

/-- The moves of the store for a query. -/
def movesFor (st : Stage) (q : ScanQuery) : List StoreMove :=
  match st.source with
  | .index store => (store.scan st.setting.scheme q (fun _ => false) (fun _ => true)).moves
  | .script moves => moves

/-- The store goes on for a scan that is running. -/
def playStore (st : Stage) (scan : Nat) (run : StoreRun) : Stage :=
  if st.isRunning scan then
    let (inputs, pause) := run.play
    let st := inputs.foldl (fun st i => st.scanStep scan fun _ => i) st
    match pause with
    | .asleep ms run => st.later ms (.runStore scan run)
    | .ended outcome => st.later 0 (.finishScan scan outcome)
  else st

/-- The client of a session. -/
def clientOf? (st : Stage) (id : SessionId) : Option StageClient :=
  st.clients.find? (·.session = id)

/-- Puts the link of a session in its place. -/
def putConnection (st : Stage) (id : SessionId) (c : Connection) : Stage :=
  { st with clients := st.clients.map fun k =>
      if k.session = id then { k with connection := some c } else k }

/-- Takes note of news of a link. Notifications that stand for an event are published. -/
def hear (id : SessionId) (st : Stage) : ConnectionNews → Stage
  | .finished caller result => { st with finished := st.finished ++ [(caller, result)] }
  | .heard line => { st with seen := { st.seen with heard := st.seen.heard ++ [(id, line)] } }
  | .notified n =>
    match Event.ofNotification? n with
    | some e => st.take (st.hub.publish st.scanning e)
    | none => st

/-- Takes over what a link has done. -/
def takeProgress (st : Stage) (id : SessionId) (p : Connection.Progress) : Stage :=
  let st := st.putConnection id p.connection
  let due := p.later.map fun (ms, task) => (ms, StageTask.connection id task)
  let st := { st with agenda := st.agenda.addAll due }
  p.news.foldl (hear id) st

/-- Carries out a task. -/
def perform (st : Stage) : StageTask → Stage
  | .beginScan scan =>
    let st := { st with began := (scan, st.agenda.now) :: st.began }
    (st.scanStep scan .begin).settleScan scan
  | .askStore scan q =>
    let st := { st with seen := { st.seen with queries := st.seen.queries ++ [q] } }
    st.playStore scan { moves := st.movesFor q }
  | .runStore scan run => st.playStore scan run
  | .tick scan =>
    if st.isRunning scan then
      ((st.scanStep scan .tick).settleScan scan).later st.scanning.interval (.tick scan)
    else st
  | .finishScan scan outcome =>
    if st.isRunning scan then
      let elapsed := st.agenda.now - (st.began.lookup scan).getD 0
      (st.scanStep scan fun _ => .finish outcome elapsed).settleScan scan
    else st
  | .connection id task =>
    match (st.clientOf? id).bind (·.connection) with
    | some c => st.takeProgress id (c.perform task)
    | none => st

/-- The greatest number of tasks carried out in a step. -/
def maxRounds : Nat := 1000000

/-- Carries out what is due up to a time. -/
def runUntil (time : Nat) : (rounds : Nat) → Stage → Stage
  | 0, st => st
  | rounds + 1, st =>
    match st.agenda.next? time with
    | some (task, agenda) =>
      let st := { st with agenda }
      runUntil time rounds (st.perform task)
    | none => { st with agenda := st.agenda.advanceTo time }

/-- Lets time pass. -/
def pass (st : Stage) (ms : Nat) : Stage :=
  runUntil (st.agenda.now + ms) maxRounds st

/-- Carries out tasks until a caller of a link has its result. -/
def awaitCaller (caller : Nat) : (rounds : Nat) → Stage → Except TransportError Response × Stage
  | 0, st => (.error .closed, st)
  | rounds + 1, st =>
    match st.finished.lookup caller with
    | some result => (result, { st with finished := st.finished.filter (·.1 != caller) })
    | none =>
      match st.agenda.tasks with
      | (due, task) :: rest =>
        let st := { st with agenda := { now := max st.agenda.now due, tasks := rest } }
        awaitCaller caller rounds (st.perform task)
      | [] => (.error .closed, st)

/-- The answer to a question that a dialogue of a session asks. The full node answers at once, and
time passes until the other server does. -/
def reply (st : Stage) (id : SessionId) : (q : Question) → q.Reply × Stage
  | .node q =>
    let before := st.questions.countP (·.ctorIdx == q.ctorIdx)
    let seen := { st.seen with asked := st.seen.asked ++ [q] }
    (st.node q before, { st with questions := st.questions ++ [q], seen })
  | .forward method params =>
    match (st.clientOf? id).bind (·.connection) with
    | some c =>
      let caller := st.callers
      let st := { st with callers := caller + 1 }
      let st := st.takeProgress id (c.call { caller, method, params })
      let (result, st) := awaitCaller caller maxRounds st
      (forwardReply result, st)
    | none => (.error (.transport .closed), st)

/-- Carries on a dialogue for a session up to its end. -/
def converse {α : Type} (id : SessionId) : Stage → Dialogue α → Option α × Stage
  | st, .done a => (some a, st)
  | st, .ask q next =>
    let (r, st) := st.reply id q
    converse id st (next r)
  | st, .move m next =>
    match st.hub.session? id with
    | some s =>
      let (r, s, requests) := m.perform s
      converse id (st.take ((st.hub.putSession s).dispatchAll st.scanning requests)) (next r)
    | none => (none, st)

/-- The reply to a line of a client. -/
def handleLine (st : Stage) (id : SessionId) (line : String) : Option String × Stage :=
  let (reply, st) := converse id st (SilentScan.handleLine st.setting line)
  (reply.join, st)

end Stage
end SilentScan
