/-
The sessions together.

All sessions listen on one bus, and the scans that they ask for run side by side. A hub holds
the bus, the sessions and the scans under way. What happens to one of them is a change of the
hub; the events that this gives rise to are published on the bus at once.

* `Hub`, with `HubEffect`: the state and what a change of it gives rise to;
* `Hub.publish`: tells all listeners of an event, in order;
* `Hub.dispatch`, `Hub.scanStep`: the scans;
* `Hub.openSession`, `Hub.closeSession`: sessions come and go.
-/
import SilentScan.Event.Bus
import SilentScan.Session.Basic

namespace SilentScan

/-- A registration on the bus. -/
inductive Ear where
  | session (id : SessionId)
  /-- The second listener of a session. -/
  | reorg (id : SessionId)
  /-- Someone who only takes note of the events. -/
  | observer
deriving DecidableEq, Repr

/-- The bus, the sessions and the scans under way. -/
structure Hub where
  bus : Bus Ear := {}
  sessions : List (SessionId × Session) := []
  scans : List (Nat × ScanRun Double) := []
  nextSession : SessionId := 0
  nextScan : Nat := 0

/-- What a change of the hub gives rise to. -/
inductive HubEffect where
  /-- A line is queued for the client of a session because of an event. -/
  | push (session : SessionId) (cause : Event) (line : String)
  | observed (e : Event)
  /-- A scan waits to begin. -/
  | started (scan : Nat)
  /-- A scan has begun: the store is to look for its query. -/
  | query (scan : Nat) (q : ScanQuery)
  | cancelled (scan : Nat)
  | record (r : LogRecord)

namespace Hub

/-- A session. -/
def session? (h : Hub) (id : SessionId) : Option Session :=
  h.sessions.lookup id

/-- Puts a session in place of the one with its id. -/
def putSession (h : Hub) (s : Session) : Hub :=
  { h with sessions := h.sessions.map fun (id, t) => (id, if id = s.id then s else t) }

/-- Whether a scan is still wanted by the session that asked for it. -/
def wants (h : Hub) (r : ScanRequest) : Bool :=
  (h.session? r.owner).any (·.isLive r.address.address)

/-- Starts a scan. -/
def dispatch (settings : ScanSettings) (h : Hub) (r : ScanRequest) : Hub × List HubEffect :=
  ({ h with scans := h.scans ++ [(h.nextScan, .new settings r)], nextScan := h.nextScan + 1 },
    [.started h.nextScan])

/-- Starts scans. -/
def dispatchAll (settings : ScanSettings) : Hub → List ScanRequest → Hub × List HubEffect
  | h, [] => (h, [])
  | h, r :: rest =>
    let (h, effects) := dispatch settings h r
    let (h, more) := dispatchAll settings h rest
    (h, effects ++ more)

/-- The lines and the scans that a session asks for, scans last. -/
def carryOut (settings : ScanSettings) (h : Hub) (id : SessionId) (cause : Event)
    (effects : List SessionEffect) : Hub × List HubEffect :=
  let pushes := effects.filterMap fun
    | .push line => some (.push id cause line)
    | .scan _ => none
  let requests := effects.filterMap fun
    | .scan r => some r
    | .push _ => none
  let (h, started) := dispatchAll settings h requests
  (h, pushes ++ started)

/-- Tells one listener of an event. -/
def tell (settings : ScanSettings) (h : Hub) (e : Event) : Ear → Hub × List HubEffect
  | .session id =>
    match h.session? id with
    | some s =>
      let (s, effects) := s.onEvent e
      carryOut settings (h.putSession s) id e effects
    | none => (h, [])
  | .reorg id =>
    match h.session? id with
    | some s => (h.putSession (s.onReorg e), [])
    | none => (h, [])
  | .observer => (h, [.observed e])

/-- Tells several listeners of an event. -/
def tellAll (settings : ScanSettings) (e : Event) : Hub → List Ear → Hub × List HubEffect
  | h, [] => (h, [])
  | h, ear :: rest =>
    let (h, effects) := tell settings h e ear
    let (h, more) := tellAll settings e h rest
    (h, effects ++ more)

/-- Tells everybody who is registered now of an event. -/
def publish (settings : ScanSettings) (h : Hub) (e : Event) : Hub × List HubEffect :=
  tellAll settings e h (h.bus.recipients.map (·.2))

/-- Publishes events one after another. -/
def publishAll (settings : ScanSettings) : Hub → List Event → Hub × List HubEffect
  | h, [] => (h, [])
  | h, e :: rest =>
    let (h, effects) := publish settings h e
    let (h, more) := publishAll settings h rest
    (h, effects ++ more)

/-- What the effects of a scan are for the hub; its pages are published. -/
def scanEffects (settings : ScanSettings) (scan : Nat) :
    Hub → List (ScanEffect Double) → Hub × List HubEffect
  | h, [] => (h, [])
  | h, effect :: rest =>
    let (h, effects) := match effect with
      | .page p => publish settings h (.scanPage p)
      | .query q => (h, [.query scan q])
      | .cancelStore => (h, [.cancelled scan])
      | .record r => (h, [.record r])
    let (h, more) := scanEffects settings scan h rest
    (h, effects ++ more)

/-- A scan. -/
def scan? (h : Hub) (scan : Nat) : Option (ScanRun Double) :=
  h.scans.lookup scan

/-- Puts a scan in its place. -/
def putScan (h : Hub) (scan : Nat) (run : ScanRun Double) : Hub :=
  { h with scans := h.scans.map fun (k, r) => (k, if k = scan then run else r) }

/-- Something happens to a scan. Whether the scan is wanted is found out where it has to be. -/
def scanStep (s : Scheme) (settings : ScanSettings) (h : Hub) (scan : Nat)
    (input : (alive : Bool) → ScanInput) : Hub × List HubEffect :=
  match h.scan? scan with
  | some run =>
    let (run, effects) := run.step s settings.batchSize (input (h.wants run.request))
    scanEffects settings scan (h.putScan scan run) effects
  | none => (h, [])

/-- A client comes: its session is registered on the bus with both its listeners. -/
def openSession (h : Hub) (peer : Option String) (linked : Bool) :
    SessionId × Hub × List HubEffect :=
  let id := h.nextSession
  let (first, bus) := h.bus.register (.session id)
  let (second, bus) := bus.register (.reorg id)
  let s : Session := { id, peer, linked, listeners := [first, second] }
  (id, { h with bus, sessions := h.sessions ++ [(id, s)], nextSession := id + 1 },
    [.record (connectionRecord "connected" (toString id) peer)])

/-- Removes registrations. -/
def unregisterAll (bus : Bus Ear) (ids : List Nat) : Bus Ear :=
  ids.foldl (fun bus id => (bus.unregister id).2) bus

/-- A client goes. -/
def closeSession (h : Hub) (id : SessionId) : Hub × List HubEffect :=
  match h.session? id with
  | some s =>
    if s.connected then
      let (closed, ids) := s.close
      ({ h.putSession closed with bus := unregisterAll h.bus ids },
        [.record (connectionRecord "disconnected" (toString id) s.peer)])
    else (h, [])
  | none => (h, [])

/-- Nobody takes the lines for a client any more. -/
def deafen (h : Hub) (id : SessionId) : Hub :=
  match h.session? id with
  | some s => h.putSession { s with receiving := false }
  | none => h

/-- Someone listens who only takes note of the events. -/
def observe (h : Hub) : Hub :=
  { h with bus := (h.bus.register .observer).2 }

end Hub
end SilentScan
