/-
A client's session.

A session belongs to one client. It listens on the bus and turns events into notifications for
its client and into scans that keep the client's subscriptions current. A second listener of the
session sets its marks back when blocks are disconnected.

* `Session`, with `isConnected` and `isLive`: the session;
* `Session.onEvent`: the first listener;
* `Session.onReorg`: the second listener;
* `Session.close`: the end of the session.
-/
import SilentScan.Protocol.Version
import SilentScan.Scan.Engine
import SilentScan.Session.Registry

namespace SilentScan

/-- The methods under which clients are notified. -/
def headersMethod : String := "blockchain.headers.subscribe"

/-- The method of script hash notifications. -/
def scriptHashMethod : String := "blockchain.scripthash.subscribe"

/-- The method of notifications about an address. -/
def silentPaymentsMethod : String := "blockchain.silentpayments.subscribe"

/-- The session of a client. -/
structure Session where
  id : SessionId
  peer : Option String := none
  registry : Registry := {}
  /-- Set until the session is closed. -/
  connected : Bool := true
  /-- Whether lines for the client still find a receiver. -/
  receiving : Bool := true
  /-- The version settled on, once there is one. -/
  version : Option ProtocolVersion := none
  /-- Whether the session has a link to the other server. -/
  linked : Bool := false
  /-- The registrations on the bus. -/
  listeners : List Nat := []

/-- What a session does about an event. -/
inductive SessionEffect where
  /-- A line is queued for the client. -/
  | push (line : String)
  /-- A scan is started on behalf of the session. -/
  | scan (request : ScanRequest)

namespace Session

/-- Whether the session is open and its client is there. -/
def isConnected (s : Session) : Bool :=
  s.connected && s.receiving

/-- Whether a scan for an address is still wanted. -/
def isLive (s : Session) (key : String) : Bool :=
  s.isConnected && s.registry.watches key

/-- Queues a notification, if the client is there. -/
def notify (s : Session) (method : String) (params : Json) : List SessionEffect :=
  if s.receiving then [.push (Notification.line { method, params })] else []

/-- A scan of a subscription over some heights. -/
def rescan (s : Session) (start stop : Option Int) (sub : Subscription) : SessionEffect :=
  .scan { owner := s.id, address := sub.address, labels := sub.labels, startHeight := start,
          endHeight := stop }

/-- The parameters that tell a client of a page. -/
def pageParams (p : ScanPage Double) : Json :=
  .array [p.subscription.toJson, .number (.float p.progress),
    .array (p.history.map TxEntry.toJson)]

/-- Takes note of a page of one of the session's own scans, if the address is still watched, and
passes it on. -/
def onPage (s : Session) (p : ScanPage Double) : Session × List SessionEffect :=
  if p.owner = s.id ∧ s.isLive p.subscription.address then
    let s := { s with registry := (s.registry.deliver p.subscription.address p.history).2 }
    (s, s.notify silentPaymentsMethod (pageParams p))
  else (s, [])

/-- What the session does when it is told of an event. New blocks are scanned for every address
to which nothing from them has been delivered; new unconfirmed transactions for every address. -/
def onEvent (s : Session) : Event → Session × List SessionEffect
  | .newTip tip =>
    (s, if s.registry.headers then s.notify headersMethod (.array [tip.toJson]) else [])
  | .scriptHashStatus hash status =>
    (s, if s.registry.watchesHash hash then
        s.notify scriptHashMethod (.array [.string hash, .ofText? status]) else [])
  | .scanPage p => s.onPage p
  | .blocksIndexed fromHeight toHeight _ =>
    (s, ((s.registry.subscriptions.map (·.2)).filter (·.highest < fromHeight)).map
      (s.rescan (some fromHeight) (some toHeight)))
  | .mempoolAdded _ => (s, s.registry.subscriptions.map fun (_, sub) => s.rescan none (some 0) sub)
  | .mempoolRemoved txids => ({ s with registry := s.registry.evict txids }, [])
  | .reorg _ => (s, [])

/-- What the second listener does: after a reorganisation every address starts again below the
first height that was disconnected. -/
def onReorg (s : Session) : Event → Session
  | .reorg startHeight => { s with registry := (s.registry.rewind startHeight).2 }
  | _ => s

/-- Ends the session: it wants no scan any more, watches nothing, and gives up its
registrations. A session that has ended stays as it is. -/
def close (s : Session) : Session × List Nat :=
  if s.connected then
    ({ s with connected := false, listeners := [], registry := s.registry.clear }, s.listeners)
  else (s, [])

/-- A text that may be missing, as shown among the fields of a record. -/
def shownText : Option String → String
  | none => "None"
  | some t => "Some(" ++ Text.quoteString t ++ ")"

/-- The session as shown to the operator; `shownId` is how its id is shown. -/
def debug (s : Session) (shownId : String) : String :=
  "ConnectionSession \x7b id: " ++ shownId ++ ", peer: " ++ shownText s.peer ++ ", connected: "
    ++ (if s.isConnected then "true" else "false") ++ ", .. \x7d"

end Session
end SilentScan
