/-
What the other server says.

* `forwardReply`: what its response to a call means for the client;
* `Event.ofNotification?`: what its notifications tell the sessions.
-/
import SilentScan.Session.Basic

namespace SilentScan

/-- The answer to a call that the other server was to answer: its result, or its error as it
is. -/
def forwardReply : Except TransportError Response → Except RpcError Json
  | .error e => .error (.transport e)
  | .ok r =>
    match r.error with
    | some e => .error (.backend e.code e.message)
    | none => .ok r.result

/-- The event that a notification of the other server stands for. Only the statuses of script
hashes count: the best block is learnt from the full node. -/
def Event.ofNotification? (n : Notification) : Option Event :=
  if n.method = scriptHashMethod then
    match n.params with
    | .array (.string hash :: rest) =>
      let status := match rest with
        | .string s :: _ => some s
        | _ => none
      some (.scriptHashStatus hash status)
    | _ => none
  else none

end SilentScan
