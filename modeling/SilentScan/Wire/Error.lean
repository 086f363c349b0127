/-
What can go wrong between the server, its clients, the full node and the other server.

* `TransportError`: failures of a connection to the other server;
* `ChainError`: failures of the full node;
* `RpcError`, with `code` and `message`: what a client is told.
-/
import SilentScan.Wire.Frame

namespace SilentScan

/-- A failure of a connection that carries lines. -/
inductive TransportError where
  | closed
  /-- No response came within so many milliseconds. -/
  | timeout (ms : Nat)
  | notReady
  | io (cause : String)
  | malformed (cause : String)
deriving DecidableEq, Repr

/-- The wording of a transport error. -/
def TransportError.message : TransportError → String
  | .closed => "transport closed"
  | .timeout ms => "no response within " ++ toString ms ++ " ms"
  | .notReady => "reader task did not start"
  | .io cause => "I/O error: " ++ cause
  | .malformed cause => "malformed frame: " ++ cause

/-- A failure of the full node. -/
inductive ChainError where
  /-- The block or transaction asked for does not exist. -/
  | notFound (message : String)
  /-- The node does not relay the transaction. -/
  | broadcastFailed (message : String)
  /-- The node cannot be reached, or answers nonsense. -/
  | io (cause : String)
  /-- The node answers with an error. -/
  | rpc (code : Int) (message : String)
deriving DecidableEq, Repr

namespace ChainError

/-- The wording of a chain error. -/
def message : ChainError → String
  | .notFound m => m
  | .broadcastFailed m => m
  | .io cause => "node I/O error: " ++ cause
  | .rpc code m => "node error " ++ toString code ++ ": " ++ m

/-- An error answered by the node where it means that something does not exist. -/
def orNotFound : ChainError → ChainError
  | .rpc _ m => .notFound m
  | e => e

/-- An error answered by the node where it means that a transaction is refused. -/
def orRejected : ChainError → ChainError
  | .rpc _ m => .broadcastFailed m
  | e => e

end ChainError

/-- An error that a client is told of. -/
inductive RpcError where
  | versionNotNegotiated
  | unsupportedVersion (version : String)
  | invalidParams (cause : String)
  | methodNotFound (method : String)
  | parse (cause : String)
  | notConfigured (what : String)
  | notFound (message : String)
  | broadcastFailed (message : String)
  | backendIo (cause : String)
  | transport (e : TransportError)
  /-- An error that the other server answered, passed on as it is. -/
  | backend (code : Int) (message : String)
deriving DecidableEq, Repr

namespace RpcError

/-- The number of an error. -/
def code : RpcError → Int
  | .versionNotNegotiated => -1
  | .unsupportedVersion _ => 1
  | .invalidParams _ => -32602
  | .methodNotFound _ => -32601
  | .parse _ => -32700
  | .notConfigured _ => -32603
  | .notFound _ => 2
  | .broadcastFailed _ => 3
  | .backendIo _ => 4
  | .transport _ => 5
  | .backend code _ => code

/-- The wording of an error. -/
def message : RpcError → String
  | .versionNotNegotiated => "server.version must be the first message"
  | .unsupportedVersion v => "unsupported protocol version: " ++ v
  | .invalidParams cause => "invalid params: " ++ cause
  | .methodNotFound m => "unknown method \"" ++ m ++ "\""
  | .parse cause => "parse error: " ++ cause
  | .notConfigured what => what ++ " requires a configured backend Electrum server"
  | .notFound m => m
  | .broadcastFailed m => m
  | .backendIo cause => "full node unavailable: " ++ cause
  | .transport e => "backend transport: " ++ e.message
  | .backend _ m => m

/-- What a client is told of a failure of the full node. -/
def ofChain : ChainError → RpcError
  | .notFound m => .notFound m
  | .broadcastFailed m => .broadcastFailed m
  | e => .backendIo e.message

/-- The error part of a response. -/
def toObject (e : RpcError) : ErrorObject :=
  { code := e.code, message := e.message }

end RpcError
end SilentScan
