/-
The client of a full node.

Commands are numbered from one and posted to the address of the node, with a name and a password
if there is a name.

* `NodeClient`, with `new` and `request`: the client and its requests;
* `NodeClient.ask`: the answer to a question, where `post` exchanges a request for what comes
  back.
-/
import SilentScan.Bytes.Base64
import SilentScan.Chain.Inquiry

namespace SilentScan

/-- A client of a full node, with the number of its next command. -/
structure NodeClient where
  url : String
  user : Option String := none
  password : Option String := none
  nextId : Nat := 1
deriving Repr

/-- A request that is posted. -/
structure NodeRequest where
  url : String
  /-- The name and the password, in the form of the header that carries them. -/
  authorization : Option String
  body : String
deriving DecidableEq, Repr

/-- What comes back. -/
inductive NodeExchange where
  | failed (cause : String)
  | answered (status : Nat) (body : String)
deriving Repr

namespace NodeClient

/-- A client of the node at an address, of which slashes at the end are dropped. -/
def new (url : String) (user password : Option String) : NodeClient :=
  { url := String.ofList ((url.toList.reverse.dropWhile (· = '/')).reverse), user, password }

/-- The header that carries the name and the password. -/
def authorization (k : NodeClient) : Option String :=
  k.user.map fun user =>
    "Basic " ++ Base64.encode (Bytes.ofText (user ++ ":" ++ k.password.getD ""))

/-- The request for a command, and the client after it. -/
def request (k : NodeClient) (c : NodeCommand) : NodeRequest × NodeClient :=
  ({ url := k.url, authorization := k.authorization, body := c.body k.nextId },
    { k with nextId := k.nextId + 1 })

/-- The result of a command. -/
def perform {m : Type → Type} [Monad m] (post : NodeRequest → m NodeExchange) (c : NodeCommand) :
    ExceptT ChainError (StateT NodeClient m) c.Reply := do
  let (r, k) := (← get).request c
  set k
  match ← (post r : m NodeExchange) with
  | .failed cause => throw (.io cause)
  | .answered status body => MonadExcept.ofExcept (c.readReply status body)

/-- The answer to a question, and the client after it. -/
def ask {m : Type → Type} [Monad m] (post : NodeRequest → m NodeExchange) (k : NodeClient)
    (q : NodeQuery) : m (Except ChainError q.Answer × NodeClient) :=
  (q.inquiry.run (perform post)).run.run k

end NodeClient
end SilentScan
