/-
What a client is subscribed to.

A client may watch the best block, script hashes, and addresses. For an address the registry
keeps the labels, the highest height of an entry delivered so far, and the transactions delivered
that were not in a block.

* `Subscription`, with `recordDelivered`: one address;
* `Registry`, with `subscribe`, `unsubscribe`, `deliver`, `evict`, `rewind`, `clear`: all of it.
-/
import SilentScan.Event.Basic
import SilentScan.Payment.Address

namespace SilentScan

/-- An address that a client watches. -/
structure Subscription where
  address : ScanAddress
  labels : LabelSet
  /-- The highest height delivered, or the one below which a reorganisation has set it. -/
  highest : Int := 0
  /-- The unconfirmed transactions delivered, without repetitions. -/
  mempool : List Txid := []
deriving DecidableEq, Repr

namespace Subscription

/-- Adds an id to a list without repetitions. -/
def addTxid (ids : List Txid) (id : Txid) : List Txid :=
  if ids.contains id then ids else ids ++ [id]

/-- Takes note of entries delivered to the client. -/
def recordDelivered (s : Subscription) (history : List TxEntry) : Subscription :=
  let unconfirmed := (history.filter (·.isUnconfirmed)).filterMap (Txid.parse? ·.txHash)
  { s with
    highest := match (history.map (·.height)).max? with
      | some h => max s.highest h
      | none => s.highest
    mempool := unconfirmed.foldl addTxid s.mempool }

/-- Forgets unconfirmed transactions that were dropped. -/
def evict (s : Subscription) (txids : List Txid) : Subscription :=
  { s with mempool := s.mempool.filter fun id => !txids.contains id }

/-- Starts again below a height. -/
def resetHighest (s : Subscription) (height : Int) : Subscription :=
  { s with highest := height }

end Subscription

/-- All that one client is subscribed to; addresses are told apart by their text. -/
structure Registry where
  headers : Bool := false
  scriptHashes : List String := []
  subscriptions : List (String × Subscription) := []
deriving DecidableEq, Repr

namespace Registry

/-- Watches the best block or stops to. -/
def setHeaders (r : Registry) (on : Bool) : Registry :=
  { r with headers := on }

/-- Watches a script hash. -/
def subscribeHash (r : Registry) (hash : String) : Registry :=
  if r.scriptHashes.contains hash then r else { r with scriptHashes := r.scriptHashes ++ [hash] }

/-- Stops watching a script hash; tells whether it was watched. -/
def unsubscribeHash (r : Registry) (hash : String) : Bool × Registry :=
  (r.scriptHashes.contains hash, { r with scriptHashes := r.scriptHashes.filter (· != hash) })

/-- Whether a script hash is watched. -/
def watchesHash (r : Registry) (hash : String) : Bool :=
  r.scriptHashes.contains hash

/-- The subscription of an address. -/
def get? (r : Registry) (key : String) : Option Subscription :=
  r.subscriptions.lookup key

/-- Whether an address is watched. -/
def watches (r : Registry) (key : String) : Bool :=
  (r.get? key).isSome

/-- Puts a subscription in place of the one under its key, or behind all others. -/
def put (key : String) (s : Subscription) :
    List (String × Subscription) → List (String × Subscription)
  | [] => [(key, s)]
  | (k, t) :: rest => if k = key then (key, s) :: rest else (k, t) :: put key s rest

/-- Watches an address anew, with the labels that the client asks for. -/
def subscribe (r : Registry) (address : ScanAddress) (rawLabels : List (Option Int)) :
    Subscription × Registry :=
  let s : Subscription := { address, labels := .ofRaw rawLabels }
  (s, { r with subscriptions := put address.address s r.subscriptions })

/-- Stops watching an address; gives the subscription that was there. -/
def unsubscribe (r : Registry) (key : String) : Option Subscription × Registry :=
  (r.get? key, { r with subscriptions := r.subscriptions.filter (·.1 != key) })

/-- Changes the subscription under a key, if there is one. -/
def modify (r : Registry) (key : String) (f : Subscription → Subscription) : Registry :=
  { r with subscriptions := r.subscriptions.map fun (k, s) => (k, if k = key then f s else s) }

/-- Changes all subscriptions. -/
def modifyAll (r : Registry) (f : Subscription → Subscription) : Registry :=
  { r with subscriptions := r.subscriptions.map fun (k, s) => (k, f s) }

/-- Takes note of entries delivered for an address; tells whether it is watched. -/
def deliver (r : Registry) (key : String) (history : List TxEntry) : Bool × Registry :=
  (r.watches key, r.modify key (·.recordDelivered history))

/-- Forgets unconfirmed transactions that were dropped. -/
def evict (r : Registry) (txids : List Txid) : Registry :=
  r.modifyAll (·.evict txids)

/-- Sets the mark of one address; tells whether it is watched. -/
def resetHighest (r : Registry) (key : String) (height : Int) : Bool × Registry :=
  (r.watches key, r.modify key (·.resetHighest height))

/-- Every address starts again below the first height that was disconnected. Gives their
number. -/
def rewind (r : Registry) (startHeight : Int) : Nat × Registry :=
  (r.subscriptions.length, r.modifyAll (·.resetHighest (startHeight - 1)))

/-- Forgets everything. -/
def clear (_ : Registry) : Registry :=
  {}

end Registry
end SilentScan
