/-
Events.

The index, the scans, the full node and the other server tell the sessions what happened. What
they tell is an event.

* `SubscriptionKey`, `ScanPage`: a part of the results of a scan, and whose it is;
* `Event`, with `Event.description`: the events.
-/
import SilentScan.Chain.Tip
import SilentScan.Chain.Txid
import SilentScan.Payment.Entry
import SilentScan.Payment.Labels

namespace SilentScan

/-- Identifies a session; no two sessions have the same. -/
abbrev SessionId := Nat

/-- The subscription that results belong to, as it is shown to clients. -/
structure SubscriptionKey where
  address : String
  labels : LabelSet
  startHeight : Option Int
deriving DecidableEq, Repr

namespace SubscriptionKey

/-- The fields in declared order, which is also that of their keys; a start that is not given is
left out. -/
def toJson (k : SubscriptionKey) : Json :=
  .object ([("address", .string k.address), ("labels", k.labels.toJson)]
    ++ (match k.startHeight with
        | some h => [("start_height", .int h)]
        | none => []))

end SubscriptionKey

/-- A page of the results of a scan, with the part of the scan that is done as a number of type
`Q`. -/
structure ScanPage (Q : Type) where
  owner : SessionId
  subscription : SubscriptionKey
  progress : Q
  history : List TxEntry
deriving DecidableEq, Repr

/-- The highest height among the entries of a page. -/
def ScanPage.maxHeight {Q : Type} (p : ScanPage Q) : Option Int :=
  (p.history.map (·.height)).max?

/-- What listeners are told. -/
inductive Event where
  /-- The full node has a new best block. -/
  | newTip (tip : BlockTip)
  /-- The other server reported the status of a script hash. -/
  | scriptHashStatus (scriptHash : String) (status : Option String)
  /-- A scan has found something or come further. -/
  | scanPage (page : ScanPage Double)
  /-- Confirmed transactions were added to the index. -/
  | blocksIndexed (fromHeight toHeight : Int) (count : Nat)
  /-- Unconfirmed transactions were added to the index. -/
  | mempoolAdded (txids : List Txid)
  /-- Transactions were dropped from the index. -/
  | mempoolRemoved (txids : List Txid)
  /-- The blocks from a height upward were disconnected. -/
  | reorg (startHeight : Int)
deriving DecidableEq, Repr

namespace Event

/-- A short text for the operator. -/
def description : Event → String
  | .newTip t => "NewBlockTip(height=" ++ toString t.height ++ ")"
  | .scriptHashStatus h _ => "ScriptHashStatusChanged(" ++ h ++ ")"
  | .scanPage p =>
    "SilentPaymentsScanProgress(progress=" ++ p.progress.fixed 3 ++ ", entries="
      ++ toString p.history.length ++ ")"
  | .blocksIndexed lo hi n =>
    "IndexBlocksUpdated(from=" ++ toString lo ++ ", to=" ++ toString hi ++ ", count="
      ++ toString n ++ ")"
  | .mempoolAdded ids => "IndexMempoolAdded(" ++ toString ids.length ++ ")"
  | .mempoolRemoved ids => "IndexMempoolRemoved(" ++ toString ids.length ++ ")"
  | .reorg h => "ChainReorg(start=" ++ toString h ++ ")"

end Event
end SilentScan
