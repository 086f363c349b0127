/-
What the server asks a full node.

* `NodeQuery`, with `Answer`: the questions and the types of their answers;
* `defaultFeeRate`: the fee rate where the node has no estimate.
-/
import SilentScan.Chain.Tip

namespace SilentScan

/-- A question to the full node. -/
inductive NodeQuery where
  /-- The best block. -/
  | tip
  /-- The serialized header of a block. -/
  | blockHeader (height : Nat)
  /-- The first block whose time is not before a timestamp. -/
  | heightForTimestamp (timestamp : Nat)
  /-- The fee rate at which a transaction gets into one of the next blocks. -/
  | estimateFee (blocks : Nat) (mode : Option String)
  /-- The fee rate below which transactions are not relayed. -/
  | relayFee
  /-- A transaction, in hexadecimal or taken apart. -/
  | transaction (txid : String) (verbose : Bool)
  /-- Relays a transaction and asks for its id. -/
  | broadcast (rawTx : String)
  /-- For how many seconds the node has been up. -/
  | uptime
deriving DecidableEq, Repr

/-- The type of the answer to a question. -/
abbrev NodeQuery.Answer : NodeQuery → Type
  | .tip => BlockTip
  | .blockHeader _ => String
  | .heightForTimestamp _ => Int
  | .estimateFee _ _ => Option Double
  | .relayFee => Double
  | .transaction _ _ => Json
  | .broadcast _ => String
  | .uptime => Nat

/-- The fee rate where the node has no estimate, in coins for a thousand bytes. -/
def defaultFeeRate : Double :=
  .ofRatio false 1 100000

end SilentScan
