/-
What the index holds.

The index keeps, for every transaction that can pay a wallet, its tweak point and a prefix of
each Taproot output key. In the full layout a transaction is one row; in the layout of unspent
outputs each output of enough value is a row of its own.

* `IndexedTransaction`, `IndexRow`, `IndexedTransaction.rows`: transactions and their rows;
* `ScanQuery`, `RawMatch`: what a scan asks for, and what it finds;
* `ScanReport`: how a scan went;
* `StorageError`: what can go wrong.
-/
import SilentScan.Chain.Txid
import SilentScan.Curve.Encoding
import SilentScan.Text.Blank

namespace SilentScan

/-- What can go wrong in a store. -/
inductive StorageError where
  /-- The scan was cancelled. -/
  | cancelled
  | database (cause : String)
  | invalidData (cause : String)
  | connection (cause : String)
deriving DecidableEq, Repr

/-- The wording of a storage error. -/
def StorageError.message : StorageError → String
  | .cancelled => "scan cancelled"
  | .database cause => "Database error: " ++ cause
  | .invalidData cause => "Invalid data: " ++ cause
  | .connection cause => "Connection error: " ++ cause

/-- The layout of the index. -/
inductive IndexMode where
  /-- One row for each transaction. -/
  | full
  /-- One row for each unspent output of enough value. -/
  | utxoOnly
deriving DecidableEq, Repr, Inhabited

namespace IndexMode

/-- The name of a layout. -/
def text : IndexMode → String
  | .full => "full"
  | .utxoOnly => "utxo-only"

/-- The layout of a name in either case. -/
def parse (s : String) : Except StorageError IndexMode :=
  match Text.lower s with
  | "full" => .ok .full
  | "utxo" | "utxo-only" | "utxo_only" => .ok .utxoOnly
  | _ => .error (.invalidData ("unknown index mode: " ++ s))

end IndexMode

/-- The lowest height. -/
def heightMin : Int := -0x8000_0000

/-- The highest height. -/
def heightMax : Int := 0x7FFF_FFFF

/-- A Taproot output of a transaction. -/
structure TaprootOutput where
  index : Nat
  value : Nat
  /-- The x-only output key, 32 bytes. -/
  program : Bytes
deriving DecidableEq, Repr

/-- A transaction that can pay a wallet. A height of zero or below says that it is not in a block
yet. -/
structure IndexedTransaction where
  txid : Txid
  height : Int
  tweakKey : PublicKey
  outputs : List TaprootOutput
deriving DecidableEq, Repr

/-- A row of the index. -/
structure IndexRow where
  txid : Txid
  height : Int
  /-- The tweak point in raw form. -/
  tweakKey : Bytes
  /-- The prefixes of all outputs, or of the one output of the row. -/
  prefixes : List Nat
  outputIndex : Option Nat
deriving DecidableEq, Repr

/-- The rows of a transaction in a layout. -/
def IndexedTransaction.rows (mode : IndexMode) (minValue : Nat) (tx : IndexedTransaction) :
    List IndexRow :=
  match mode with
  | .full =>
    [{ txid := tx.txid, height := tx.height, tweakKey := toRawKey tx.tweakKey,
       prefixes := tx.outputs.map (xonlyPrefix ·.program), outputIndex := none }]
  | .utxoOnly =>
    (tx.outputs.filter (minValue ≤ ·.value)).map fun o =>
      { txid := tx.txid, height := tx.height, tweakKey := toRawKey tx.tweakKey,
        prefixes := [xonlyPrefix o.program], outputIndex := some o.index }

/-- An output of a transaction, by number. -/
structure OutPoint where
  txid : Txid
  vout : Nat
deriving DecidableEq, Repr

/-- The keys and the bounds of a scan. Points are in raw form. -/
structure ScanQuery where
  scanKey : Bytes
  spendKey : Bytes
  labelKeys : List Bytes
  startHeight : Option Int
  endHeight : Option Int
  batchSize : Option Nat
deriving DecidableEq, Repr

namespace ScanQuery

/-- The lowest height scanned. -/
def low (q : ScanQuery) : Int :=
  q.startHeight.getD heightMin

/-- The highest height scanned. -/
def high (q : ScanQuery) : Int :=
  q.endHeight.getD heightMax

/-- Whether a height is within the bounds, both included. -/
def inBounds (q : ScanQuery) (height : Int) : Bool :=
  q.low ≤ height && height ≤ q.high

/-- A height that may be missing, as shown among the fields of a record. -/
def shownHeight : Option Int → String
  | none => "None"
  | some h => "Some(" ++ toString h ++ ")"

/-- The query as shown to the operator; the keys stay hidden. -/
def debug (q : ScanQuery) : String :=
  "ScanQuery \x7b labels: " ++ toString q.labelKeys.length ++ ", start_height: "
    ++ shownHeight q.startHeight ++ ", end_height: " ++ shownHeight q.endHeight ++ ", .. \x7d"

end ScanQuery

/-- A row that a scan found. -/
structure RawMatch where
  txid : Txid
  tweakKey : Bytes
  height : Int
  outputIndex : Option Nat
deriving DecidableEq, Repr

/-- How a scan went: what it sent on, in order, how many of how many rows it looked at, and how
it ended. -/
structure ScanReport where
  sent : List RawMatch
  processed : Nat
  total : Nat
  result : Except StorageError Unit

end SilentScan
