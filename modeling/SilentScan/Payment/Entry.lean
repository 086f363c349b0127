/-
Entries of a wallet's history.

An entry names a transaction that pays the wallet. Its height is that of the block; a height of
zero or below says that the transaction is not in a block yet.

* `TxEntry`, with `toJson` and `reader`: the entry and its JSON form, in which a position of zero
  and a missing output index are left out.
-/
import SilentScan.Json.Decode

namespace SilentScan

/-- One transaction, or one output of it, that pays a wallet. -/
structure TxEntry where
  height : Int
  /-- The place in the block; zero where the index does not record it. -/
  position : Nat := 0
  txHash : String
  /-- The compressed tweak point in hexadecimal. -/
  tweakKey : String
  /-- The paid output, given only by an index of single outputs. -/
  outputIndex : Option Nat := none
deriving DecidableEq, Repr, Inhabited

namespace TxEntry

/-- Whether the transaction is outside the chain so far. -/
def isUnconfirmed (e : TxEntry) : Bool :=
  e.height ≤ 0

/-- The fields of the JSON form, in the order in which a record is written. -/
def fields (e : TxEntry) : List (String × Json) :=
  [("height", .int e.height)]
    ++ (if e.position = 0 then [] else [("position", .int e.position)])
    ++ [("tx_hash", .string e.txHash), ("tweak_key", .string e.tweakKey)]
    ++ (match e.outputIndex with
        | some i => [("output_index", .int i)]
        | none => [])

/-- The entry as written on its own, its fields in their declared order. -/
def toRecord (e : TxEntry) : Json :=
  .object e.fields

/-- The entry as a JSON value. -/
def toJson (e : TxEntry) : Json :=
  .ofFields e.fields

/-- The fields met so far while an entry is read. -/
structure Partial where
  height : Option Int := none
  position : Option Nat := none
  txHash : Option String := none
  tweakKey : Option String := none
  outputIndex : Option (Option Nat) := none

/-- Reads an entry. -/
def reader : RecordReader TxEntry where
  name := "TxEntry"
  Partial := Partial
  start := {}
  field p key depth d :=
    match key with
    | "height" => return { p with height := ← setOnce key p.height .i32 depth d }
    | "position" => return { p with position := ← setOnce key p.position .u32 depth d }
    | "tx_hash" => return { p with txHash := ← setOnce key p.txHash .string depth d }
    | "tweak_key" => return { p with tweakKey := ← setOnce key p.tweakKey .string depth d }
    | "output_index" =>
      return { p with outputIndex := ← setOnce key p.outputIndex (.optional .u32) depth d }
    | _ => do Decoder.ignored depth d; return p
  finish p := do
    let height ← required "height" p.height
    let txHash ← required "tx_hash" p.txHash
    let tweakKey ← required "tweak_key" p.tweakKey
    return { height, position := p.position.getD 0, txHash, tweakKey,
             outputIndex := p.outputIndex.getD none }
  items depth items := do
    let record := "struct TxEntry with 5 elements"
    let (height, items) ← items.next .i32 depth record 0
    let (position, items) ← items.next? .u32 depth
    let (txHash, items) ← items.next .string depth record 2
    let (tweakKey, items) ← items.next .string depth record 3
    let (outputIndex, items) ← items.next? (.optional .u32) depth
    return ({ height, position := position.getD 0, txHash, tweakKey,
              outputIndex := outputIndex.getD none }, items)

/-- Reads an entry from a draft. -/
def decoder : Source → Decoder TxEntry :=
  reader.decoder

end TxEntry
end SilentScan
