/-
The best block of the chain.

* `BlockTip`, with `toJson` and `reader`: the height of the block with its header, and the JSON
  form in which clients see it.
-/
import SilentScan.Json.Decode

namespace SilentScan

/-- The height and the serialized header, in hexadecimal, of the best block. -/
structure BlockTip where
  height : Nat
  hex : String
deriving DecidableEq, Repr, Inhabited

namespace BlockTip

/-- The tip as JSON; the declared order of the fields is the order of their keys. -/
def toJson (t : BlockTip) : Json :=
  .object [("height", .int t.height), ("hex", .string t.hex)]

/-- The fields met so far while a tip is read. -/
structure Partial where
  height : Option Nat := none
  hex : Option String := none

/-- Reads a tip. -/
def reader : RecordReader BlockTip where
  name := "BlockTip"
  Partial := Partial
  start := {}
  field p key depth d :=
    match key with
    | "height" => return { p with height := ← setOnce key p.height .u32 depth d }
    | "hex" => return { p with hex := ← setOnce key p.hex .string depth d }
    | _ => do Decoder.ignored depth d; return p
  finish p := do
    let height ← required "height" p.height
    let hex ← required "hex" p.hex
    return { height, hex }
  items depth items := do
    let record := "struct BlockTip with 2 elements"
    let (height, items) ← items.next .u32 depth record 0
    let (hex, items) ← items.next .string depth record 1
    return ({ height, hex }, items)

/-- Reads a tip from a draft. -/
def decoder : Source → Decoder BlockTip :=
  reader.decoder

end BlockTip
end SilentScan
