/-
Text with a checksum, in the alphabet of 32 characters.

Bytes are cut into groups of five bits, the last one filled with zeros. Behind a human-readable
part and the separator `1` stand a version symbol, the groups and a checksum of six groups over
all of them.

* `encode`: the text of a payload;
* `verifies`: whether the checksum of symbols fits.
-/
import SilentScan.Bytes.Order

namespace SilentScan.Bech32

/-- The characters of the 32 symbols. -/
def alphabet : String := "qpzry9x8gf2tvdw0s3jn54khce6mua7l"

/-- The character of a symbol. -/
def symbolChar (s : Nat) : Char :=
  alphabet.toList.getD s 'q'

/-- The bits of a byte, the highest first. -/
def byteBits (b : UInt8) : List Bool :=
  (List.range 8).map fun i => b.toNat.testBit (7 - i)

/-- The number of a list of bits, the highest first. -/
def bitsNat (bits : List Bool) : Nat :=
  bits.foldl (fun n b => 2 * n + b.toNat) 0

/-- Cuts bits into groups of five; the last one is filled with zeros. -/
def groups : (fuel : Nat) → List Bool → List Nat
  | 0, _ => []
  | fuel + 1, bits =>
    if bits = [] then []
    else
      let g := bits.take 5
      bitsNat (g ++ List.replicate (5 - g.length) false) :: groups fuel (bits.drop 5)

/-- The symbols of a byte string. -/
def symbols (bs : Bytes) : List Nat :=
  let bits := bs.flatMap byteBits
  groups (bits.length + 1) bits

/-- The coefficients that the bits shifted out of the remainder select. -/
def generators : List Nat := [0x3b6a57b2, 0x26508e6d, 0x1ea119fa, 0x3d4233dd, 0x2a1462b3]

/-- Takes a symbol into the remainder. -/
def polymodStep (chk : Nat) (v : Nat) : Nat :=
  let top := chk >>> 25
  let chk := ((chk &&& 0x1ffffff) <<< 5) ^^^ v
  (generators.zipIdx).foldl (fun c (g, i) => if top.testBit i then c ^^^ g else c) chk

/-- The remainder of a list of symbols. -/
def polymod (vs : List Nat) : Nat :=
  vs.foldl polymodStep 1

/-- The symbols that stand for the human-readable part. -/
def expand (hrp : String) : List Nat :=
  hrp.toList.map (fun c => c.toNat / 32) ++ [0] ++ hrp.toList.map (fun c => c.toNat % 32)

/-- The remainder of a whole text, checksum included. -/
def target : Nat := 0x2bc830a3

/-- The six symbols that complete the data to the right remainder. -/
def checksum (hrp : String) (data : List Nat) : List Nat :=
  let m := polymod (expand hrp ++ data ++ List.replicate 6 0) ^^^ target
  (List.range 6).map fun i => (m >>> (5 * (5 - i))) % 32

/-- Whether symbols, the last six of them the checksum, belong to the human-readable part. -/
def verifies (hrp : String) (symbols : List Nat) : Bool :=
  polymod (expand hrp ++ symbols) = target

/-- The text of a payload under a version symbol. -/
def encode (hrp : String) (version : Nat) (payload : Bytes) : String :=
  let data := version :: symbols payload
  hrp ++ "1" ++ String.ofList ((data ++ checksum hrp data).map symbolChar)

end SilentScan.Bech32
