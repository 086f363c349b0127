/-
Hexadecimal text.

Writing uses lower-case digits; reading takes either case. Reading has two faults, and the
length is looked at first: an odd number of bytes is reported whatever the digits are, and
otherwise the first byte that is no digit is reported with its place. Places count bytes of
the UTF-8 text, and the byte is shown as the character of the same number.

* `Hex.encode`: two lower-case digits a byte;
* `Hex.decode`: the bytes, or the fault.
-/
import SilentScan.Bytes.Order
import SilentScan.Text.Quoted

namespace SilentScan.Hex

/-- The lower-case digit of a number below sixteen. -/
def digit (n : Nat) : Char :=
  if n < 10 then Char.ofNat (48 + n) else Char.ofNat (87 + n)

/-- The two digits of a byte, high half first. -/
def byteDigits (b : UInt8) : List Char :=
  [digit (b.toNat / 16), digit (b.toNat % 16)]

/-- The hexadecimal text of a byte string. -/
def encode (bs : Bytes) : String :=
  String.ofList (bs.flatMap byteDigits)

/-- The value of an ASCII digit of either case. -/
def value? (b : UInt8) : Option Nat :=
  if 48 ≤ b ∧ b ≤ 57 then some (b.toNat - 48)
  else if 97 ≤ b ∧ b ≤ 102 then some (b.toNat - 87)
  else if 65 ≤ b ∧ b ≤ 70 then some (b.toNat - 55)
  else none

/-- Why a text is not hexadecimal. -/
inductive Fault where
  | oddLength
  | badDigit (digit : UInt8) (position : Nat)
deriving DecidableEq, Repr

/-- The wording of a fault. -/
def Fault.message : Fault → String
  | .oddLength => "Odd number of digits"
  | .badDigit b i =>
    "Invalid character " ++ Text.quoteChar (Char.ofNat b.toNat) ++ " at position " ++ toString i

/-- Reads digits in pairs; `position` is the place of the first of them. -/
def decodeFrom (position : Nat) : Bytes → Except Fault Bytes
  | hi :: lo :: rest =>
    match value? hi, value? lo with
    | none, _ => .error (.badDigit hi position)
    | some _, none => .error (.badDigit lo (position + 1))
    | some h, some l => do
      let tail ← decodeFrom (position + 2) rest
      return UInt8.ofNat (16 * h + l) :: tail
  | _ => .ok []

/-- The bytes a hexadecimal text stands for. -/
def decode (text : String) : Except Fault Bytes :=
  let bs := Bytes.ofText text
  if bs.length % 2 = 1 then .error .oddLength else decodeFrom 0 bs

end SilentScan.Hex
