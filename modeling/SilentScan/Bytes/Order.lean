/-
Byte strings and the numbers they spell.

A byte string is a `List UInt8`. The two byte orders in use are both definitions here, so that
a statement about a layout is a statement about lists:

* `ofNatBE`, `toNatBE`: the most significant byte first, at a fixed width;
* `ofNatLE`, `toNatLE`: the least significant byte first.
-/
namespace SilentScan

/-- Byte strings are lists, the form in which layouts are easiest to take apart. -/
abbrev Bytes := List UInt8

namespace Bytes

/-- The number spelled by the bytes, the most significant byte first. -/
def toNatBE (bs : Bytes) : Nat :=
  bs.foldl (fun n b => 256 * n + b.toNat) 0

/-- The number spelled by the bytes, the least significant byte first. -/
def toNatLE : Bytes → Nat
  | [] => 0
  | b :: rest => b.toNat + 256 * toNatLE rest

/-- The `width` low bytes of a number, the least significant byte first. -/
def ofNatLE : (width : Nat) → Nat → Bytes
  | 0, _ => []
  | width + 1, n => UInt8.ofNat (n % 256) :: ofNatLE width (n / 256)

/-- The `width` low bytes of a number, the most significant byte first. -/
def ofNatBE (width n : Nat) : Bytes :=
  (ofNatLE width n).reverse

/-- A number written at a width has that many bytes. -/
@[simp] theorem length_ofNatLE (width n : Nat) : (ofNatLE width n).length = width := by
  induction width generalizing n with
  | zero => rfl
  | succ w ih => simp [ofNatLE, ih]

/-- A number written at a width has that many bytes, in either order. -/
@[simp] theorem length_ofNatBE (width n : Nat) : (ofNatBE width n).length = width := by
  simp [ofNatBE]

/-- The UTF-8 bytes of a text. -/
def ofText (s : String) : Bytes :=
  s.toUTF8.toList

/-- The text whose UTF-8 bytes these are, if they are valid UTF-8. -/
def toText? (bs : Bytes) : Option String :=
  String.fromUTF8? ⟨bs.toArray⟩

end Bytes
end SilentScan
