/-
Naturals written in decimal.

* `Natural.read?`: the number below a bound that a text spells, perhaps after a plus sign.
-/
namespace SilentScan.Natural

/-- The value of a decimal digit. -/
def digitValue (c : Char) : Nat :=
  c.toNat - '0'.toNat

/-- The number that digits spell. -/
def ofDigits (cs : List Char) : Nat :=
  cs.foldl (fun n c => 10 * n + digitValue c) 0

/-- The number below `bound` that characters spell: decimal digits, at least one, perhaps after a
plus sign. -/
def readChars? (bound : Nat) (cs : List Char) : Option Nat :=
  let digits := match cs with
    | '+' :: rest => rest
    | cs => cs
  if digits ≠ [] ∧ digits.all Char.isDigit ∧ ofDigits digits < bound then some (ofDigits digits)
  else none

/-- The number below `bound` that a text spells. -/
def read? (bound : Nat) (s : String) : Option Nat :=
  readChars? bound s.toList

end SilentScan.Natural
