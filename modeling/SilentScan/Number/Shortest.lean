/-
The shortest decimal that reads back as a given binary number.

A positive number `m * 2 ^ e` owns the interval of reals that round to it; the interval has its
ends exactly when `m` is even. For one digit, two digits and so on, the two neighbours of the
number on the grid of decimals with that many digits are tried: the first grid with a hit wins,
and of two hits the nearer one, the even one where both are as near.

* `shortest`: the digits and the power of ten;
* `Double.render`: how digits and exponent become text.
-/
import SilentScan.Number.Double

namespace SilentScan

namespace Shortest

/-- A positive number with the interval that rounds to it, all over a common scale: the value is
`value * unitNum / unitDen`, and likewise for the ends. -/
structure Interval where
  low : Nat
  value : Nat
  high : Nat
  unitNum : Nat
  unitDen : Nat
  closed : Bool

/-- The interval of a finite positive number. Below a power of two the neighbours are half as far
apart, except at the least scale. -/
def Interval.of (d : Double) : Interval :=
  let m := d.mantissa
  let (num, den) := Double.descale 1 1 (-(d.scale - 2))
  { low := if m = Double.fractionSize ∧ d.exponentField ≠ 1 then 4 * m - 1 else 4 * m - 2
    value := 4 * m
    high := 4 * m + 2
    unitNum := num
    unitDen := den
    closed := m % 2 = 0 }

/-- The power of ten of the leading digit. -/
def decimalOrder (i : Interval) : Int :=
  ((toString (i.value * i.unitNum * Nat.pow 10 330 / i.unitDen)).length : Int) - 331

/-- The factors `(a, b)` with `value * a / b` the number in units of `10 ^ k`. -/
def gridFactors (i : Interval) (k : Int) : Nat × Nat :=
  if 0 ≤ k then (i.unitNum, i.unitDen * Nat.pow 10 k.toNat)
  else (i.unitNum * Nat.pow 10 (-k).toNat, i.unitDen)

/-- Whether `c` grid units lie in the interval. -/
def holds (i : Interval) (a b c : Nat) : Bool :=
  if i.closed then i.low * a ≤ c * b && c * b ≤ i.high * a
  else i.low * a < c * b && c * b < i.high * a

/-- The grid point that reads back, if the grid of `10 ^ k` has one. -/
def hit? (i : Interval) (k : Int) : Option Nat :=
  let (a, b) := gridFactors i k
  let below := i.value * a / b
  let above := below + 1
  match holds i a b below, holds i a b above with
  | false, false => none
  | true, false => some below
  | false, true => some above
  | true, true =>
    let left := i.value * a - below * b
    let right := above * b - i.value * a
    if left < right ∨ (left = right ∧ below % 2 = 0) then some below else some above

/-- Tries the grids with more and more digits. -/
def search (i : Interval) (k : Int) : (tries : Nat) → Nat × Int
  | 0 => (0, 0)
  | tries + 1 =>
    match hit? i k with
    | some c => (c, k)
    | none => search i (k - 1) tries

/-- Digits without trailing zeros, the power of ten raised accordingly. -/
def stripZeros : (steps : Nat) → Nat × Int → Nat × Int
  | 0, r => r
  | steps + 1, (c, k) => if c ≠ 0 ∧ c % 10 = 0 then stripZeros steps (c / 10, k + 1) else (c, k)

end Shortest

/-- The shortest digits of a finite positive number with the power of ten they are multiplied
by. -/
def Double.shortest (d : Double) : Nat × Int :=
  let i := Shortest.Interval.of d
  Shortest.stripZeros 20 (Shortest.search i (Shortest.decimalOrder i) 18)

/-- Decimal text of a finite number. Between the exponents -5 and 15 of the leading digit it is
positional and always has a fraction; elsewhere one digit stands before the point and the
exponent carries its sign. -/
def Double.render (d : Double) : String :=
  let sign := if d.negative then "-" else ""
  if d.mantissa = 0 then sign ++ "0.0"
  else
    let (c, k) := d.shortest
    let digits := (toString c).toList
    let order := k + digits.length - 1
    let zeros (n : Int) := List.replicate n.toNat '0'
    let body : List Char :=
      if -5 ≤ order ∧ order ≤ 15 then
        if order < 0 then '0' :: '.' :: zeros (-order - 1) ++ digits
        else if 0 ≤ k then digits ++ zeros k ++ ['.', '0']
        else digits.take (order.toNat + 1) ++ '.' :: digits.drop (order.toNat + 1)
      else
        let head := digits.take 1 ++ (if digits.length = 1 then [] else '.' :: digits.drop 1)
        head ++ 'e' :: (if order < 0 then '-' else '+') :: (toString order.natAbs).toList
    sign ++ String.ofList body

end SilentScan
