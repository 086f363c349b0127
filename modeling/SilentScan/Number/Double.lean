/-
Binary floating-point numbers of 64 bits.

A `Double` is its bit pattern, so two of them are equal as values of the type exactly when the
patterns agree. Arithmetic is defined on exact ratios of naturals and one rounding step: the
result of an operation is the ratio it denotes, rounded to the nearest representable number,
a tie going to the even neighbour.

* `mantissa`, `scale`: the magnitude of a finite number is `mantissa * 2 ^ scale`;
* `ofRatio`: the nearest number to a signed ratio;
* `mul`, `div`, `le`: arithmetic and order on finite numbers;
* `fixed`: decimal text with a fixed number of places.
-/
namespace SilentScan

/-- A binary64 number, given by its bits. -/
structure Double where
  bits : UInt64
deriving DecidableEq, Repr, Inhabited

namespace Double

/-- The place value of the sign bit, the highest one. -/
def signBit : Nat := 0x8000_0000_0000_0000

/-- The number of fractions, which take up the low 52 bits. -/
def fractionSize : Nat := 0x10_0000_0000_0000

/-- Whether the sign bit is set. -/
def negative (d : Double) : Bool :=
  d.bits.toNat / signBit = 1

/-- The eleven bits of the exponent. -/
def exponentField (d : Double) : Nat :=
  d.bits.toNat / fractionSize % 2048

/-- The low 52 bits. -/
def fraction (d : Double) : Nat :=
  d.bits.toNat % fractionSize

/-- The bits without the sign, which order the magnitudes. -/
def magnitude (d : Double) : Nat :=
  d.bits.toNat % signBit

/-- Numbers other than the infinities and the patterns that are no number. -/
def isFinite (d : Double) : Bool :=
  d.exponentField ≠ 2047

/-- The whole-number factor of the magnitude. -/
def mantissa (d : Double) : Nat :=
  if d.exponentField = 0 then d.fraction else d.fraction + fractionSize

/-- The power of two that multiplies the mantissa. -/
def scale (d : Double) : Int :=
  if d.exponentField = 0 then -1074 else (d.exponentField : Int) - 1075

/-- Positive and negative zero. -/
def zero (negative : Bool) : Double :=
  ⟨UInt64.ofNat (if negative then signBit else 0)⟩

/-- The number `mantissa * 2 ^ scale`, or infinity where that is too large. The mantissa is
between `2 ^ 52` and `2 ^ 53`, or below at the least scale; one that rounding has carried to
`2 ^ 53` spills into the exponent, as it should. -/
def pack (negative : Bool) (mantissa : Nat) (scale : Int) : Double :=
  let magnitude := min ((scale + 1074).toNat * fractionSize + mantissa) (2047 * fractionSize)
  ⟨UInt64.ofNat ((if negative then signBit else 0) + magnitude)⟩

/-- The ratio `num / den` divided by `2 ^ e`, again as a ratio. -/
def descale (num den : Nat) (e : Int) : Nat × Nat :=
  if 0 ≤ e then (num, den <<< e.toNat) else (num <<< (-e).toNat, den)

/-- The exponent of the largest power of two that is at most `num / den`. -/
def binaryOrder (num den : Nat) : Int :=
  let guess : Int := (num.log2 : Int) - den.log2
  let (n, d) := descale num den guess
  if d ≤ n then guess else guess - 1

/-- The whole number nearest to `num / den`, a tie going to the even one. -/
def roundHalfEven (num den : Nat) : Nat :=
  let q := num / den
  let r := num % den
  if den < 2 * r ∨ (2 * r = den ∧ q % 2 = 1) then q + 1 else q

/-- The number nearest to `num / den` under a sign. -/
def ofRatio (negative : Bool) (num den : Nat) : Double :=
  if num = 0 then zero negative
  else
    let e := max (binaryOrder num den - 52) (-1074)
    let (n, d) := descale num den e
    pack negative (roundHalfEven n d) e

/-- The number nearest to a natural. -/
def ofNat (n : Nat) : Double :=
  ofRatio false n 1

/-- The number nearest to an integer; zero is the positive one. -/
def ofInt (i : Int) : Double :=
  ofRatio (i < 0) i.natAbs 1

/-- The magnitude as a ratio of naturals. -/
def ratio (d : Double) : Nat × Nat :=
  descale d.mantissa 1 (-d.scale)

/-- The product of two finite numbers. -/
def mul (a b : Double) : Double :=
  let (n, d) := a.ratio
  let (n', d') := b.ratio
  ofRatio (a.negative != b.negative) (n * n') (d * d')

/-- The quotient of two finite numbers, the second of them not zero. -/
def div (a b : Double) : Double :=
  let (n, d) := a.ratio
  let (n', d') := b.ratio
  ofRatio (a.negative != b.negative) (n * d') (d * n')

/-- The number with the other sign. -/
def neg (d : Double) : Double :=
  ⟨UInt64.ofNat ((if d.negative then 0 else signBit) + d.magnitude)⟩

/-- Places finite numbers on a line; both zeros stand at the same point. -/
def orderKey (d : Double) : Int :=
  if d.negative then -(d.magnitude : Int) else d.magnitude

/-- The order of finite numbers. -/
def le (a b : Double) : Bool :=
  a.orderKey ≤ b.orderKey

/-- Whether two finite numbers have the same value. -/
def same (a b : Double) : Bool :=
  a.orderKey = b.orderKey

/-- The larger of two numbers, the first of two with the same value. -/
def max (a b : Double) : Double :=
  if b.le a then a else b

/-- The number one. -/
def one : Double :=
  ofNat 1

/-- A natural in decimal digits, padded with zeros on the left. -/
def padded (width n : Nat) : String :=
  let digits := toString n
  String.ofList (List.replicate (width - digits.length) '0') ++ digits

/-- Decimal text with the given number of places, the exact value rounded half to even. -/
def fixed (places : Nat) (d : Double) : String :=
  let (n, den) := d.ratio
  let grid := Nat.pow 10 places
  let units := roundHalfEven (n * grid) den
  let text := toString (units / grid) ++ "." ++ padded places (units % grid)
  if d.negative then "-" ++ text else text

end Double
end SilentScan
