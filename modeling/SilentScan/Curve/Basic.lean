/-
Elliptic curves `y² = x³ + b` over a prime field.

The points of a curve other than the one at infinity are pairs of coordinates below the field
prime; they are the public keys. Together with infinity, which is `none`, they form a group, and
a secret scalar stands for a multiple of a fixed generator.

* `Curve`: the parameters, with `secp256k1` the curve in use;
* `Curve.add`, `Curve.mul`: the group on `Option PublicKey`;
* `Curve.onCurve`: which pairs of coordinates are points.
-/
namespace SilentScan

/-- A point other than infinity. -/
structure PublicKey where
  x : Nat
  y : Nat
deriving DecidableEq, Repr, Inhabited

/-- The parameters of a curve `y² = x³ + b`. -/
structure Curve where
  fieldPrime : Nat
  b : Nat
  generator : PublicKey
  /-- The number of multiples of the generator. -/
  order : Nat

namespace Curve

variable (c : Curve)

/-! ### Field arithmetic -/

/-- The difference in the field, of numbers below the prime. -/
def sub (a b : Nat) : Nat :=
  (a + (c.fieldPrime - b)) % c.fieldPrime

/-- The product in the field. -/
def times (a b : Nat) : Nat :=
  a * b % c.fieldPrime

/-- Euclid's algorithm with the factor of the second number carried along: for the remainders
`r`, `s` with factors `t`, `u`. -/
def euclid : (fuel : Nat) → Nat → Nat → Int → Int → Int
  | 0, _, _, t, _ => t
  | fuel + 1, r, s, t, u =>
    if s = 0 then t else euclid fuel s (r % s) u (t - (r / s : Nat) * u)

/-- The inverse in the field of a number that is not zero. A remainder at least halves in every
second step of the algorithm. -/
def inverse (a : Nat) : Nat :=
  (euclid (2 * c.fieldPrime.log2 + 4) c.fieldPrime a 0 1 % c.fieldPrime).toNat

/-- The power in the field, by squaring. -/
def power (a : Nat) : (fuel : Nat) → Nat → Nat
  | 0, _ => 1 % c.fieldPrime
  | fuel + 1, e =>
    if e = 0 then 1 % c.fieldPrime
    else
      let half := power a fuel (e / 2)
      let square := c.times half half
      if e % 2 = 1 then c.times square a else square

/-- The number `x³ + b` whose square roots are the ordinates over `x`. -/
def cubic (x : Nat) : Nat :=
  (x * x % c.fieldPrime * x + c.b) % c.fieldPrime

/-- A square root in the field where the prime is one below a multiple of four, if there is
one. -/
def sqrt? (a : Nat) : Option Nat :=
  let r := c.power a (c.fieldPrime.log2 + 2) ((c.fieldPrime + 1) / 4)
  if c.times r r = a % c.fieldPrime then some r else none

/-! ### Points -/

/-- Whether the coordinates are reduced and satisfy the equation. -/
def onCurve (p : PublicKey) : Bool :=
  p.x < c.fieldPrime && p.y < c.fieldPrime && c.times p.y p.y == c.cubic p.x

/-- The point on the line with the given slope through `p` and a point with abscissa `x`,
reflected. -/
def chord (slope : Nat) (p : PublicKey) (x : Nat) : PublicKey :=
  let x3 := c.sub (c.sub (c.times slope slope) p.x) x
  ⟨x3, c.sub (c.times slope (c.sub p.x x3)) p.y⟩

/-- The sum of two points. Points over one abscissa are either opposite or equal. -/
def addPoints (p q : PublicKey) : Option PublicKey :=
  if p.x = q.x then
    if (p.y + q.y) % c.fieldPrime = 0 then none
    else
      let slope := c.times (3 * p.x * p.x) (c.inverse (2 * p.y % c.fieldPrime))
      some (c.chord slope p q.x)
  else
    let slope := c.times (c.sub q.y p.y) (c.inverse (c.sub q.x p.x))
    some (c.chord slope p q.x)

/-- The group operation, infinity being neutral. -/
def add : Option PublicKey → Option PublicKey → Option PublicKey
  | none, q => q
  | p, none => p
  | some p, some q => c.addPoints p q

/-- The multiple of a point, by doubling. -/
def mulFuel : (fuel : Nat) → Nat → Option PublicKey → Option PublicKey
  | 0, _, _ => none
  | fuel + 1, k, p =>
    if k = 0 then none
    else
      let rest := mulFuel fuel (k / 2) (c.add p p)
      if k % 2 = 1 then c.add rest p else rest

/-- The multiple of a point. -/
def mul (k : Nat) (p : Option PublicKey) : Option PublicKey :=
  c.mulFuel (k.log2 + 1) k p

/-- The multiple of the generator. -/
def base (k : Nat) : Option PublicKey :=
  c.mul k (some c.generator)

end Curve

/-- The curve of the payments. -/
def secp256k1 : Curve where
  fieldPrime := 0xfffffffffffffffffffffffffffffffffffffffffffffffffffffffefffffc2f
  b := 7
  generator :=
    ⟨0x79be667ef9dcbbac55a06295ce870b07029bfcdb2dce28d959f2815b16f81798,
     0x483ada7726a3c4655da4fbfc0e1108a8fd17b448a68554199c47d08ffb10d4b8⟩
  order := 0xfffffffffffffffffffffffffffffffebaaedce6af48a03bbfd25e8cd0364141

end SilentScan
