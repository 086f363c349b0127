/-
The points of a curve form a group.

A public key stands for a point of an elliptic curve over the field, and the absence of one for
the point at infinity. The sum of keys stands for the sum of the points, so that it is commutative
and associative, and the multiple of a key for the multiple of the point.

* `Curve.Sound`: what makes the parameters those of an elliptic curve whose generator has a prime
  order;
* `Curve.StandsFor`: which point a key stands for; `StandsFor.unique`, `StandsFor.point_unique`: no
  two keys stand for one point, and no key for two;
* `StandsFor.add`, `StandsFor.mul`: sums and multiples stand for sums and multiples;
* `base_eq_none_iff`, `base_injOn`, `mul_base`, `exists_mul_base`: the multiples of the generator,
  and the key that two secrets share.
-/
import Mathlib.AlgebraicGeometry.EllipticCurve.Affine.Point
import SilentScan.Proofs.Curve.Field

namespace SilentScan

open WeierstrassCurve.Affine

namespace Curve

/-- That the parameters are those of an elliptic curve over a field whose prime is one below a
multiple of four, that the generator has a prime order, and that 32 bytes are enough for a
coordinate and for a scalar. -/
class Sound (c : Curve) : Prop where
  prime : c.fieldPrime.Prime
  three_mod_four : c.fieldPrime % 4 = 3
  fits : c.fieldPrime ≤ 2 ^ 256
  smooth : 6 * c.b % c.fieldPrime ≠ 0
  generator : c.onCurve c.generator = true
  order_prime : c.order.Prime
  order_base : c.base c.order = none
  order_fits : c.order ≤ 2 ^ 256

variable {c : Curve} [c.Sound]

instance : Fact c.fieldPrime.Prime := ⟨Sound.prime⟩

/-- The curve over the field. -/
def weierstrass (c : Curve) : WeierstrassCurve.Affine c.BaseField :=
  { a₁ := 0, a₂ := 0, a₃ := 0, a₄ := 0, a₆ := c.b }

/-- The points of the curve, with that at infinity. -/
abbrev Points (c : Curve) : Type := c.weierstrass.Point

lemma nonsingular_iff {x y : c.BaseField} :
    c.weierstrass.Nonsingular x y ↔ y ^ 2 = x ^ 3 + c.b := by
  have hsmooth : (6 : c.BaseField) * c.b ≠ 0 := by
    have hcast : ((6 * c.b : ℕ) : c.BaseField) ≠ 0 := fun h =>
      Sound.smooth (Nat.mod_eq_zero_of_dvd ((ZMod.natCast_eq_zero_iff _ _).1 h))
    exact_mod_cast hcast
  have hsix : (6 : c.BaseField) ≠ 0 := left_ne_zero_of_mul hsmooth
  have htwo : (2 : c.BaseField) ≠ 0 := fun h => hsix (by linear_combination 3 * h)
  have hdisc : c.weierstrass.Δ = -(2 * 6 * (6 * c.b) ^ 2) := by
    simp only [weierstrass, WeierstrassCurve.Δ, WeierstrassCurve.b₂, WeierstrassCurve.b₄,
      WeierstrassCurve.b₆, WeierstrassCurve.b₈]
    ring
  have hnonzero : c.weierstrass.Δ ≠ 0 := by
    rw [hdisc]
    exact neg_ne_zero.2 (mul_ne_zero (mul_ne_zero htwo hsix) (pow_ne_zero 2 hsmooth))
  rw [← equation_iff_nonsingular_of_Δ_ne_zero hnonzero, WeierstrassCurve.Affine.equation_iff]
  simp [weierstrass]

/-- The reflection of a point. -/
lemma negY_eq (x y : c.BaseField) : c.weierstrass.negY x y = -y := by
  simp [weierstrass, negY]

/-- Which point a key stands for; the absence of a key stands for infinity. -/
inductive StandsFor : Option PublicKey → c.Points → Prop
  | infinity : StandsFor none 0
  | key (p : PublicKey) (hx : p.x < c.fieldPrime) (hy : p.y < c.fieldPrime)
      (h : c.weierstrass.Nonsingular p.x p.y) : StandsFor (some p) (.some _ _ h)

/-- The keys are the pairs of coordinates on the curve. -/
lemma onCurve_iff {p : PublicKey} :
    c.onCurve p = true ↔ ∃ P : c.Points, StandsFor (some p) P := by
  have hequation : c.times p.y p.y = c.cubic p.x ↔ c.weierstrass.Nonsingular p.x p.y := by
    rw [nonsingular_iff, ← cast_cubic, sq, ← cast_times]
    exact ⟨congrArg _, eq_of_cast_eq (times_lt _ _) (Nat.mod_lt _ Sound.prime.pos)⟩
  simp only [onCurve, Bool.and_eq_true, decide_eq_true_eq, beq_iff_eq, hequation]
  constructor
  · rintro ⟨⟨hx, hy⟩, h⟩
    exact ⟨_, .key p hx hy h⟩
  · rintro ⟨P, ⟨⟩⟩
    exact ⟨⟨‹_›, ‹_›⟩, ‹_›⟩

namespace StandsFor

variable {p q : Option PublicKey} {P Q : c.Points}

/-- No two keys stand for one point. -/
lemma unique (hp : StandsFor p P) (hq : StandsFor q P) : p = q := by
  cases hp with
  | infinity =>
    cases hq with
    | infinity => rfl
  | key p hx hy h =>
    generalize hsame : Point.some _ _ h = R at hq
    cases hq with
    | infinity => cases hsame
    | key q hx' hy' h' =>
      obtain ⟨hxs, hys⟩ := Point.some.inj hsame
      have hxe : p.x = q.x := eq_of_cast_eq hx hx' hxs
      have hye : p.y = q.y := eq_of_cast_eq hy hy' hys
      cases p
      cases q
      simp_all

/-- No key stands for two points. -/
lemma point_unique (hP : StandsFor p P) (hQ : StandsFor p Q) : P = Q := by
  cases hP with
  | infinity =>
    cases hQ
    rfl
  | key p hx hy h =>
    cases hQ
    rfl

/-- A key for coordinates that are those of a point. -/
lemma of_coordinates {k : PublicKey} (hx : k.x < c.fieldPrime) (hy : k.y < c.fieldPrime)
    {x y : c.BaseField} (h : c.weierstrass.Nonsingular x y) (hkx : (k.x : c.BaseField) = x)
    (hky : (k.y : c.BaseField) = y) : StandsFor (some k) (.some x y h) := by
  subst hkx hky
  exact .key k hx hy h

/-- The third point on a line, reflected, has the coordinates of the sum. -/
lemma chord {slope : ℕ} {p : PublicKey} {x : ℕ} (hpx : p.x < c.fieldPrime)
    (hpy : p.y < c.fieldPrime) (hx : x < c.fieldPrime) {X Y : c.BaseField}
    (h : c.weierstrass.Nonsingular X Y) (hX : X = c.weierstrass.addX p.x x slope)
    (hY : Y = c.weierstrass.addY p.x x p.y slope) :
    StandsFor (some (c.chord slope p x)) (.some X Y h) := by
  have hpos : 0 < c.fieldPrime := Sound.prime.pos
  have hx3 : (((c.chord slope p x).x : ℕ) : c.BaseField) = X := by
    rw [Curve.chord, cast_sub _ hx.le, cast_sub _ hpx.le, cast_times, hX]
    simp [weierstrass, addX, sq]
  have hlt : (c.chord slope p x).x < c.fieldPrime := Nat.mod_lt _ hpos
  refine of_coordinates hlt (Nat.mod_lt _ hpos) h hx3 ?_
  have hy3 : (((c.chord slope p x).y : ℕ) : c.BaseField)
      = slope * (p.x - (c.chord slope p x).x) - p.y := by
    change ((c.sub (c.times slope (c.sub p.x (c.chord slope p x).x)) p.y : ℕ) : c.BaseField) = _
    rw [cast_sub _ hpy.le, cast_times, cast_sub _ hlt.le]
  rw [hy3, hx3, hY, addY, negY_eq, negAddY, ← hX]
  ring

section Key

variable {p q : PublicKey} (hpx : p.x < c.fieldPrime) (hpy : p.y < c.fieldPrime)
  (hqx : q.x < c.fieldPrime) (hqy : q.y < c.fieldPrime) (h : c.weierstrass.Nonsingular p.x p.y)
  (h' : c.weierstrass.Nonsingular q.x q.y)

/-- Points are opposite if their ordinates add up to zero. -/
lemma negY_iff : (p.y + q.y) % c.fieldPrime = 0
    ↔ (p.y : c.BaseField) = c.weierstrass.negY q.x q.y := by
  rw [negY_eq, ← Nat.dvd_iff_mod_eq_zero, ← ZMod.natCast_eq_zero_iff, Nat.cast_add,
    ← eq_neg_iff_add_eq_zero]

include hpx hpy hqx in
/-- The sum of points that are not opposite, if the slope is that of the line through them. -/
lemma of_slope {slope : ℕ}
    (hdistinct : ¬((p.x : c.BaseField) = q.x ∧ (p.y : c.BaseField) = c.weierstrass.negY q.x q.y))
    (hslope : (slope : c.BaseField) = c.weierstrass.slope p.x q.x p.y q.y) :
    StandsFor (some (c.chord slope p q.x)) (Point.some _ _ h + Point.some _ _ h') := by
  rw [Point.add_some hdistinct]
  exact chord hpx hpy hqx _ (by rw [hslope]) (by rw [hslope])

include hpx hpy hqx hqy in
/-- The sum of two keys stands for the sum of the points. -/
lemma add_key :
    StandsFor (c.addPoints p q) (Point.some _ _ h + Point.some _ _ h' : c.Points) := by
  rw [addPoints]
  split_ifs with hx hopposite
  · -- The points are opposite.
    rw [Point.add_of_Y_eq (congrArg _ hx) (negY_iff.1 hopposite)]
    exact .infinity
  · -- The points are equal, and the line is the tangent.
    have hX : (p.x : c.BaseField) = q.x := congrArg _ hx
    have hY : (p.y : c.BaseField) ≠ c.weierstrass.negY q.x q.y := fun hneg =>
      hopposite (negY_iff.2 hneg)
    have hsame : p.y = q.y := eq_of_cast_eq hpy hqy (Y_eq_of_Y_ne h.1 h'.1 hX hY)
    have hdouble : 2 * p.y % c.fieldPrime ≠ 0 := by rwa [← hsame, ← two_mul] at hopposite
    refine of_slope hpx hpy hqx h h' (fun hboth => hY hboth.2) ?_
    rw [slope_of_Y_ne hX hY, negY_eq, cast_times,
      cast_inverse hdouble (Nat.mod_lt _ Sound.prime.pos), ZMod.natCast_mod, div_eq_mul_inv]
    simp [weierstrass]
    ring
  · -- The points lie over different abscissas.
    have hX : (p.x : c.BaseField) ≠ q.x := fun heq => hx (eq_of_cast_eq hpx hqx heq)
    refine of_slope hpx hpy hqx h h' (fun hboth => hX hboth.1) ?_
    have hsub : c.sub q.x p.x ≠ 0 := by
      intro hzero
      have hcast := cast_sub (c := c) q.x hpx.le
      rw [hzero, Nat.cast_zero, eq_comm, sub_eq_zero] at hcast
      exact hX hcast.symm
    rw [slope_of_X_ne hX, cast_times, cast_inverse hsub (Nat.mod_lt _ Sound.prime.pos),
      cast_sub _ hpx.le, cast_sub _ hpy.le, ← div_eq_mul_inv, ← neg_sub (q.y : c.BaseField),
      ← neg_sub (q.x : c.BaseField), neg_div_neg_eq]

end Key

/-- **The sum of keys stands for the sum of the points.** -/
theorem add (hp : StandsFor p P) (hq : StandsFor q Q) : StandsFor (c.add p q) (P + Q) := by
  cases hp with
  | infinity =>
    rw [zero_add]
    exact hq
  | key p hpx hpy h =>
    cases hq with
    | infinity =>
      rw [add_zero]
      exact .key p hpx hpy h
    | key q hqx hqy h' => exact add_key hpx hpy hqx hqy h h'

/-- **The multiple of a key stands for the multiple of the point.** -/
theorem mul (hp : StandsFor p P) (k : ℕ) : StandsFor (c.mul k p) (k • P) := by
  suffices hfuel : ∀ fuel k p P, k < 2 ^ fuel → StandsFor p P →
      StandsFor (c.mulFuel fuel k p) (k • P : c.Points) from
    hfuel _ _ _ _ Nat.lt_log2_self hp
  intro fuel
  induction fuel with
  | zero =>
    intro k p P hk _
    obtain rfl : k = 0 := by simpa using hk
    rw [zero_nsmul]
    exact .infinity
  | succ fuel ih =>
    intro k p P hk hp
    rw [mulFuel]
    split_ifs with hzero hodd
    · rw [hzero, zero_nsmul]
      exact .infinity
    · have hrest := ih (k / 2) _ _ (by rw [pow_succ] at hk; omega) (hp.add hp)
      have hsplit : k • P = (k / 2) • (P + P) + P := by
        rw [← two_nsmul, ← mul_nsmul', ← succ_nsmul]
        congr 1
        omega
      rw [hsplit]
      exact hrest.add hp
    · have hrest := ih (k / 2) _ _ (by rw [pow_succ] at hk; omega) (hp.add hp)
      have hsplit : k • P = (k / 2) • (P + P) := by
        rw [← two_nsmul, ← mul_nsmul']
        congr 1
        omega
      rw [hsplit]
      exact hrest

/-- Only the absence of a key stands for infinity. -/
lemma eq_none_iff (hp : StandsFor p P) : p = none ↔ P = 0 := by
  refine ⟨?_, fun hzero => hp.unique (hzero ▸ .infinity)⟩
  rintro rfl
  cases hp
  rfl

end StandsFor

/-! ### Multiples of the generator -/

/-- The order of the generator is the number given for it. -/
lemma exists_generator (c : Curve) [c.Sound] :
    ∃ G : c.Points, StandsFor (some c.generator) G ∧ addOrderOf G = c.order := by
  obtain ⟨G, hG⟩ := onCurve_iff.1 (Sound.generator (c := c))
  have : Fact c.order.Prime := ⟨Sound.order_prime⟩
  refine ⟨G, hG, addOrderOf_eq_prime ?_ fun hzero => ?_⟩
  · exact (hG.mul c.order).eq_none_iff.1 Sound.order_base
  · exact Option.some_ne_none _ (hG.eq_none_iff.2 hzero)

/-- The multiples of the generator that are infinity are those by multiples of the order. -/
lemma base_eq_none_iff {k : ℕ} : c.base k = none ↔ c.order ∣ k := by
  obtain ⟨G, hG, horder⟩ := exists_generator c
  have hk : StandsFor (c.base k) (k • G) := hG.mul k
  rw [hk.eq_none_iff, ← horder, addOrderOf_dvd_iff_nsmul_eq_zero]

/-- A multiple of a multiple of the generator is the multiple by the product. -/
lemma mul_base (a b : ℕ) : c.mul a (c.base b) = c.base (a * b) := by
  obtain ⟨G, hG, -⟩ := exists_generator c
  have hab : StandsFor (c.mul a (c.base b)) (a • b • G) := (hG.mul b).mul a
  exact hab.unique (mul_nsmul' G a b ▸ hG.mul (a * b))

/-- A secret gives a key. -/
lemma exists_base {a : ℕ} (hpos : 0 < a) (ha : a < c.order) : ∃ p, c.base a = some p :=
  Option.ne_none_iff_exists'.1 fun hnone =>
    absurd (Nat.le_of_dvd hpos (base_eq_none_iff.1 hnone)) (by omega)

/-- A multiple of the generator is on the curve. -/
lemma onCurve_of_base {k : ℕ} {p : PublicKey} (h : c.base k = some p) : c.onCurve p = true := by
  obtain ⟨G, hG, -⟩ := exists_generator c
  exact onCurve_iff.2 ⟨k • G, h ▸ hG.mul k⟩

/-- Different secrets give different keys. -/
lemma base_injOn : Set.InjOn c.base (Set.Iio c.order) := by
  obtain ⟨G, hG, horder⟩ := exists_generator c
  intro a ha b hb hsame
  have hmul : ∀ k : ℕ, StandsFor (c.base k) (k • G) := hG.mul
  have hpoints : a • G = b • G := (hmul a).point_unique (hsame ▸ hmul b)
  rw [← horder] at ha hb
  exact nsmul_injOn_Iio_addOrderOf ha hb hpoints

/-- **Two secrets give a key that they share**: a multiple of a multiple of the generator is not
infinity. -/
theorem exists_mul_base {a b : ℕ} (ha : 0 < a) (ha' : a < c.order) (hb : 0 < b)
    (hb' : b < c.order) : ∃ p, c.mul a (c.base b) = some p := by
  refine Option.ne_none_iff_exists'.1 fun hnone => ?_
  rw [mul_base, base_eq_none_iff, (Sound.order_prime (c := c)).dvd_mul] at hnone
  obtain hdvd | hdvd := hnone
  · exact absurd (Nat.le_of_dvd ha hdvd) (by omega)
  · exact absurd (Nat.le_of_dvd hb hdvd) (by omega)

end Curve
end SilentScan
