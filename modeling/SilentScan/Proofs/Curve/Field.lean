/-
Arithmetic modulo the field prime.

The numbers below the field prime stand for the elements of a field, and the operations on the
numbers for those of the field. The inverse is found by Euclid's algorithm, which ends because a
remainder at least halves in every second step; a square root, where the prime is one below a
multiple of four, by a power.

* `Curve.BaseField`: the field;
* `Curve.cast_sub`, `Curve.cast_times`, `Curve.cast_inverse`, `Curve.cast_power`: the operations on
  numbers are those of the field;
* `Curve.sqrt?_of_square`: a square has a root, which is one of its two roots.
-/
import Mathlib.FieldTheory.Finite.Basic
import Mathlib.Tactic.LinearCombination
import SilentScan.Curve.Basic

namespace SilentScan

namespace Curve

/-- The field over which a curve lies. -/
abbrev BaseField (c : Curve) : Type := ZMod c.fieldPrime

variable {c : Curve}

/-- Numbers below the prime that stand for the same element are equal. -/
lemma eq_of_cast_eq {a b : ℕ} (ha : a < c.fieldPrime) (hb : b < c.fieldPrime)
    (h : (a : c.BaseField) = b) : a = b := by
  have hmod := (ZMod.natCast_eq_natCast_iff' a b c.fieldPrime).1 h
  rwa [Nat.mod_eq_of_lt ha, Nat.mod_eq_of_lt hb] at hmod

lemma cast_sub (a : ℕ) {b : ℕ} (hb : b ≤ c.fieldPrime) :
    ((c.sub a b : ℕ) : c.BaseField) = a - b := by
  rw [sub, ZMod.natCast_mod, Nat.cast_add, Nat.cast_sub hb, ZMod.natCast_self]
  ring

lemma cast_times (a b : ℕ) : ((c.times a b : ℕ) : c.BaseField) = a * b := by
  rw [times, ZMod.natCast_mod, Nat.cast_mul]

lemma cast_cubic (x : ℕ) : ((c.cubic x : ℕ) : c.BaseField) = (x : c.BaseField) ^ 3 + c.b := by
  rw [cubic, ZMod.natCast_mod, Nat.cast_add, Nat.cast_mul, ZMod.natCast_mod, Nat.cast_mul]
  ring

/-- The power by squaring is the power, if the exponent has no more binary digits than steps are
allowed for. -/
lemma cast_power (a : ℕ) {fuel e : ℕ} (he : e < 2 ^ fuel) :
    ((c.power a fuel e : ℕ) : c.BaseField) = (a : c.BaseField) ^ e := by
  induction fuel generalizing e with
  | zero =>
    obtain rfl : e = 0 := by simpa using he
    simp [power, ZMod.natCast_mod]
  | succ fuel ih =>
    have hhalf : e / 2 < 2 ^ fuel := by rw [pow_succ] at he; omega
    by_cases hzero : e = 0
    · simp [power, hzero, ZMod.natCast_mod]
    · have hsquare : ((c.times (c.power a fuel (e / 2)) (c.power a fuel (e / 2)) : ℕ) : c.BaseField)
          = (a : c.BaseField) ^ (2 * (e / 2)) := by
        rw [cast_times, ih hhalf, ← pow_add, two_mul]
      simp only [power, hzero, if_false]
      split_ifs with hodd
      · rw [cast_times, hsquare, ← pow_succ]
        congr 1
        omega
      · rw [hsquare]
        congr 1
        omega

/-! ### Inverses -/

/-- The factor that Euclid's algorithm gives to a remainder is its factor. -/
lemma cast_remainder {a : c.BaseField} {r s : ℕ} {t u : ℤ} (ht : (t : c.BaseField) * a = r)
    (hu : (u : c.BaseField) * a = s) :
    ((t - (r / s : ℕ) * u : ℤ) : c.BaseField) * a = ((r % s : ℕ) : c.BaseField) := by
  have hdiv : ((s * (r / s) + r % s : ℕ) : c.BaseField) = r := by rw [Nat.div_add_mod]
  rw [Nat.cast_add, Nat.cast_mul] at hdiv
  rw [Int.cast_sub, Int.cast_mul, Int.cast_natCast]
  linear_combination ht - ((r / s : ℕ) : c.BaseField) * hu - hdiv

/-- Euclid's algorithm finds the factor of `a` that gives one, if its remainders `r` and `s` are
the multiples of `a` by the factors `t` and `u` and have no common divisor. -/
lemma euclid_mul_eq_one {a : c.BaseField} {k fuel r s : ℕ} {t u : ℤ} (hs : s < 2 ^ k)
    (hfuel : 2 * k < fuel) (ht : (t : c.BaseField) * a = r) (hu : (u : c.BaseField) * a = s)
    (hgcd : Nat.gcd r s = 1) : ((euclid fuel r s t u : ℤ) : c.BaseField) * a = 1 := by
  induction k generalizing fuel r s t u with
  | zero =>
    obtain rfl : s = 0 := by simpa using hs
    obtain ⟨fuel, rfl⟩ : ∃ n, fuel = n + 1 := ⟨fuel - 1, by omega⟩
    rw [euclid, if_pos rfl, ht, ← Nat.gcd_zero_right r, hgcd, Nat.cast_one]
  | succ k ih =>
    obtain ⟨fuel, rfl⟩ : ∃ n, fuel = n + 2 := ⟨fuel - 2, by omega⟩
    by_cases hzero : s = 0
    · subst hzero
      rw [euclid, if_pos rfl, ht, ← Nat.gcd_zero_right r, hgcd, Nat.cast_one]
    · have hrem : Nat.gcd s (r % s) = 1 := by rwa [Nat.gcd_comm, ← Nat.gcd_rec, Nat.gcd_comm]
      have ht' := cast_remainder ht hu
      rw [euclid, if_neg hzero, euclid]
      split_ifs with hlast
      · rw [hlast, Nat.gcd_zero_right] at hrem
        rw [hu, hrem, Nat.cast_one]
      · -- The remainder of the second step is less than half of what is divided.
        have hhalf : s % (r % s) < 2 ^ k := by
          have hlt := Nat.mod_lt s (Nat.pos_of_ne_zero hlast)
          have hle : r % s < s := Nat.mod_lt r (Nat.pos_of_ne_zero hzero)
          have hdiv := Nat.div_add_mod s (r % s)
          have hone : r % s ≤ r % s * (s / (r % s)) :=
            Nat.le_mul_of_pos_right _ (Nat.div_pos hle.le (Nat.pos_of_ne_zero hlast))
          rw [pow_succ] at hs
          omega
        refine ih hhalf (by omega) ht' (cast_remainder hu ht') ?_
        rwa [Nat.gcd_comm, ← Nat.gcd_rec, Nat.gcd_comm]

variable [Fact c.fieldPrime.Prime]

lemma cast_inverse {a : ℕ} (hpos : a ≠ 0) (ha : a < c.fieldPrime) :
    ((c.inverse a : ℕ) : c.BaseField) = (a : c.BaseField)⁻¹ := by
  have hprime : c.fieldPrime.Prime := Fact.out
  have hgcd : Nat.gcd c.fieldPrime a = 1 :=
    (hprime.coprime_iff_not_dvd).2 (Nat.not_dvd_of_pos_of_lt (Nat.pos_of_ne_zero hpos) ha)
  have hbound : a < 2 ^ (c.fieldPrime.log2 + 1) := ha.trans Nat.lt_log2_self
  have hone : ((euclid (2 * c.fieldPrime.log2 + 4) c.fieldPrime a 0 1 : ℤ) : c.BaseField) * a = 1 :=
    euclid_mul_eq_one hbound (by omega) (by simp) (by simp) hgcd
  have hpositive : (c.fieldPrime : ℤ) ≠ 0 := by exact_mod_cast hprime.ne_zero
  refine eq_inv_of_mul_eq_one_left ?_
  rw [inverse, ← Int.cast_natCast, Int.toNat_of_nonneg (Int.emod_nonneg _ hpositive),
    ZMod.intCast_mod, hone]

/-! ### Square roots -/

lemma times_lt (a b : ℕ) : c.times a b < c.fieldPrime :=
  Nat.mod_lt _ (Fact.out : c.fieldPrime.Prime).pos

lemma power_lt (a fuel e : ℕ) : c.power a fuel e < c.fieldPrime := by
  have hone : 1 % c.fieldPrime < c.fieldPrime := Nat.mod_lt _ (Fact.out : c.fieldPrime.Prime).pos
  cases fuel with
  | zero => exact hone
  | succ fuel =>
    simp only [power]
    split_ifs
    · exact hone
    · exact times_lt _ _
    · exact times_lt _ _

/-- Where the prime is one below a multiple of four, a square has a root: one of the two numbers
whose square it is. -/
lemma sqrt?_of_square (hfour : c.fieldPrime % 4 = 3) {a : ℕ} {y : c.BaseField}
    (hy : (a : c.BaseField) = y ^ 2) :
    ∃ r, c.sqrt? a = some r ∧ r < c.fieldPrime
      ∧ ((r : c.BaseField) = y ∨ (r : c.BaseField) = -y) := by
  set r := c.power a (c.fieldPrime.log2 + 2) ((c.fieldPrime + 1) / 4) with hr
  have hbound : (c.fieldPrime + 1) / 4 < 2 ^ (c.fieldPrime.log2 + 2) := by
    have hlog : c.fieldPrime < 2 ^ (c.fieldPrime.log2 + 1) := Nat.lt_log2_self
    rw [pow_succ]
    omega
  have hsquare : (r : c.BaseField) ^ 2 = y ^ 2 := by
    have hexponent : 2 * ((c.fieldPrime + 1) / 4) * 2 = c.fieldPrime + 1 := by omega
    calc (r : c.BaseField) ^ 2
        = y ^ (2 * ((c.fieldPrime + 1) / 4) * 2) := by
          rw [hr, cast_power a hbound, hy, ← pow_mul, ← pow_mul, mul_assoc]
      _ = y ^ 2 := by rw [hexponent, pow_succ, ZMod.pow_card, sq]
  have hroot : c.times r r = a % c.fieldPrime := by
    refine eq_of_cast_eq (times_lt r r) (Nat.mod_lt _ (by omega)) ?_
    rw [cast_times, ← sq, hsquare, ZMod.natCast_mod, hy]
  refine ⟨r, ?_, power_lt _ _ _, sq_eq_sq_iff_eq_or_eq_neg.1 hsquare⟩
  rw [sqrt?, if_pos hroot]

end Curve
end SilentScan
