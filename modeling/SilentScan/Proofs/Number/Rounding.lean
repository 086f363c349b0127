/-
Rounding to binary numbers.

A result is rounded by scaling the exact ratio so that it has 53 binary digits before the point and
taking the nearest whole number. So the rounded number is off by at most half a unit of the last of
these digits, and it is finite unless the ratio comes as close to the first power of two beyond the
range as that.

* `Double.value`: the magnitude of a number;
* `binaryOrder_spec`, `roundHalfEven_spec`: the two steps of rounding;
* `Rounded`, `isFinite_pack`, `value_pack_le`: numbers put together from a mantissa and a scale;
* `isFinite_ofRatio`, `value_ofRatio_le`, `value_ofNat_le`: what is known of a rounded number.
-/
import Mathlib.Algebra.Order.Field.Basic
import Mathlib.Algebra.Order.Field.Power
import Mathlib.Algebra.Order.Field.Rat
import Mathlib.Tactic.FieldSimp
import Mathlib.Tactic.Linarith
import Mathlib.Tactic.NormNum
import Mathlib.Tactic.Ring
import SilentScan.Number.Double

namespace SilentScan.Double

/-- The magnitude of a number. -/
def value (d : Double) : ℚ :=
  d.mantissa * (2 : ℚ) ^ d.scale

/-- Half a unit beyond the largest number: magnitudes below are rounded to numbers. -/
def bound : ℚ :=
  2 ^ (1024 : Int) - 2 ^ (970 : Int)

lemma bound_eq : bound = (2 ^ 53 - 1 / 2) * 2 ^ (971 : Int) := by
  have hhalf : (2 : ℚ) ^ (971 : Int) = 2 ^ (970 : Int) * 2 := zpow_add_one₀ two_ne_zero 970
  have htop : (2 : ℚ) ^ (1024 : Int) = 2 ^ (54 : Int) * 2 ^ (970 : Int) :=
    zpow_add₀ two_ne_zero 54 970
  rw [bound, hhalf, htop]
  generalize (2 : ℚ) ^ (970 : Int) = unit
  norm_num
  ring

lemma natCast_lt_bound {n : Nat} (h : n + 2 ^ 970 < 2 ^ 1024) : (n : ℚ) < bound := by
  have hcast : ((n + 2 ^ 970 : Nat) : ℚ) < (2 ^ 1024 : Nat) := Nat.cast_lt.2 h
  rw [Nat.cast_add, Nat.cast_pow, Nat.cast_pow, Nat.cast_ofNat] at hcast
  rw [bound, zpow_ofNat, zpow_ofNat]
  exact lt_sub_iff_add_lt.2 hcast

lemma two_pow_mul_zpow (k : Nat) (e : Int) : ((2 ^ k : Nat) : ℚ) * 2 ^ e = 2 ^ (k + e) := by
  rw [Nat.cast_pow, Nat.cast_ofNat, ← zpow_natCast, ← zpow_add₀ two_ne_zero]

/-! ### The steps of rounding -/

/-- Dividing by a power of two, as a ratio. -/
lemma descale_spec (num : Nat) {den : Nat} (hden : 0 < den) (e : Int) :
    0 < (descale num den e).2
      ∧ ((descale num den e).1 : ℚ) / (descale num den e).2 = num / den / (2 : ℚ) ^ e := by
  have hpos : (0 : ℚ) < den := by exact_mod_cast hden
  rw [descale]
  split
  · rename_i he
    obtain ⟨k, rfl⟩ := Int.eq_ofNat_of_zero_le he
    refine ⟨by simp [Nat.shiftLeft_eq, hden], ?_⟩
    simp only [Int.toNat_natCast, Nat.shiftLeft_eq, Nat.cast_mul,
      Nat.cast_pow, Nat.cast_ofNat, zpow_natCast]
    rw [div_div]
  · rename_i he
    obtain ⟨k, hk⟩ : ∃ k : Nat, e = -k := ⟨(-e).toNat, by omega⟩
    subst hk
    refine ⟨hden, ?_⟩
    simp only [neg_neg, Int.toNat_natCast, Nat.shiftLeft_eq, Nat.cast_mul, Nat.cast_pow,
      Nat.cast_ofNat, zpow_neg, zpow_natCast, div_inv_eq_mul]
    ring

/-- The magnitude as a ratio. -/
lemma ratio_spec (d : Double) :
    0 < d.ratio.2 ∧ (d.ratio.1 : ℚ) / d.ratio.2 = d.value := by
  obtain ⟨hpos, hratio⟩ := descale_spec d.mantissa Nat.one_pos (-d.scale)
  refine ⟨hpos, hratio.trans ?_⟩
  rw [value, zpow_neg, div_inv_eq_mul, Nat.cast_one, div_one]

/-- **The leading power of two** of a ratio. -/
lemma binaryOrder_spec {num den : Nat} (hnum : 0 < num) (hden : 0 < den) :
    (2 : ℚ) ^ binaryOrder num den ≤ num / den
      ∧ (num / den : ℚ) < (2 : ℚ) ^ (binaryOrder num den + 1) := by
  have hpos : (0 : ℚ) < den := by exact_mod_cast hden
  have hnumLow : (2 : ℚ) ^ num.log2 ≤ num := by exact_mod_cast Nat.log2_self_le hnum.ne'
  have hnumHigh : (num : ℚ) < 2 ^ (num.log2 + 1) := by exact_mod_cast Nat.lt_log2_self
  have hdenLow : (2 : ℚ) ^ den.log2 ≤ den := by exact_mod_cast Nat.log2_self_le hden.ne'
  have hdenHigh : (den : ℚ) < 2 ^ (den.log2 + 1) := by exact_mod_cast Nat.lt_log2_self
  obtain ⟨guess, hguess⟩ : ∃ guess : Int, guess = (num.log2 : Int) - den.log2 := ⟨_, rfl⟩
  obtain ⟨hscaled, hratio⟩ := descale_spec num hden guess
  have hscaled' : (0 : ℚ) < (descale num den guess).2 := by exact_mod_cast hscaled
  have htwo : (0 : ℚ) < (2 : ℚ) ^ guess := by positivity
  have hlow : (2 : ℚ) ^ (guess - 1) ≤ num / den := by
    rw [le_div_iff₀ hpos]
    calc (2 : ℚ) ^ (guess - 1) * den ≤ (2 : ℚ) ^ (guess - 1) * 2 ^ (den.log2 + 1) := by gcongr
      _ = (2 : ℚ) ^ num.log2 := by
          rw [← zpow_natCast, ← zpow_add₀ two_ne_zero, ← zpow_natCast]
          congr 1
          push_cast
          omega
      _ ≤ num := hnumLow
  have hhigh : (num / den : ℚ) < (2 : ℚ) ^ (guess + 1) := by
    rw [div_lt_iff₀ hpos]
    calc (num : ℚ) < 2 ^ (num.log2 + 1) := hnumHigh
      _ = (2 : ℚ) ^ (guess + 1) * 2 ^ den.log2 := by
          rw [← zpow_natCast, ← zpow_natCast, ← zpow_add₀ two_ne_zero]
          congr 1
          push_cast
          omega
      _ ≤ (2 : ℚ) ^ (guess + 1) * den := by gcongr
  -- the guess is right if the ratio scaled by it has come to at least one
  have hcompare : (descale num den guess).2 ≤ (descale num den guess).1
      ↔ (2 : ℚ) ^ guess ≤ num / den := by
    rw [← one_le_div₀ htwo, ← hratio, one_le_div₀ hscaled']
    exact_mod_cast Iff.rfl
  simp only [binaryOrder, ← hguess]
  split
  · exact ⟨hcompare.1 ‹_›, hhigh⟩
  · rename_i hless
    have hsmall : (num / den : ℚ) < (2 : ℚ) ^ guess := not_le.1 (mt hcompare.2 hless)
    exact ⟨hlow, by simpa using hsmall⟩

/-- **Rounding to a whole number** is off by at most a half. -/
lemma roundHalfEven_spec (num : Nat) {den : Nat} (hden : 0 < den) :
    (num / den : ℚ) - 1 / 2 ≤ roundHalfEven num den
      ∧ (roundHalfEven num den : ℚ) ≤ num / den + 1 / 2 := by
  have hpos : (0 : ℚ) < den := by exact_mod_cast hden
  have hsplit : (num : ℚ) = den * (num / den : Nat) + (num % den : Nat) := by
    exact_mod_cast (Nat.div_add_mod num den).symm
  have hdiv : (num / den : ℚ) = (num / den : Nat) + (num % den : Nat) / den := by
    rw [hsplit]
    field_simp
  have hmod : ((num % den : Nat) : ℚ) < den := by exact_mod_cast Nat.mod_lt num hden
  simp only [roundHalfEven]
  split
  · rename_i hup
    have hhalf : (den : ℚ) ≤ 2 * (num % den : Nat) := by
      have : den ≤ 2 * (num % den) := by omega
      exact_mod_cast this
    have hge : (1 / 2 : ℚ) ≤ (num % den : Nat) / den := by
      rw [le_div_iff₀ hpos]
      linarith
    have hle : ((num % den : Nat) : ℚ) / den ≤ 1 := by
      rw [div_le_one hpos]
      exact hmod.le
    rw [hdiv]
    push_cast
    constructor <;> linarith
  · rename_i hdown
    have hhalf : (2 : ℚ) * (num % den : Nat) ≤ den := by
      have : 2 * (num % den) ≤ den := by omega
      exact_mod_cast this
    have hle : ((num % den : Nat) : ℚ) / den ≤ 1 / 2 := by
      rw [div_le_iff₀ hpos]
      linarith
    have hge : (0 : ℚ) ≤ ((num % den : Nat) : ℚ) / den := by positivity
    rw [hdiv]
    constructor <;> linarith

/-! ### Bits -/

lemma exponentField_eq (d : Double) : d.exponentField = d.magnitude / fractionSize := by
  simp only [exponentField, magnitude, fractionSize, signBit]
  omega

lemma fraction_eq (d : Double) : d.fraction = d.magnitude % fractionSize := by
  simp only [fraction, magnitude, fractionSize, signBit]
  omega

/-- The value of a number whose bits have been put together from a mantissa and a scale. -/
lemma value_of_magnitude {d : Double} {place q : Nat} (h : d.magnitude = place * fractionSize + q)
    (hq : q ≤ 2 * fractionSize) (hnormal : fractionSize ≤ q ∨ place = 0) :
    d.value = q * (2 : ℚ) ^ ((place : Int) - 1074) := by
  have hfield : d.exponentField = (place * fractionSize + q) / fractionSize := by
    rw [exponentField_eq, h]
  have hfraction : d.fraction = (place * fractionSize + q) % fractionSize := by
    rw [fraction_eq, h]
  simp only [value, mantissa, scale]
  rcases hq.eq_or_lt with rfl | hq
  · -- the carry: the mantissa has grown to the next power of two
    have hfield' : d.exponentField = place + 2 := by
      rw [hfield]
      simp only [fractionSize]
      omega
    have hfraction' : d.fraction = 0 := by
      rw [hfraction]
      simp only [fractionSize]
      omega
    rw [hfield', hfraction', if_neg (by omega), if_neg (by omega)]
    have hscale : ((place + 2 : Nat) : Int) - 1075 = 1 + (place - 1074) := by
      push_cast
      omega
    rw [hscale, zpow_add₀ two_ne_zero]
    push_cast
    ring
  · by_cases hsize : fractionSize ≤ q
    · have hfield' : d.exponentField = place + 1 := by
        rw [hfield]
        simp only [fractionSize] at hq hsize ⊢
        omega
      have hfraction' : d.fraction + fractionSize = q := by
        rw [hfraction]
        simp only [fractionSize] at hq hsize ⊢
        omega
      rw [hfield', if_neg (by omega), if_neg (by omega), hfraction']
      have hscale : ((place + 1 : Nat) : Int) - 1075 = place - 1074 := by
        push_cast
        omega
      rw [hscale]
    · obtain rfl : place = 0 := hnormal.resolve_left hsize
      have hfield' : d.exponentField = 0 := by
        rw [hfield]
        simp only [fractionSize] at hsize ⊢
        omega
      have hfraction' : d.fraction = q := by
        rw [hfraction]
        simp only [fractionSize] at hsize ⊢
        omega
      rw [hfield', if_pos rfl, if_pos rfl, hfraction']
      rfl

lemma magnitude_pack (negative : Bool) (q : Nat) (e : Int) :
    (pack negative q e).magnitude
      = min ((e + 1074).toNat * fractionSize + q) (2047 * fractionSize) := by
  have hle : min ((e + 1074).toNat * fractionSize + q) (2047 * fractionSize)
      ≤ 2047 * fractionSize := min_le_right _ _
  simp only [pack, magnitude, UInt64.toNat_ofNat']
  generalize min ((e + 1074).toNat * fractionSize + q) (2047 * fractionSize) = m at hle
  simp only [fractionSize, signBit] at hle ⊢
  split <;> omega

lemma isFinite_iff (d : Double) (h : d.magnitude ≤ 2047 * fractionSize) :
    d.isFinite = true ↔ d.magnitude < 2047 * fractionSize := by
  rw [isFinite, exponentField_eq, decide_eq_true_eq]
  simp only [fractionSize] at h ⊢
  omega

/-! ### Rounded numbers -/

/-- That a mantissa and a scale are those to which a ratio is rounded. -/
structure Rounded (x : ℚ) (q : Nat) (e : Int) : Prop where
  least : -1074 ≤ e
  carry : q ≤ 2 * fractionSize
  normal : fractionSize ≤ q ∨ e = -1074
  below : x - 2 ^ e / 2 ≤ q * (2 : ℚ) ^ e
  above : q * (2 : ℚ) ^ e ≤ x + 2 ^ e / 2
  ulp : (2 : ℚ) ^ (e + 52) ≤ x ∨ e = -1074

/-- **Rounding** yields the number put together from such a mantissa and scale. -/
lemma exists_rounded (negative : Bool) {num den : Nat} (hnum : 0 < num) (hden : 0 < den) :
    ∃ q e, ofRatio negative num den = pack negative q e ∧ Rounded (num / den) q e := by
  obtain ⟨hlow, hhigh⟩ := binaryOrder_spec hnum hden
  obtain ⟨e, he⟩ : ∃ e : Int, e = Max.max (binaryOrder num den - 52) (-1074) := ⟨_, rfl⟩
  obtain ⟨hden', hratio⟩ := descale_spec num hden e
  obtain ⟨hbelow, habove⟩ := roundHalfEven_spec (descale num den e).1 hden'
  rw [hratio] at hbelow habove
  have hunit : (0 : ℚ) < 2 ^ e := zpow_pos two_pos _
  have hx : (num / den : ℚ) / 2 ^ e * 2 ^ e = num / den := div_mul_cancel₀ _ hunit.ne'
  refine ⟨roundHalfEven (descale num den e).1 (descale num den e).2, e, ?_, ?_⟩
  · rw [ofRatio, if_neg hnum.ne', ← he]
  · have hscaled : (num / den : ℚ) / 2 ^ e < 2 ^ 53 := by
      rw [div_lt_iff₀ hunit, ← zpow_natCast, ← zpow_add₀ two_ne_zero]
      exact hhigh.trans_le (zpow_le_zpow_right₀ one_le_two (by push_cast; omega))
    refine ⟨by omega, ?_, ?_, ?_, ?_, ?_⟩
    · have : (roundHalfEven (descale num den e).1 (descale num den e).2 : ℚ)
          < (2 ^ 53 + 1 : Nat) := by
        push_cast
        linarith
      have := Nat.cast_lt.1 this
      simp only [fractionSize]
      omega
    · rcases le_total (binaryOrder num den - 52) (-1074) with hsmall | hlarge
      · exact .inr (by omega)
      · refine .inl ?_
        have hge : (2 : ℚ) ^ 52 ≤ num / den / 2 ^ e := by
          rw [le_div_iff₀ hunit, ← zpow_natCast, ← zpow_add₀ two_ne_zero]
          exact (zpow_le_zpow_right₀ one_le_two (by push_cast; omega)).trans hlow
        have : ((2 ^ 52 - 1 : Nat) : ℚ)
            < roundHalfEven (descale num den e).1 (descale num den e).2 := by
          push_cast
          linarith
        have := Nat.cast_lt.1 this
        simp only [fractionSize]
        omega
    · calc (num / den : ℚ) - 2 ^ e / 2 = (num / den / 2 ^ e - 1 / 2) * 2 ^ e := by
            rw [sub_mul, hx]
            ring
        _ ≤ _ := mul_le_mul_of_nonneg_right hbelow hunit.le
    · calc _ ≤ (num / den / 2 ^ e + 1 / 2) * (2 : ℚ) ^ e :=
            mul_le_mul_of_nonneg_right habove hunit.le
        _ = num / den + 2 ^ e / 2 := by
            rw [add_mul, hx]
            ring
    · rcases le_total (binaryOrder num den - 52) (-1074) with hsmall | hlarge
      · exact .inr (by omega)
      · refine .inl (le_trans (zpow_le_zpow_right₀ one_le_two ?_) hlow)
        omega

namespace Rounded

variable {x : ℚ} {q : Nat} {e : Int} (h : Rounded x q e) (negative : Bool)
include h

/-- The scale as the bits hold it. -/
lemma exists_place : ∃ place : Nat, e = place - 1074 ∧ (e + 1074).toNat = place
    ∧ (fractionSize ≤ q ∨ place = 0) := by
  obtain ⟨place, hplace⟩ : ∃ place : Nat, e = place - 1074 :=
    ⟨(e + 1074).toNat, by have := h.least; omega⟩
  exact ⟨place, hplace, by omega, h.normal.imp_right (by omega)⟩

/-- Within the range the number is what has been put together. -/
lemma value_pack (hfinite : (pack negative q e).isFinite = true) :
    (pack negative q e).value = q * (2 : ℚ) ^ e := by
  obtain ⟨place, he, hplace, hnormal⟩ := h.exists_place
  have hmagnitude := magnitude_pack negative q e
  have hless := (isFinite_iff _ (hmagnitude ▸ min_le_right _ _)).1 hfinite
  rw [hmagnitude, min_lt_iff, or_iff_left (lt_irrefl _)] at hless
  rw [min_eq_left hless.le, hplace] at hmagnitude
  rw [value_of_magnitude hmagnitude h.carry hnormal, he]

/-- What does not fit comes from beyond the range. -/
lemma overflow_le (hinfinite : (pack negative q e).isFinite ≠ true) :
    (2 : ℚ) ^ (1024 : Int) ≤ q * (2 : ℚ) ^ e := by
  obtain ⟨place, he, hplace, hnormal⟩ := h.exists_place
  have hmagnitude := magnitude_pack negative q e
  have hge := mt (isFinite_iff _ (hmagnitude ▸ min_le_right _ _)).2 hinfinite
  rw [hmagnitude, min_lt_iff, or_iff_left (lt_irrefl _), not_lt, hplace] at hge
  have hcarry := h.carry
  have hunit : (0 : ℚ) < 2 ^ e := zpow_pos two_pos _
  simp only [fractionSize] at hge hcarry hnormal
  have hcases : (2 ^ 52 ≤ q ∧ 972 ≤ e) ∨ (2 ^ 53 ≤ q ∧ 971 ≤ e) := by omega
  rcases hcases with ⟨hq, he⟩ | ⟨hq, he⟩
  · calc (2 : ℚ) ^ (1024 : Int) = ((2 ^ 52 : Nat) : ℚ) * 2 ^ (972 : Int) :=
          (two_pow_mul_zpow 52 972).symm
      _ ≤ q * 2 ^ e := by
          gcongr
          exact one_le_two
  · calc (2 : ℚ) ^ (1024 : Int) = ((2 ^ 53 : Nat) : ℚ) * 2 ^ (971 : Int) :=
          (two_pow_mul_zpow 53 971).symm
      _ ≤ q * 2 ^ e := by
          gcongr
          exact one_le_two

/-- A ratio below the bound is rounded to a number within the range. -/
lemma isFinite_pack (hx : x < bound) : (pack negative q e).isFinite = true := by
  by_contra hinfinite
  have hover := h.overflow_le negative hinfinite
  have habove := h.above
  have hhalf : (2 : ℚ) ^ (971 : Int) = 2 ^ (970 : Int) * 2 := zpow_add_one₀ two_ne_zero 970
  rw [bound] at hx
  rcases le_or_gt e 971 with he | he
  · have hunit : (2 : ℚ) ^ e ≤ 2 ^ (971 : Int) := zpow_le_zpow_right₀ one_le_two he
    generalize (2 : ℚ) ^ (1024 : Int) = top at hx hover
    generalize (2 : ℚ) ^ (970 : Int) = half at hx hhalf
    rw [hhalf] at hunit
    linarith
  · have hlarge : (2 : ℚ) ^ (1024 : Int) ≤ 2 ^ (e + 52) := zpow_le_zpow_right₀ one_le_two (by omega)
    have hpos : (0 : ℚ) < 2 ^ (970 : Int) := zpow_pos two_pos _
    have hulp := h.ulp.resolve_right (by omega)
    exact absurd (hlarge.trans hulp) (not_le.2 (hx.trans (sub_lt_self _ hpos)))

/-- The number is at most what has been put together. -/
lemma value_pack_le : (pack negative q e).value ≤ q * (2 : ℚ) ^ e := by
  by_cases hfinite : (pack negative q e).isFinite = true
  · exact (h.value_pack negative hfinite).le
  · have hmagnitude := magnitude_pack negative q e
    have hge := mt (isFinite_iff _ (hmagnitude ▸ min_le_right _ _)).2 hfinite
    rw [hmagnitude, min_lt_iff, or_iff_left (lt_irrefl _), not_lt] at hge
    rw [min_eq_right hge] at hmagnitude
    have hvalue : (pack negative q e).value = 2 ^ (1024 : Int) := by
      have hsplit : (pack negative q e).magnitude = 2046 * fractionSize + fractionSize := by
        rw [hmagnitude]
        rfl
      rw [value_of_magnitude hsplit (by simp [fractionSize]) (.inl le_rfl)]
      exact two_pow_mul_zpow 52 972
    rw [hvalue]
    exact h.overflow_le negative hfinite

/-- A ratio that is not below one is moved by rounding by a small part only. -/
lemma unit_le (hx : 1 ≤ x) : (2 : ℚ) ^ e / 2 ≤ x / 2 ^ 53 := by
  have hunit : (2 : ℚ) ^ e ≤ x / 2 ^ 52 := by
    rw [le_div_iff₀ (by norm_num), ← zpow_natCast, ← zpow_add₀ two_ne_zero]
    rcases h.ulp with hulp | he
    · exact_mod_cast hulp
    · refine le_trans ?_ hx
      exact (zpow_le_zpow_right₀ one_le_two (by omega)).trans_eq (zpow_zero 2)
  linarith

end Rounded

/-! ### What is known of a rounded number -/

/-- Rounding stays within the range below the bound. -/
lemma isFinite_ofRatio (negative : Bool) {num den : Nat} (hden : 0 < den)
    (h : (num / den : ℚ) < bound) : (ofRatio negative num den).isFinite = true := by
  rcases Nat.eq_zero_or_pos num with rfl | hnum
  · rw [ofRatio, if_pos rfl]
    cases negative <;> decide
  · obtain ⟨q, e, heq, hrounded⟩ := exists_rounded negative hnum hden
    rw [heq]
    exact hrounded.isFinite_pack negative h

lemma value_zero (negative : Bool) : (zero negative).value = 0 := by
  have hmantissa : (zero negative).mantissa = 0 := by cases negative <;> decide
  simp [value, hmantissa]

/-- A rounded number is not much larger. -/
lemma value_ofRatio_le (negative : Bool) (num : Nat) {den : Nat} (hden : 0 < den) :
    (ofRatio negative num den).value ≤ 2 * (num / den) + 1 := by
  have hx : (0 : ℚ) ≤ num / den := by positivity
  rcases Nat.eq_zero_or_pos num with rfl | hnum
  · rw [ofRatio, if_pos rfl, value_zero]
    positivity
  · obtain ⟨q, e, heq, hrounded⟩ := exists_rounded negative hnum hden
    have hunit : (2 : ℚ) ^ e ≤ num / den + 1 := by
      rcases hrounded.ulp with hulp | he
      · have : (2 : ℚ) ^ e ≤ 2 ^ (e + 52) := zpow_le_zpow_right₀ one_le_two (by omega)
        linarith
      · have : (2 : ℚ) ^ e ≤ 2 ^ (0 : Int) := zpow_le_zpow_right₀ one_le_two (by omega)
        rw [zpow_zero] at this
        linarith
    rw [heq]
    have hpacked := hrounded.value_pack_le negative
    have habove := hrounded.above
    linarith

/-- A rounded natural is larger by a small part only. -/
lemma value_ofNat_le (n : Nat) : (ofNat n).value ≤ n * (1 + 1 / 2 ^ 53) := by
  rcases Nat.eq_zero_or_pos n with rfl | hn
  · rw [ofNat, ofRatio, if_pos rfl, value_zero]
    simp
  · obtain ⟨q, e, heq, hrounded⟩ := exists_rounded false hn Nat.one_pos
    rw [Nat.cast_one, div_one] at hrounded
    have hunit := hrounded.unit_le (by exact_mod_cast hn)
    have hpacked := hrounded.value_pack_le false
    have habove := hrounded.above
    rw [ofNat, heq]
    linarith

/-- A rounded natural is not much smaller. -/
lemma le_value_ofNat {n : Nat} (h : (n : ℚ) < bound) : (n : ℚ) / 2 ≤ (ofNat n).value := by
  rcases Nat.eq_zero_or_pos n with rfl | hn
  · rw [ofNat, ofRatio, if_pos rfl, value_zero]
    simp
  · obtain ⟨q, e, heq, hrounded⟩ := exists_rounded false hn Nat.one_pos
    rw [Nat.cast_one, div_one] at hrounded
    have hn' : (1 : ℚ) ≤ n := by exact_mod_cast hn
    have hunit := hrounded.unit_le hn'
    have hbelow := hrounded.below
    rw [ofNat, heq, hrounded.value_pack false (hrounded.isFinite_pack false h)]
    linarith

end SilentScan.Double
