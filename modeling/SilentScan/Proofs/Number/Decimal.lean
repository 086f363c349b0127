/-
Decimals and binary numbers.

The reader of a decimal multiplies or divides by a rounded power of ten, and gives up where the
product does not fit. It never gives up on a decimal that was printed: the digits and the power of
ten of a finite number lie within the interval that rounds to the number, and the two roundings of
the reader move the product by less than what the interval leaves below the bound. Only at the two
largest numbers this is too tight, and there the reader is run.

* `isFinite_of_scaled`: what the reader makes of a decimal is finite;
* `shortest_spec`: the digits and the power of ten of a number;
* `isSome_scaled_shortest`: the reader takes them.
-/
import Mathlib.Data.Nat.Cast.Order.Field
import SilentScan.Json.Draft
import SilentScan.Number.Shortest
import SilentScan.Proofs.Number.Rounding

namespace SilentScan

open Double

/-! ### Products and quotients -/

lemma Double.mul_eq (a b : Double) :
    a.mul b = ofRatio (a.negative != b.negative) (a.ratio.1 * b.ratio.1) (a.ratio.2 * b.ratio.2) :=
  rfl

lemma Double.div_eq (a b : Double) :
    a.div b = ofRatio (a.negative != b.negative) (a.ratio.1 * b.ratio.2) (a.ratio.2 * b.ratio.1) :=
  rfl

lemma Double.isFinite_mul {a b : Double} (h : a.value * b.value < bound) :
    (a.mul b).isFinite = true := by
  obtain ⟨hden, hratio⟩ := ratio_spec a
  obtain ⟨hden', hratio'⟩ := ratio_spec b
  rw [mul_eq]
  refine isFinite_ofRatio _ (Nat.mul_pos hden hden') ?_
  rw [Nat.cast_mul, Nat.cast_mul, mul_div_mul_comm, hratio, hratio']
  exact h

/-- The ratio that a quotient is rounded from. -/
lemma Double.quotient_spec {a b : Double} (hb : 0 < b.value) :
    0 < a.ratio.2 * b.ratio.1
      ∧ ((a.ratio.1 * b.ratio.2 : Nat) : ℚ) / (a.ratio.2 * b.ratio.1 : Nat)
        = a.value / b.value := by
  obtain ⟨hden, hratio⟩ := ratio_spec a
  obtain ⟨hden', hratio'⟩ := ratio_spec b
  have hnum : 0 < b.ratio.1 := by
    by_contra hzero
    rw [Nat.eq_zero_of_not_pos hzero, Nat.cast_zero, zero_div] at hratio'
    exact hb.ne hratio'
  refine ⟨Nat.mul_pos hden hnum, ?_⟩
  rw [← hratio, ← hratio', div_div_div_eq, Nat.cast_mul, Nat.cast_mul]

lemma Double.isFinite_div {a b : Double} (hb : 0 < b.value) (h : a.value / b.value < bound) :
    (a.div b).isFinite = true := by
  obtain ⟨hden, hratio⟩ := quotient_spec (a := a) hb
  rw [div_eq]
  exact isFinite_ofRatio _ hden (hratio.symm ▸ h)

lemma Double.value_div_le {a b : Double} (hb : 0 < b.value) :
    (a.div b).value ≤ 2 * (a.value / b.value) + 1 := by
  obtain ⟨hden, hratio⟩ := quotient_spec (a := a) hb
  rw [← hratio, div_eq]
  exact value_ofRatio_le _ _ hden

/-! ### The reader of decimals -/

namespace Draft

/-- A power of ten within the range. -/
lemma power_lt_bound {k : Nat} (h : k ≤ 308) : ((10 ^ k : Nat) : ℚ) < bound := by
  obtain ⟨limit, hlimit, htop⟩ : ∃ limit, 308 ≤ limit ∧ 10 ^ limit + 2 ^ 970 < 2 ^ 1024 :=
    ⟨308, le_rfl, by decide +kernel⟩
  have hle : 10 ^ k ≤ 10 ^ limit := Nat.pow_le_pow_right (by norm_num) (h.trans hlimit)
  exact natCast_lt_bound (lt_of_le_of_lt (Nat.add_le_add_right hle _) htop)

/-- A power of ten does not round to less than a half. -/
lemma half_le_power {k : Nat} (h : k ≤ 308) : 1 / 2 ≤ (ofNat (Nat.pow 10 k)).value := by
  have hone : (1 : ℚ) ≤ (10 ^ k : Nat) := by exact_mod_cast Nat.one_le_pow' k 9
  have hvalue : ((10 ^ k : Nat) : ℚ) / 2 ≤ (ofNat (Nat.pow 10 k)).value :=
    le_value_ofNat (power_lt_bound h)
  linarith

lemma value_nonneg (d : Double) : 0 ≤ d.value :=
  mul_nonneg (Nat.cast_nonneg _) (zpow_pos two_pos _).le

/-- Dividing by a power of ten at most doubles a number. -/
lemma quotient_power_le (f : Double) {k : Nat} (h : k ≤ 308) :
    f.value / (ofNat (Nat.pow 10 k)).value ≤ 2 * f.value := by
  have hhalf := half_le_power h
  have hf := value_nonneg f
  rw [div_le_iff₀ (by linarith)]
  nlinarith

lemma value_div_power_le (f : Double) {k : Nat} (h : k ≤ 308) :
    (f.div (ofNat (Nat.pow 10 k))).value ≤ 4 * f.value + 1 := by
  have hvalue := value_div_le (a := f) (one_half_pos.trans_le (half_le_power h))
  have hquotient := quotient_power_le f h
  linarith

/-- Dividing in steps stays within the range. -/
lemma isFinite_of_down {f r : Double} {k steps : Nat} (hf : f.isFinite = true)
    (hsmall : (f.value + 1) * 4 ^ steps < bound) (h : scaled.down f k steps = some r) :
    r.isFinite = true := by
  have hpos := value_nonneg f
  induction steps generalizing f k with
  | zero =>
    cases h
    exact hf
  | succ steps ih =>
    have hpower : (1 : ℚ) ≤ 4 ^ steps := one_le_pow₀ (by norm_num)
    have hdouble : 2 * f.value < bound := by
      rw [pow_succ] at hsmall
      nlinarith
    have hfinite : ∀ {j}, j ≤ 308 → (f.div (ofNat (Nat.pow 10 j))).isFinite = true := fun hj =>
      isFinite_div (one_half_pos.trans_le (half_le_power hj))
        ((quotient_power_le f hj).trans_lt hdouble)
    have hnext : ∀ {j}, j ≤ 308 →
        ((f.div (ofNat (Nat.pow 10 j))).value + 1) * 4 ^ steps < bound := by
      intro j hj
      have hvalue := value_div_power_le f hj
      rw [pow_succ] at hsmall
      nlinarith
    rw [scaled.down] at h
    split at h
    · cases h
      exact hfinite ‹_›
    · split at h
      · cases h
        exact hf
      · exact ih (@hfinite 308 le_rfl) (@hnext 308 le_rfl) h (value_nonneg _)

/-- **What the reader makes of a decimal** is within the range. -/
lemma isFinite_of_scaled {c : Nat} {e : Int} {r : Double} (hc : c ≤ wordMax)
    (h : scaled c e = some r) : r.isFinite = true := by
  have hword : (c : ℚ) ≤ wordMax := by exact_mod_cast hc
  have hbound : ((wordMax : ℚ) + 1) * 512 < bound := by
    have hlimit : (wordMax + 1) * 512 + 2 ^ 970 < 2 ^ 1024 := by decide +kernel
    exact_mod_cast natCast_lt_bound hlimit
  have hpos : (0 : ℚ) ≤ c := Nat.cast_nonneg c
  have hfinite : (ofNat c).isFinite = true := by
    refine isFinite_ofRatio _ Nat.one_pos ?_
    rw [Nat.cast_one, div_one]
    linarith
  have hvalue : (ofNat c).value ≤ 2 * c := by
    refine (value_ofNat_le c).trans ?_
    nlinarith
  simp only [scaled] at h
  split at h
  · split at h
    · split at h
      · cases h
        assumption
      · cases h
    · split at h
      · cases h
        exact hfinite
      · cases h
  · refine isFinite_of_down hfinite ?_ h
    linarith

end Draft

/-! ### The shortest digits -/

namespace Shortest

/-- The size of a unit of an interval. -/
def Interval.unit (i : Interval) : ℚ :=
  i.unitNum / i.unitDen

/-- What the factors of a grid stand for. -/
lemma gridFactors_spec {i : Interval} (hden : 0 < i.unitDen) (k : Int) :
    0 < (gridFactors i k).2
      ∧ ((gridFactors i k).1 : ℚ) / (gridFactors i k).2 = i.unit / (10 : ℚ) ^ k := by
  rw [gridFactors, Interval.unit]
  split
  · rename_i hk
    obtain ⟨j, rfl⟩ := Int.eq_ofNat_of_zero_le hk
    refine ⟨Nat.mul_pos hden (by simp), ?_⟩
    simp [div_div]
  · rename_i hk
    obtain ⟨j, hj⟩ : ∃ j : Nat, k = -j := ⟨(-k).toNat, by omega⟩
    subst hj
    refine ⟨hden, ?_⟩
    simp only [neg_neg, Int.toNat_natCast, zpow_neg, zpow_natCast, div_inv_eq_mul]
    simp [mul_div_right_comm]

lemma holds_spec {i : Interval} {a b c : Nat} (h : holds i a b c = true) :
    i.low * a ≤ c * b ∧ c * b ≤ i.high * a := by
  rw [holds] at h
  split at h <;> simp only [Bool.and_eq_true, decide_eq_true_eq] at h <;> omega

/-- A grid point that reads back is one of the two neighbours. -/
lemma hit?_cases {i : Interval} {k : Int} {c : Nat} (h : hit? i k = some c) :
    holds i (gridFactors i k).1 (gridFactors i k).2 c = true
      ∧ c ≤ i.value * (gridFactors i k).1 / (gridFactors i k).2 + 1 := by
  simp only [hit?] at h
  split at h
  · cases h
  · cases h
    exact ⟨‹_›, Nat.le_succ _⟩
  · cases h
    exact ⟨‹_›, le_rfl⟩
  · split at h
    · cases h
      exact ⟨‹_›, Nat.le_succ _⟩
    · cases h
      exact ⟨‹_›, le_rfl⟩

/-- A grid point that reads back lies in the interval, and it is not above the second neighbour. -/
lemma hit?_spec {i : Interval} (hden : 0 < i.unitDen) {k : Int} {c : Nat} (h : hit? i k = some c) :
    i.low * i.unit ≤ c * (10 : ℚ) ^ k ∧ c * (10 : ℚ) ^ k ≤ i.high * i.unit
      ∧ (c : ℚ) ≤ i.value * i.unit / (10 : ℚ) ^ k + 1 := by
  obtain ⟨hholds, hneighbour⟩ := hit?_cases h
  obtain ⟨hpos, hratio⟩ := gridFactors_spec hden k
  obtain ⟨hlow, hhigh⟩ := holds_spec hholds
  generalize (gridFactors i k).1 = a at *
  generalize (gridFactors i k).2 = b at *
  have hgrid : (0 : ℚ) < 10 ^ k := zpow_pos (by norm_num) k
  have hb : (0 : ℚ) < b := by exact_mod_cast hpos
  have hunit : ∀ n : Nat, (n : ℚ) * i.unit / 10 ^ k = n * a / b := fun n => by
    rw [mul_div_assoc, ← hratio, mul_div_assoc]
  refine ⟨?_, ?_, ?_⟩
  · rw [← div_le_iff₀ hgrid, hunit, div_le_iff₀ hb]
    exact_mod_cast hlow
  · rw [← le_div_iff₀ hgrid, hunit, le_div_iff₀ hb]
    exact_mod_cast hhigh
  · rw [hunit]
    have hcast : (c : ℚ) ≤ (i.value * a / b : Nat) + 1 := by exact_mod_cast hneighbour
    have hfloor : ((i.value * a / b : Nat) : ℚ) ≤ (i.value * a : Nat) / b := Nat.cast_div_le
    rw [Nat.cast_mul] at hfloor
    linarith

/-- The search comes back with a grid point, if with anything. -/
lemma search_cases (i : Interval) (k : Int) (tries : Nat) :
    search i k tries = (0, 0)
      ∨ ∃ t < tries, (search i k tries).2 = k - t
          ∧ hit? i (k - t) = some (search i k tries).1 := by
  induction tries generalizing k with
  | zero => exact .inl rfl
  | succ tries ih =>
    rw [search]
    split
    · rename_i c hc
      exact .inr ⟨0, Nat.succ_pos _, by simp, by simpa using hc⟩
    · rcases ih (k - 1) with hnone | ⟨t, ht, hexponent, hhit⟩
      · exact .inl hnone
      · have hk : k - (t + 1 : Nat) = k - 1 - t := by
          push_cast
          omega
        exact .inr ⟨t + 1, Nat.succ_lt_succ ht, hk ▸ hexponent, hk ▸ hhit⟩

lemma decimalOrder_eq (i : Interval) :
    decimalOrder i
      = ((Nat.toDigits 10 (i.value * i.unitNum * Nat.pow 10 330 / i.unitDen)).length : Int)
        - 331 := by
  rw [decimalOrder, Nat.toString_eq_ofList_toDigits, String.length_ofList]

/-- Below which power of ten a number is. -/
lemma value_lt_decimalOrder {i : Interval} (hden : 0 < i.unitDen) :
    i.value * i.unit < (10 : ℚ) ^ (decimalOrder i + 1) := by
  obtain ⟨places, hplaces⟩ : ∃ places, places = 330 := ⟨_, rfl⟩
  obtain ⟨n, hn⟩ : ∃ n, n = i.value * i.unitNum * Nat.pow 10 places / i.unitDen := ⟨_, rfl⟩
  obtain ⟨len, hlen⟩ : ∃ len, len = (Nat.toDigits 10 n).length := ⟨_, rfl⟩
  have horder : decimalOrder i + 1 = len - places := by
    rw [decimalOrder_eq, ← hplaces, ← hn, ← hlen]
    omega
  have hlt : n < 10 ^ len :=
    (Nat.length_toDigits_le_iff (by norm_num) (hlen ▸ Nat.length_toDigits_pos)).1 hlen.ge
  have hnat : i.value * i.unitNum * 10 ^ places < 10 ^ len * i.unitDen :=
    (Nat.div_lt_iff_lt_mul hden).1 (hn ▸ hlt)
  have hpos : (0 : ℚ) < i.unitDen := by exact_mod_cast hden
  have hgrid : (0 : ℚ) < 10 ^ places := by positivity
  rw [horder, Interval.unit, ← mul_div_assoc, div_lt_iff₀ hpos, zpow_sub₀ (by norm_num),
    zpow_natCast, zpow_natCast, div_mul_eq_mul_div, lt_div_iff₀ hgrid]
  exact_mod_cast hnat

/-- **A hit of the search** is a number of at most nineteen digits within the interval. -/
lemma search_spec {i : Interval} (hden : 0 < i.unitDen) {tries : Nat} (htries : tries ≤ 18) :
    search i (decimalOrder i) tries = (0, 0)
      ∨ (search i (decimalOrder i) tries).1 ≤ 10 ^ 18
          ∧ i.low * i.unit ≤ (search i (decimalOrder i) tries).1
              * (10 : ℚ) ^ (search i (decimalOrder i) tries).2
          ∧ (search i (decimalOrder i) tries).1 * (10 : ℚ) ^ (search i (decimalOrder i) tries).2
              ≤ i.high * i.unit := by
  rcases search_cases i (decimalOrder i) tries with hnone | ⟨t, ht, hexponent, hhit⟩
  · exact .inl hnone
  · refine .inr ?_
    obtain ⟨hlow, hhigh, hneighbour⟩ := hit?_spec hden hhit
    rw [hexponent]
    refine ⟨?_, hlow, hhigh⟩
    have hgrid : (0 : ℚ) < 10 ^ (decimalOrder i - t) := zpow_pos (by norm_num) _
    have hvalue : i.value * i.unit / (10 : ℚ) ^ (decimalOrder i - t) < 10 ^ (t + 1) := by
      rw [div_lt_iff₀ hgrid, ← zpow_natCast, ← zpow_add₀ (by norm_num)]
      have hsum : ((t + 1 : Nat) : Int) + (decimalOrder i - t) = decimalOrder i + 1 := by
        push_cast
        omega
      rw [hsum]
      exact value_lt_decimalOrder hden
    have hlt : ((search i (decimalOrder i) tries).1 : ℚ) < (10 ^ (t + 1) + 1 : Nat) := by
      push_cast
      linarith
    have hle := Nat.lt_succ_iff.1 (Nat.cast_lt.1 hlt)
    exact hle.trans (Nat.pow_le_pow_right (by norm_num) (by omega))

/-- Zeros at the end go into the power of ten. -/
lemma stripZeros_spec (steps : Nat) (c : Nat) (k : Int) :
    (stripZeros steps (c, k)).1 ≤ c
      ∧ (c = 0 → stripZeros steps (c, k) = (0, k)) ∧ (0 < c → 0 < (stripZeros steps (c, k)).1)
      ∧ ((stripZeros steps (c, k)).1 * (10 : ℚ) ^ (stripZeros steps (c, k)).2
        = c * (10 : ℚ) ^ k) := by
  induction steps generalizing c k with
  | zero => simp [stripZeros]
  | succ steps ih =>
    rw [stripZeros]
    split
    · rename_i hc
      obtain ⟨hle, hzero, hpos, hvalue⟩ := ih (c / 10) (k + 1)
      have hsplit : c = 10 * (c / 10) := by omega
      refine ⟨by omega, fun h => absurd h hc.1, fun _ => hpos (by omega), hvalue.trans ?_⟩
      have hcast : (c : ℚ) = 10 * (c / 10 : Nat) := by exact_mod_cast hsplit
      rw [hcast, zpow_add_one₀ (by norm_num)]
      ring
    · exact ⟨le_rfl, fun h => by rw [h], id, rfl⟩

/-- The unit of the interval of a number is a quarter of its last binary digit. -/
lemma interval_spec (d : Double) :
    0 < (Interval.of d).unitDen ∧ (Interval.of d).unit = (2 : ℚ) ^ (d.scale - 2) := by
  obtain ⟨hden, hratio⟩ := descale_spec 1 Nat.one_pos (-(d.scale - 2))
  refine ⟨hden, hratio.trans ?_⟩
  rw [Nat.cast_one, div_one, zpow_neg, one_div, inv_inv]

end Shortest

open Shortest

/-- **The shortest digits** of a number that is not zero: with their power of ten they are at most
half a unit above it. -/
lemma Double.shortest_spec {d : Double} (hd : 0 < d.mantissa) :
    d.shortest = (0, 0)
      ∨ 0 < d.shortest.1 ∧ d.shortest.1 ≤ 10 ^ 18
          ∧ d.shortest.1 * (10 : ℚ) ^ d.shortest.2 ≤ (d.mantissa + 1 / 2) * 2 ^ d.scale := by
  obtain ⟨hden, hunit⟩ := interval_spec d
  have hquarter : (2 : ℚ) ^ d.scale = 2 ^ (d.scale - 2) * 2 ^ (2 : Int) := by
    rw [← zpow_add₀ two_ne_zero, sub_add_cancel]
  have hpos : (0 : ℚ) < 2 ^ (d.scale - 2) := zpow_pos two_pos _
  rw [shortest]
  obtain ⟨found, hfound⟩ :
      ∃ found, found = search (Interval.of d) (decimalOrder (Interval.of d)) 18 := ⟨_, rfl⟩
  have hspec := search_spec hden (le_refl 18)
  rw [← hfound] at hspec ⊢
  obtain ⟨c, k⟩ := found
  obtain ⟨hle, hzero, hnonzero, hvalue⟩ := stripZeros_spec 20 c k
  rcases hspec with hnone | ⟨hc, hlow, hhigh⟩
  · obtain ⟨rfl, rfl⟩ := Prod.mk.inj hnone
    exact .inl (hzero rfl)
  · refine .inr ⟨hnonzero ?_, hle.trans hc, ?_⟩
    · -- zero is not in the interval
      by_contra hzero
      obtain rfl : c = 0 := Nat.eq_zero_of_not_pos hzero
      have hlow' : 0 < (Interval.of d).low := by
        simp only [Interval.of]
        split <;> omega
      have hlow'' : (0 : ℚ) < (Interval.of d).low := by exact_mod_cast hlow'
      rw [hunit, Nat.cast_zero, zero_mul] at hlow
      exact absurd hlow (not_le.2 (mul_pos hlow'' hpos))
    · have hhigh' : ((Interval.of d).high : ℚ) = 4 * d.mantissa + 2 := by
        simp [Interval.of]
      rw [hvalue]
      refine hhigh.trans_eq ?_
      rw [hunit, hhigh', hquarter]
      norm_num
      ring

/-- The shortest digits do not depend on the sign. -/
lemma Double.shortest_congr {d d' : Double} (hmantissa : d.mantissa = d'.mantissa)
    (hfield : d.exponentField = d'.exponentField) : d.shortest = d'.shortest := by
  simp only [shortest, Interval.of, scale, hmantissa, hfield]

/-! ### Reading the shortest digits -/

namespace Draft

/-- A decimal with a negative power of ten is always taken. -/
lemma isSome_scaled_of_neg (c : Nat) {e : Int} (he : e < 0) : (scaled c e).isSome = true := by
  have hdown : ∀ steps (f : Double) k, (scaled.down f k steps).isSome = true := by
    intro steps
    induction steps with
    | zero => exact fun f k => rfl
    | succ steps ih =>
      intro f k
      rw [scaled.down]
      repeat' split
      · rfl
      · rfl
      · exact ih _ _
  simp only [scaled, if_neg (not_le.2 he)]
  exact hdown _ _ _

/-- A decimal that the two roundings do not carry beyond the bound is taken. -/
lemma isSome_scaled_of_lt {c k : Nat} (hk : k ≤ 308)
    (h : (c : ℚ) * 10 ^ k * (1 + 1 / 2 ^ 53) ^ 2 < bound) : (scaled c k).isSome = true := by
  have hproduct : (ofNat c).value * (ofNat (Nat.pow 10 k)).value < bound := by
    have hc := value_ofNat_le c
    have hpower : (ofNat (Nat.pow 10 k)).value ≤ (10 : ℚ) ^ k * (1 + 1 / 2 ^ 53) := by
      exact_mod_cast value_ofNat_le (10 ^ k)
    calc (ofNat c).value * (ofNat (Nat.pow 10 k)).value
        ≤ c * (1 + 1 / 2 ^ 53) * (10 ^ k * (1 + 1 / 2 ^ 53)) :=
          mul_le_mul hc hpower (value_nonneg _) (by positivity)
      _ = c * 10 ^ k * (1 + 1 / 2 ^ 53) ^ 2 := by ring
      _ < bound := h
  have hfinite := isFinite_mul hproduct
  simp only [scaled, Int.natCast_nonneg, if_true, Int.toNat_natCast]
  rw [if_pos (by exact_mod_cast hk), if_pos hfinite]
  rfl

/-- The digits of the largest number. -/
lemma isSome_scaled_largest {d : Double} (hmantissa : d.mantissa = 2 ^ 53 - 1)
    (hfield : d.exponentField = 2046) :
    (scaled d.shortest.1 d.shortest.2).isSome = true := by
  have hcongr : d.shortest = (⟨0x7FEF_FFFF_FFFF_FFFF⟩ : Double).shortest :=
    shortest_congr hmantissa hfield
  rw [hcongr, shortest, decimalOrder_eq]
  decide +kernel

/-- The digits of the number before it. -/
lemma isSome_scaled_second {d : Double} (hmantissa : d.mantissa = 2 ^ 53 - 2)
    (hfield : d.exponentField = 2046) :
    (scaled d.shortest.1 d.shortest.2).isSome = true := by
  have hcongr : d.shortest = (⟨0x7FEF_FFFF_FFFF_FFFE⟩ : Double).shortest :=
    shortest_congr hmantissa hfield
  rw [hcongr, shortest, decimalOrder_eq]
  decide +kernel

end Draft

lemma Double.mantissa_lt (d : Double) : d.mantissa < 2 ^ 53 := by
  have hfraction : d.fraction < fractionSize := Nat.mod_lt _ (by decide)
  simp only [fractionSize] at hfraction
  rw [mantissa, fractionSize]
  split <;> omega

lemma Double.exponentField_lt {d : Double} (h : d.isFinite = true) : d.exponentField < 2047 := by
  have hfield : d.exponentField < 2048 := Nat.mod_lt _ (by decide)
  have hne : d.exponentField ≠ 2047 := by simpa [isFinite] using h
  omega

lemma Double.scale_le {d : Double} (h : d.isFinite = true) : d.scale ≤ 971 := by
  have hfield := exponentField_lt h
  rw [scale]
  split <;> omega

/-- A power of ten that is not beyond the bound. -/
lemma le_of_power_le {k : Nat} (h : (10 : ℚ) ^ k ≤ bound) : k ≤ 308 := by
  by_contra hlarge
  obtain ⟨limit, hlimit, htop⟩ : ∃ limit, limit ≤ 309 ∧ 2 ^ 1024 ≤ 10 ^ limit :=
    ⟨309, le_rfl, by decide +kernel⟩
  have hpow : (2 ^ 1024 : Nat) ≤ 10 ^ k :=
    htop.trans (Nat.pow_le_pow_right (by norm_num) (by omega))
  have hcast : ((2 ^ 1024 : Nat) : ℚ) ≤ 10 ^ k := by exact_mod_cast hpow
  rw [Nat.cast_pow, Nat.cast_ofNat] at hcast
  have hpos : (0 : ℚ) < 2 ^ (970 : Int) := zpow_pos two_pos _
  rw [bound, zpow_ofNat 2 1024] at h
  exact absurd (hcast.trans h) (not_le.2 (sub_lt_self _ hpos))

/-- Half a unit above a finite number is not beyond the bound. -/
lemma Double.half_above_le {d : Double} (h : d.isFinite = true) :
    (d.mantissa + 1 / 2) * (2 : ℚ) ^ d.scale ≤ bound := by
  have hmantissa : (d.mantissa : ℚ) ≤ 2 ^ 53 - 1 := by
    have hle : d.mantissa ≤ 2 ^ 53 - 1 := Nat.le_pred_of_lt d.mantissa_lt
    have hcast : (d.mantissa : ℚ) ≤ (2 ^ 53 - 1 : Nat) := by exact_mod_cast hle
    exact hcast.trans_eq (by norm_num)
  have hunit : (2 : ℚ) ^ d.scale ≤ 2 ^ (971 : Int) := zpow_le_zpow_right₀ one_le_two (scale_le h)
  calc (d.mantissa + 1 / 2) * (2 : ℚ) ^ d.scale ≤ (2 ^ 53 - 1 / 2) * 2 ^ (971 : Int) :=
        mul_le_mul (by linarith) hunit (zpow_pos two_pos _).le (by norm_num)
    _ = bound := bound_eq.symm

/-- Two more roundings do not lead beyond the bound, unless from the two largest numbers. -/
lemma Double.half_above_lt {d : Double} (h : d.isFinite = true)
    (hd : d.scale ≤ 970 ∨ d.mantissa ≤ 2 ^ 53 - 3) :
    (d.mantissa + 1 / 2) * (2 : ℚ) ^ d.scale * (1 + 1 / 2 ^ 53) ^ 2 < bound := by
  have hpos : (0 : ℚ) < 2 ^ (971 : Int) := zpow_pos two_pos _
  rcases hd with hscale | hmantissa
  · have hhalf : (2 : ℚ) ^ (971 : Int) = 2 ^ (970 : Int) * 2 := zpow_add_one₀ two_ne_zero 970
    have hmantissa : (d.mantissa : ℚ) ≤ 2 ^ 53 := by exact_mod_cast d.mantissa_lt.le
    have hunit : (2 : ℚ) ^ d.scale ≤ 2 ^ (970 : Int) := zpow_le_zpow_right₀ one_le_two hscale
    have hproduct : (d.mantissa + 1 / 2) * (2 : ℚ) ^ d.scale ≤ (2 ^ 53 + 1 / 2) * 2 ^ (970 : Int) :=
      mul_le_mul (by linarith) hunit (zpow_pos two_pos _).le (by norm_num)
    rw [bound_eq, hhalf]
    rw [hhalf] at hpos
    generalize (2 : ℚ) ^ (970 : Int) = unit at hproduct hpos
    norm_num at hproduct hpos ⊢
    linarith
  · have hmantissa' : (d.mantissa : ℚ) ≤ 2 ^ 53 - 3 := by
      have hcast : (d.mantissa : ℚ) ≤ (2 ^ 53 - 3 : Nat) := by exact_mod_cast hmantissa
      exact hcast.trans_eq (by norm_num)
    have hunit : (2 : ℚ) ^ d.scale ≤ 2 ^ (971 : Int) := zpow_le_zpow_right₀ one_le_two (scale_le h)
    have hproduct : (d.mantissa + 1 / 2) * (2 : ℚ) ^ d.scale ≤ (2 ^ 53 - 5 / 2) * 2 ^ (971 : Int) :=
      mul_le_mul (by linarith) hunit (zpow_pos two_pos _).le (by norm_num)
    rw [bound_eq]
    generalize (2 : ℚ) ^ (971 : Int) = unit at hproduct hpos
    norm_num at hproduct ⊢
    linarith

/-- **The digits of a finite number** are taken by the reader. -/
theorem isSome_scaled_shortest {d : Double} (h : d.isFinite = true) (hd : 0 < d.mantissa) :
    (Draft.scaled d.shortest.1 d.shortest.2).isSome = true ∧ d.shortest.2 ≤ 308 := by
  rcases shortest_spec hd with hnone | ⟨hpos, -, hvalue⟩
  · rw [hnone]
    exact ⟨by decide +kernel, by decide⟩
  · rcases lt_or_ge d.shortest.2 0 with hneg | hnonneg
    · exact ⟨Draft.isSome_scaled_of_neg _ hneg, by omega⟩
    · obtain ⟨k, hk⟩ := Int.eq_ofNat_of_zero_le hnonneg
      rw [hk] at hvalue ⊢
      rw [zpow_natCast] at hvalue
      have hsmall : k ≤ 308 := by
        have hone : (1 : ℚ) ≤ d.shortest.1 := by exact_mod_cast hpos
        have hgrid : (0 : ℚ) < 10 ^ k := by positivity
        have hlt : (10 : ℚ) ^ k ≤ bound :=
          (by nlinarith : (10 : ℚ) ^ k ≤ d.shortest.1 * 10 ^ k).trans
            (hvalue.trans (half_above_le h))
        exact le_of_power_le hlt
      refine ⟨?_, by omega⟩
      by_cases hlargest : d.scale ≤ 970 ∨ d.mantissa ≤ 2 ^ 53 - 3
      · refine Draft.isSome_scaled_of_lt hsmall (lt_of_le_of_lt ?_ (half_above_lt h hlargest))
        exact mul_le_mul_of_nonneg_right hvalue (by positivity)
      · obtain ⟨hscale, hmantissa⟩ := not_or.1 hlargest
        have hfield : d.exponentField = 2046 := by
          have hless := exponentField_lt h
          rw [scale] at hscale
          split at hscale <;> omega
        have hlt := d.mantissa_lt
        rw [← hk]
        rcases (by omega : d.mantissa = 2 ^ 53 - 1 ∨ d.mantissa = 2 ^ 53 - 2) with hm | hm
        · exact Draft.isSome_scaled_largest hm hfield
        · exact Draft.isSome_scaled_second hm hfield

end SilentScan
