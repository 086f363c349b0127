/-
Amounts and their codes correspond one to one.

The code of an amount keeps the digits before its zeros and the number of the zeros, so that the
amount comes back from the code. The other way round, the digits that a code keeps do not end in a
zero unless all nine zeros are counted; the zeros of its amount are therefore just those that the
code counts, and the code comes back from its amount. Both are followed in the arithmetic of words:
a code is found if it is a word itself, since all numbers on the way to it are smaller.

* `compressInWords?`: the code of an amount in the arithmetic of words;
* `compressInWords?_eq`: it is found if it is a word;
* `compressAmount_amountOf`: the code comes back from its amount;
* `amounts_correspond`: amounts and codes correspond one to one.
-/
import Mathlib.Data.Nat.PSub
import Mathlib.Data.Set.Function
import SilentScan.Proofs.Snapshot.Numbers

namespace SilentScan

/-- The code of an amount, found in the arithmetic of words. -/
def compressInWords? (n : Nat) : Option Nat :=
  if n = 0 then some 0
  else
    let e := trailingZeros 9 n
    let m := n / 10 ^ e
    if e < 9 then
      (word? (m / 10 * 9)).bind fun nines => (word? (nines + m % 10)).bind fun sum =>
        (Nat.ppred sum).bind fun digits => (word? (digits * 10)).bind fun tens =>
          (word? (1 + tens)).bind fun next => word? (next + e)
    else
      (Nat.ppred m).bind fun digits => (word? (digits * 10)).bind fun tens =>
        (word? (1 + tens)).bind fun next => word? (next + 9)

lemma word?_eq_some_iff {n k : Nat} : word? n = some k ↔ n < 2 ^ 64 ∧ n = k := by
  rw [word?]
  split
  · rename_i h
    simp [h]
  · rename_i h
    simp [h]

/-! ### The code of an amount -/

/-- **The arithmetic of words finds the code of an amount if it is a word**, and fails otherwise. -/
lemma compressInWords?_eq (n : Nat) : compressInWords? n = word? (compressAmount n) := by
  by_cases hn : n = 0
  · rw [compressInWords?, if_pos hn, compressAmount, if_pos hn]
    rfl
  · have hparts := eq_mul_of_trailingZeros 9 n
    have hdigit := @last_digit_ne_zero 9 n
    rw [compressInWords?, if_neg hn, compressAmount, if_neg hn]
    simp only [Nat.pow_eq]
    generalize trailingZeros 9 n = e at hparts hdigit ⊢
    generalize n / 10 ^ e = m at hparts hdigit ⊢
    by_cases he : e < 9
    · have hlast := hdigit he
      rw [if_pos he, if_pos he]
      refine word?_bind (by omega) (word?_bind (by omega) ?_)
      rw [Nat.ppred_eq_pred (by omega), Nat.pred_eq_sub_one]
      exact word?_bind (by omega) (word?_bind (by omega) rfl)
    · have hm : m ≠ 0 := by
        rintro rfl
        exact hn (by simpa using hparts)
      rw [if_neg he, if_neg he, Nat.ppred_eq_pred (Nat.pos_of_ne_zero hm), Nat.pred_eq_sub_one]
      exact word?_bind (by omega) (word?_bind (by omega) rfl)

/-- The code of an amount that is not too large is a word. -/
lemma compressAmount_lt {n : Nat} (h : n ≤ 2 * 10 ^ 18) : compressAmount n < 2 ^ 64 := by
  by_cases hn : n = 0
  · simp [hn, compressAmount]
  · have hparts := eq_mul_of_trailingZeros 9 n
    have hzeros := trailingZeros_le 9 n
    have hle : n / 10 ^ trailingZeros 9 n ≤ n := Nat.div_le_self _ _
    simp only [compressAmount, if_neg hn, Nat.pow_eq]
    generalize trailingZeros 9 n = e at hparts hzeros hle ⊢
    generalize n / 10 ^ e = m at hparts hle ⊢
    split
    · omega
    · obtain rfl : e = 9 := by omega
      omega

/-! ### The amount of a code -/

/-- The zeros of a number are those that it is multiplied by, if it has none itself or if no more
are counted. -/
lemma trailingZeros_mul_pow {limit e m : Nat} (he : e ≤ limit) (hm : e = limit ∨ m % 10 ≠ 0) :
    trailingZeros limit (m * 10 ^ e) = e := by
  induction limit generalizing e with
  | zero =>
    obtain rfl : e = 0 := by omega
    rfl
  | succ limit ih =>
    cases e with
    | zero =>
      have hdigit : m * 10 ^ 0 % 10 ≠ 0 := by simpa using hm
      rw [trailingZeros, if_neg hdigit]
    | succ e =>
      have hshift : m * 10 ^ (e + 1) = m * 10 ^ e * 10 := by rw [pow_succ, mul_assoc]
      rw [trailingZeros, hshift, if_pos (Nat.mul_mod_left _ _), Nat.mul_div_cancel _ (by decide),
        ih (by omega) (by omega)]

/-- **The code comes back from its amount.** -/
lemma compressAmount_amountOf (code : Nat) : compressAmount (amountOf code) = code := by
  by_cases hcode : code = 0
  · simp [hcode, compressAmount, amountOf]
  · rw [amountOf, if_neg hcode]
    have hlast : (code - 1) % 10 < 10 := Nat.mod_lt _ (by decide)
    have hparts : 10 * ((code - 1) / 10) + (code - 1) % 10 = code - 1 := Nat.div_add_mod _ _
    simp only [Nat.pow_eq]
    generalize (code - 1) / 10 = x at hparts ⊢
    generalize (code - 1) % 10 = e at hlast hparts ⊢
    have hscale : 0 < 10 ^ e := Nat.pow_pos (by decide)
    by_cases he : e < 9
    · set m := x / 9 * 10 + (x % 9 + 1) with hm
      have hzeros : trailingZeros 9 (m * 10 ^ e) = e := trailingZeros_mul_pow he.le (by omega)
      have hne : m * 10 ^ e ≠ 0 := (Nat.mul_pos (by omega) hscale).ne'
      rw [if_pos he, compressAmount, if_neg hne]
      simp only [Nat.pow_eq, hzeros, Nat.mul_div_cancel _ hscale, if_pos he]
      omega
    · obtain rfl : e = 9 := by omega
      have hzeros : trailingZeros 9 ((x + 1) * 10 ^ 9) = 9 :=
        trailingZeros_mul_pow le_rfl (.inl rfl)
      have hne : (x + 1) * 10 ^ 9 ≠ 0 := (Nat.mul_pos (by omega) hscale).ne'
      rw [if_neg he, compressAmount, if_neg hne]
      simp only [Nat.pow_eq, hzeros, Nat.mul_div_cancel _ hscale, if_neg he]
      omega

/-! ### Amounts and codes -/

/-- A code is found for the amounts whose code is a word. -/
lemma compressInWords?_eq_some_iff {n code : Nat} :
    compressInWords? n = some code ↔ compressAmount n < 2 ^ 64 ∧ compressAmount n = code := by
  rw [compressInWords?_eq, word?_eq_some_iff]

/-- An amount is found for the codes whose amount is a word. -/
lemma decompressAmount_eq_ok_iff {code n : Nat} :
    decompressAmount code = .ok n ↔ amountOf code < 2 ^ 64 ∧ amountOf code = n := by
  rw [decompressAmount_eq]
  split
  · rename_i h
    simp [h]
  · rename_i h
    simp [h]

/-- **Amounts and codes correspond one to one.** An amount comes back from its code whenever the
code is found without leaving the words, as it is for every amount up to `2 * 10 ^ 18`. A code gives
an overflow exactly if its amount is no word; otherwise it gives its amount, and comes back from it
without leaving the words. -/
theorem amounts_correspond :
    (∀ n < 2 ^ 64, ∀ code, compressInWords? n = some code →
      compressAmount n = code ∧ decompressAmount code = .ok n)
    ∧ (∀ n ≤ 2 * 10 ^ 18, ∃ code, compressInWords? n = some code)
    ∧ (∀ code < 2 ^ 64,
      (decompressAmount code = .error (.amountOverflow code) ↔ 2 ^ 64 ≤ amountOf code)
      ∧ (amountOf code < 2 ^ 64 →
        decompressAmount code = .ok (amountOf code)
        ∧ compressInWords? (amountOf code) = some code))
    ∧ Set.BijOn compressAmount {n | n < 2 ^ 64 ∧ ∃ code, compressInWords? n = some code}
        {code | code < 2 ^ 64 ∧ ∃ n, decompressAmount code = .ok n} := by
  simp only [compressInWords?_eq_some_iff, decompressAmount_eq_ok_iff, exists_and_left,
    exists_eq', and_true]
  refine ⟨?_, fun n => compressAmount_lt, fun code hcode => ⟨?_, fun hamount => ?_⟩, ?_, ?_, ?_⟩
  · rintro n hn code ⟨-, rfl⟩
    rw [amountOf_compressAmount]
    exact ⟨rfl, hn, rfl⟩
  · rw [decompressAmount_eq]
    split
    · rename_i hword
      exact iff_of_false (by simp) (by omega)
    · rename_i hword
      exact iff_of_true rfl (by omega)
  · rw [compressAmount_amountOf]
    exact ⟨hamount, hcode, rfl⟩
  · rintro n ⟨hn, hcode⟩
    exact ⟨hcode, by rwa [amountOf_compressAmount]⟩
  · intro n _ m _ hsame
    rw [← amountOf_compressAmount n, hsame, amountOf_compressAmount]
  · rintro code ⟨hcode, hamount⟩
    exact ⟨amountOf code, ⟨hamount, by rwa [compressAmount_amountOf]⟩, compressAmount_amountOf code⟩

/-- The largest amount for which a code is promised has one; the amount below it comes back from its
code, and so does a code near the end of the words, while the last word is no code of a word. -/
theorem large_amounts_correspond :
    (∃ code, compressInWords? 2000000000000000000 = some code)
      ∧ decompressAmount 17999999999999999991 = .ok 1999999999999999999
      ∧ decompressAmount 18446744073709551615 = .error (.amountOverflow 18446744073709551615)
      ∧ compressInWords? 2049638230412172402 = some 18446744073709551611 := by
  obtain ⟨hcode, hpromised, hamount, -⟩ := amounts_correspond
  refine ⟨hpromised _ (by decide), (hcode 1999999999999999999 (by decide) _ (by decide)).2,
    (hamount _ (by decide)).1.2 (by decide), ?_⟩
  exact ((hamount 18446744073709551611 (by decide)).2 (by decide)).2

end SilentScan
