/-
The numbers of a snapshot, written and read back.

A reader recovers a value from its stored form if it gives the value whatever stands behind the
form, and stops right there. Readers that do can be put one after another, so that what holds of the
numbers goes on to hold of coins and of whole files.

* `SnapshotReader.Recovers`: that a reader gives a value back;
* `recovers_readCompactSize`: compact sizes;
* `recovers_readVarint`: varints, where every group but the last counts one more than it says;
* `decompressAmount_compressAmount`: compressed amounts.
-/
import Mathlib.Tactic.Common
import SilentScan.Proofs.Bytes.Order
import SilentScan.Snapshot.Amount
import SilentScan.Snapshot.Varint

namespace SilentScan

/-- That a reader takes a value from its stored form, and leaves what stands behind it. -/
def SnapshotReader.Recovers {α : Type} (read : SnapshotReader α) (stored : Bytes) (a : α) : Prop :=
  ∀ rest, read (stored ++ rest) = .ok (a, rest)

lemma splitBytes_append (front rest : Bytes) :
    splitBytes front.length (front ++ rest) = some (front, rest) := by
  induction front with
  | nil => rfl
  | cons b front ih => simp [splitBytes, ih]

lemma recovers_readBytes {n : Nat} {bs : Bytes} (h : bs.length = n) :
    (readBytes n).Recovers bs bs := by
  intro rest
  rw [readBytes, ← h, splitBytes_append]

lemma recovers_readLE {width n : Nat} (h : n < 256 ^ width) :
    (readLE width).Recovers (Bytes.ofNatLE width n) n := by
  intro rest
  have hfront := recovers_readBytes (Bytes.length_ofNatLE width n) rest
  simp only [readLE, hfront]
  exact congrArg (fun m => Except.ok (m, rest))
    ((Bytes.toNatLE_ofNatLE width n).trans (Nat.mod_eq_of_lt h))

/-- **Compact sizes**: every word is read back from its shortest form. -/
lemma recovers_readCompactSize {n : Nat} (h : n < 0x1_0000_0000_0000_0000) :
    readCompactSize.Recovers (writeCompactSize n) n := by
  intro rest
  rw [writeCompactSize]
  split
  · rename_i hsmall
    have hbyte : (UInt8.ofNat n).toNat = n := by
      rw [UInt8.toNat_ofNat']
      omega
    have hmarker : ∀ marker : UInt8, 0xFD ≤ marker.toNat → UInt8.ofNat n ≠ marker := by
      rintro marker hlow rfl
      omega
    rw [List.singleton_append, readCompactSize, if_neg (hmarker _ (by decide)),
      if_neg (hmarker _ (by decide)), if_neg (hmarker _ (by decide)), hbyte]
  · split
    · exact recovers_readLE (by omega) rest
    · split
      · exact recovers_readLE (by omega) rest
      · exact recovers_readLE (by omega) rest

/-! ### Varints -/

/-- What one group does to the number carried along. -/
lemma readGroups_cons (n : Nat) (b : UInt8) (bs : Bytes) :
    readGroups n (b :: bs)
      = if 0x200_0000_0000_0000 ≤ n then .error .varintOverflow
        else if b.toNat < 128 then .ok (128 * n + b.toNat % 128, bs)
        else if 128 * n + b.toNat % 128 + 1 < 0x1_0000_0000_0000_0000 then
          readGroups (128 * n + b.toNat % 128 + 1) bs
        else .error .varintOverflow := by
  rw [readGroups]

/-- A group that is followed by another is taken in, and counts one more. -/
lemma readGroups_more {n b : Nat} (hn : n < 0x200_0000_0000_0000) (hb : b < 128)
    (hfits : 128 * n + b + 1 < 0x1_0000_0000_0000_0000) (rest : Bytes) :
    readGroups n (UInt8.ofNat (b + 128) :: rest) = readGroups (128 * n + b + 1) rest := by
  have hbyte : (UInt8.ofNat (b + 128)).toNat = b + 128 := by
    rw [UInt8.toNat_ofNat']
    omega
  have hlow : (b + 128) % 128 = b := by omega
  rw [readGroups_cons, if_neg (by omega), hbyte, hlow, if_neg (by omega), if_pos hfits]

/-- The last group ends the number. -/
lemma readGroups_last {n b : Nat} (hn : n < 0x200_0000_0000_0000) (hb : b < 128) (rest : Bytes) :
    readGroups n (UInt8.ofNat b :: rest) = .ok (128 * n + b, rest) := by
  have hbyte : (UInt8.ofNat b).toNat = b := by
    rw [UInt8.toNat_ofNat']
    omega
  have hlow : b % 128 = b := by omega
  rw [readGroups_cons, if_neg (by omega), hbyte, hlow, if_pos hb]

/-- The groups before the last one make up a number that is one more than written. -/
lemma readGroups_writeGroups {n : Nat} (h : n + 1 < 0x1_0000_0000_0000_0000) (rest : Bytes) :
    readGroups 0 (writeGroups n ++ rest) = readGroups (n + 1) rest := by
  induction n using Nat.strong_induction_on generalizing rest with
  | _ n ih =>
    rw [writeGroups]
    split
    · rename_i hsmall
      rw [List.singleton_append, readGroups_more (by omega) hsmall (by omega)]
      congr 1
      omega
    · rename_i hlarge
      have hnext : n / 128 - 1 + 1 = n / 128 := by omega
      rw [List.append_assoc, ih _ (by omega) (by omega), hnext, List.singleton_append,
        readGroups_more (by omega) (by omega) (by omega)]
      congr 1
      omega

/-- **Varints**: every word is read back from its groups. -/
lemma recovers_readVarint {n : Nat} (h : n < 0x1_0000_0000_0000_0000) :
    readVarint.Recovers (writeVarint n) n := by
  intro rest
  rw [readVarint, writeVarint]
  split
  · rename_i hsmall
    rw [List.singleton_append, readGroups_last (by omega) hsmall]
    congr 2
    omega
  · rename_i hlarge
    have hnext : n / 128 - 1 + 1 = n / 128 := by omega
    rw [List.append_assoc, readGroups_writeGroups (by omega), hnext, List.singleton_append,
      readGroups_last (by omega) (by omega)]
    congr 2
    omega

/-! ### Amounts -/

/-- An amount is made up of its digits before the zeros that are counted and of these zeros. -/
lemma eq_mul_of_trailingZeros (limit n : Nat) :
    n = n / 10 ^ trailingZeros limit n * 10 ^ trailingZeros limit n := by
  induction limit generalizing n with
  | zero => simp [trailingZeros]
  | succ limit ih =>
    rw [trailingZeros]
    split
    · rename_i hzero
      rw [pow_succ', ← Nat.div_div_eq_div_mul, ← mul_assoc, mul_comm _ 10, mul_assoc, ← ih]
      omega
    · simp

lemma trailingZeros_le (limit n : Nat) : trailingZeros limit n ≤ limit := by
  induction limit generalizing n with
  | zero => exact le_refl 0
  | succ limit ih =>
    rw [trailingZeros]
    split
    · exact Nat.succ_le_succ (ih _)
    · exact Nat.zero_le _

/-- With fewer zeros than are counted at most, the digit before them is not zero. -/
lemma last_digit_ne_zero {limit n : Nat} (h : trailingZeros limit n < limit) :
    n / 10 ^ trailingZeros limit n % 10 ≠ 0 := by
  induction limit generalizing n with
  | zero => simp at h
  | succ limit ih =>
    rw [trailingZeros] at h ⊢
    split
    · rename_i hzero
      rw [if_pos hzero] at h
      rw [pow_succ', ← Nat.div_div_eq_div_mul]
      exact ih (Nat.lt_of_succ_lt_succ h)
    · simpa using ‹¬ n % 10 = 0›

/-- The amount of a code is the amount that the code was made for. -/
lemma amountOf_compressAmount (n : Nat) : amountOf (compressAmount n) = n := by
  by_cases hn : n = 0
  · simp [hn, compressAmount, amountOf]
  · have hparts := eq_mul_of_trailingZeros 9 n
    have hle := trailingZeros_le 9 n
    have hdigit := @last_digit_ne_zero 9 n
    simp only [compressAmount, if_neg hn, Nat.pow_eq]
    generalize trailingZeros 9 n = e at hparts hle hdigit ⊢
    generalize n / 10 ^ e = m at hparts hdigit ⊢
    have hm : m ≠ 0 := by
      rintro rfl
      exact hn (by simpa using hparts)
    by_cases he : e < 9
    · have hlast := hdigit he
      have hexp : (1 + (m / 10 * 9 + m % 10 - 1) * 10 + e - 1) % 10 = e := by omega
      have hcode : (1 + (m / 10 * 9 + m % 10 - 1) * 10 + e - 1) / 10 = m / 10 * 9 + m % 10 - 1 := by
        omega
      have hhigh : (m / 10 * 9 + m % 10 - 1) / 9 = m / 10 := by omega
      have hlow : (m / 10 * 9 + m % 10 - 1) % 9 + 1 = m % 10 := by omega
      have hdigits : m / 10 * 10 + m % 10 = m := by omega
      rw [if_pos he, amountOf, if_neg (by omega)]
      simp only [hexp, hcode, if_pos he, hhigh, hlow, hdigits, Nat.pow_eq]
      exact hparts.symm
    · obtain rfl : e = 9 := by omega
      have hexp : (1 + (m - 1) * 10 + 9 - 1) % 10 = 9 := by omega
      have hcode : (1 + (m - 1) * 10 + 9 - 1) / 10 + 1 = m := by omega
      rw [if_neg he, amountOf, if_neg (by omega)]
      simp only [hexp, hcode, lt_irrefl, if_false, Nat.pow_eq]
      exact hparts.symm

/-- A step that is no larger than the next makes no difference to whether all are words. -/
lemma word?_bind {a b : Nat} {next : Nat → Option Nat} (hle : a ≤ b) (hnext : next a = word? b) :
    (word? a).bind next = word? b := by
  by_cases ha : a < 0x1_0000_0000_0000_0000
  · rw [word?, if_pos ha, Option.bind_some, hnext]
  · rw [word?, if_neg ha, Option.bind_none, word?, if_neg (by omega)]

lemma mantissa?_eq (e x : Nat) :
    mantissa? e x = word? (if e < 9 then x / 9 * 10 + (x % 9 + 1) else x + 1) := by
  rw [mantissa?]
  split
  · exact word?_bind (Nat.le_add_right _ _) rfl
  · rfl

/-- **The arithmetic of words finds the exact amount of a code if it is a word**, and fails
otherwise. -/
lemma amountInWords?_eq (code : Nat) : amountInWords? code = word? (amountOf code) := by
  by_cases hcode : code = 0
  · rw [amountInWords?, if_pos hcode, amountOf, if_pos hcode]
    rfl
  · have hlast : (code - 1) % 10 < 10 := Nat.mod_lt _ (by decide)
    rw [amountInWords?, if_neg hcode, amountOf, if_neg hcode]
    simp only [Nat.pow_eq, mantissa?_eq]
    generalize (code - 1) / 10 = x
    generalize (code - 1) % 10 = e at hlast
    have hscale : 0 < 10 ^ e := Nat.pow_pos (by decide)
    have hpos : 0 < if e < 9 then x / 9 * 10 + (x % 9 + 1) else x + 1 := by split <;> omega
    have hamount : (if e < 9 then (x / 9 * 10 + (x % 9 + 1)) * 10 ^ e else (x + 1) * 10 ^ 9)
        = (if e < 9 then x / 9 * 10 + (x % 9 + 1) else x + 1) * 10 ^ e := by
      split
      · rfl
      · obtain rfl : e = 9 := by omega
        rfl
    rw [hamount]
    exact word?_bind (Nat.le_mul_of_pos_right _ hscale)
      (word?_bind (Nat.le_mul_of_pos_left _ hpos) rfl)

/-- The amount of a code is found just if it is a word. -/
lemma decompressAmount_eq (code : Nat) :
    decompressAmount code
      = if amountOf code < 0x1_0000_0000_0000_0000 then .ok (amountOf code)
        else .error (.amountOverflow code) := by
  rw [decompressAmount, amountInWords?_eq, word?]
  by_cases h : amountOf code < 0x1_0000_0000_0000_0000
  · rw [if_pos h, if_pos h]
  · rw [if_neg h, if_neg h]

/-- **Amounts**: every word is the amount of its code. -/
lemma decompressAmount_compressAmount {n : Nat} (h : n < 0x1_0000_0000_0000_0000) :
    decompressAmount (compressAmount n) = .ok n := by
  rw [decompressAmount_eq, amountOf_compressAmount, if_pos h]

end SilentScan
