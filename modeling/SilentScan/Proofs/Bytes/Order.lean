/-
Numbers in bytes.

A number that fits a width is read back from its bytes, in either byte order, and bytes never spell
a number that does not fit their count.

* `toNatLE_ofNatLE`, `toNatBE_ofNatBE`: writing and reading back;
* `ofNatLE_toNatLE`: reading and writing back;
* `toNatBE_lt`: the bound on what bytes spell.
-/
import Mathlib.Tactic.Ring
import SilentScan.Bytes.Order

namespace SilentScan.Bytes

/-- The high digits of a number that is written too narrow are lost. -/
lemma toNatLE_ofNatLE (width n : Nat) : toNatLE (ofNatLE width n) = n % 256 ^ width := by
  induction width generalizing n with
  | zero => simp [ofNatLE, toNatLE, Nat.mod_one]
  | succ w ih =>
    have hdigit : (UInt8.ofNat (n % 256)).toNat = n % 256 := by simp
    rw [ofNatLE, toNatLE, ih, hdigit, pow_succ', Nat.mod_mul]

lemma toNatLE_append (as bs : Bytes) :
    toNatLE (as ++ bs) = toNatLE as + 256 ^ as.length * toNatLE bs := by
  induction as with
  | nil => simp [toNatLE]
  | cons a as ih =>
    rw [List.cons_append, toNatLE, toNatLE, ih, List.length_cons, pow_succ]
    ring

/-- The two orders read the same number from opposite ends. -/
lemma toNatBE_eq_toNatLE_reverse (bs : Bytes) : toNatBE bs = toNatLE bs.reverse := by
  have key : ∀ (bs : Bytes) (n : Nat),
      bs.foldl (fun n b => 256 * n + b.toNat) n = toNatLE bs.reverse + 256 ^ bs.length * n := by
    intro bs
    induction bs with
    | nil => simp [toNatLE]
    | cons b bs ih =>
      intro n
      rw [List.foldl_cons, ih, List.reverse_cons, toNatLE_append, List.length_reverse,
        List.length_cons, pow_succ]
      simp only [toNatLE]
      ring
  simpa [toNatBE] using key bs 0

lemma toNatLE_lt (bs : Bytes) : toNatLE bs < 256 ^ bs.length := by
  induction bs with
  | nil => simp [toNatLE]
  | cons b bs ih =>
    have hb : b.toNat < 256 := b.toNat_lt
    rw [toNatLE, List.length_cons, pow_succ]
    omega

/-- Bytes spell a number that fits them. -/
lemma toNatBE_lt (bs : Bytes) : toNatBE bs < 256 ^ bs.length := by
  rw [toNatBE_eq_toNatLE_reverse, ← List.length_reverse]
  exact toNatLE_lt _

/-- **Writing and reading back**: a number that fits the width is read back from its bytes. -/
lemma toNatBE_ofNatBE {width n : Nat} (h : n < 256 ^ width) : toNatBE (ofNatBE width n) = n := by
  rw [toNatBE_eq_toNatLE_reverse, ofNatBE, List.reverse_reverse, toNatLE_ofNatLE,
    Nat.mod_eq_of_lt h]

/-- **Reading and writing back**: bytes come back from the number that they spell. -/
lemma ofNatLE_toNatLE {width : Nat} {bs : Bytes} (h : bs.length = width) :
    ofNatLE width (toNatLE bs) = bs := by
  subst h
  induction bs with
  | nil => rfl
  | cons b bs ih =>
    have hb : b.toNat < 256 := b.toNat_lt
    have hlow : (b.toNat + 256 * toNatLE bs) % 256 = b.toNat := by omega
    have hhigh : (b.toNat + 256 * toNatLE bs) / 256 = toNatLE bs := by omega
    rw [List.length_cons, toNatLE, ofNatLE, hlow, hhigh, ih, UInt8.ofNat_toNat]

end SilentScan.Bytes
