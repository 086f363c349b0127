/-
Every word has one varint.

A group of a varint that is followed by another counts one more than it says, so that the numbers
of two groups begin where those of one group end, and so on. The exact value of groups is put down
here by their places; the reader gives just this value where it is a word, and an overflow where it
is not. It never reads a varint that the writer would have written otherwise. Reader and writer are
also followed in the arithmetic of words, where a shift drops high bits and the groups are put into
a buffer of ten slots: no bit is dropped, and no slot is missing.

* `groupsValue`: the exact value of groups;
* `readGroups_eq`: what the reader gives for groups that end;
* `writeVarint_of_readVarint`: what is read is the varint of the result;
* `readWords`, `fillSlots`: the reader and the writer in the arithmetic of words;
* `varint_one_form`: the words and their varints correspond one to one.
-/
import Mathlib.Data.Nat.Bitwise
import Mathlib.Tactic.Ring
import SilentScan.Proofs.Snapshot.Numbers

namespace SilentScan

/-- The exact value of the groups of a varint. A group counts by its place, and one more than it
says if another follows. -/
def groupsValue : Bytes → Nat
  | [] => 0
  | b :: rest =>
    (b.toNat % 128 + if rest = [] then 0 else 1) * 128 ^ rest.length + groupsValue rest

/-! ### The reader -/

/-- **The reader gives the exact value of the groups if it is a word**, and reports an overflow
otherwise. The groups stand behind others that make up `n`. -/
lemma readGroups_eq {groups : Bytes} {last : UInt8} (hgroups : ∀ b ∈ groups, 128 ≤ b.toNat)
    (hlast : last.toNat < 128) (rest : Bytes) (n : Nat) :
    readGroups n (groups ++ last :: rest)
      = if n * 128 ^ (groups.length + 1) + groupsValue (groups ++ [last]) < 0x1_0000_0000_0000_0000
        then .ok (n * 128 ^ (groups.length + 1) + groupsValue (groups ++ [last]), rest)
        else .error .varintOverflow := by
  induction groups generalizing n with
  | nil =>
    have hvalue : n * 128 ^ 1 + groupsValue [last] = 128 * n + last.toNat % 128 := by
      simp [groupsValue]
      ring
    rw [List.nil_append, List.nil_append, List.length_nil, hvalue, readGroups_cons]
    split
    · rw [if_neg (by omega)]
    · rw [if_pos (by omega)]
  | cons b groups ih =>
    obtain ⟨hb, hgroups⟩ := List.forall_mem_cons.1 hgroups
    -- What `b` adds is what the number carried along grows by.
    have hvalue : n * 128 ^ (groups.length + 2) + groupsValue (b :: (groups ++ [last]))
        = (128 * n + b.toNat % 128 + 1) * 128 ^ (groups.length + 1)
          + groupsValue (groups ++ [last]) := by
      simp [groupsValue]
      ring
    have hgrows : 128 * n + b.toNat % 128 + 1
        ≤ (128 * n + b.toNat % 128 + 1) * 128 ^ (groups.length + 1) :=
      Nat.le_mul_of_pos_right _ (Nat.pow_pos (by decide))
    rw [List.cons_append, List.cons_append, List.length_cons, hvalue, readGroups_cons]
    split
    · rw [if_neg (by omega)]
    · rw [if_neg (by omega)]
      split
      · exact ih hgroups _
      · rw [if_neg (by omega)]

/-- The numbers that the groups before make up, with the one that counts for the next group. -/
def groupsBefore : (n : Nat) → Bytes
  | 0 => []
  | n + 1 => writeGroups n

lemma writeGroups_eq (n b : Nat) (hb : b < 128) :
    writeGroups (128 * n + b) = groupsBefore n ++ [UInt8.ofNat (b + 128)] := by
  cases n with
  | zero =>
    rw [writeGroups, if_pos (by omega), groupsBefore, List.nil_append, Nat.mul_zero, Nat.zero_add]
  | succ n =>
    have hhigh : (128 * (n + 1) + b) / 128 - 1 = n := by omega
    have hlow : (128 * (n + 1) + b) % 128 = b := by omega
    rw [writeGroups, if_neg (by omega), groupsBefore, hhigh, hlow]

lemma writeVarint_eq (n b : Nat) (hb : b < 128) :
    writeVarint (128 * n + b) = groupsBefore n ++ [UInt8.ofNat b] := by
  cases n with
  | zero =>
    rw [writeVarint, if_pos (by omega), groupsBefore, List.nil_append, Nat.mul_zero, Nat.zero_add]
  | succ n =>
    have hhigh : (128 * (n + 1) + b) / 128 - 1 = n := by omega
    have hlow : (128 * (n + 1) + b) % 128 = b := by omega
    rw [writeVarint, if_neg (by omega), groupsBefore, hhigh, hlow]

/-- The groups that are read complete those before them to the varint of the result. -/
lemma writeVarint_of_readGroups {n m : Nat} {bs rest : Bytes}
    (h : readGroups n bs = .ok (m, rest)) :
    m < 0x1_0000_0000_0000_0000 ∧ ∃ used, bs = used ++ rest
      ∧ writeVarint m = groupsBefore n ++ used := by
  induction bs generalizing n with
  | nil => simp [readGroups] at h
  | cons b bs ih =>
    rw [readGroups_cons] at h
    have hb := b.toNat_lt
    split at h
    · cases h
    · split at h
      · rename_i hn hlast
        obtain ⟨rfl, rfl⟩ := Prod.mk.inj (Except.ok.inj h)
        refine ⟨by omega, [b], rfl, ?_⟩
        rw [writeVarint_eq _ _ (Nat.mod_lt _ (by decide)), Nat.mod_eq_of_lt hlast,
          UInt8.ofNat_toNat]
      · split at h
        · rename_i hlast hfits
          obtain ⟨hm, used, rfl, hwritten⟩ := ih h
          have hbyte : b.toNat % 128 + 128 = b.toNat := by omega
          refine ⟨hm, b :: used, rfl, ?_⟩
          rw [hwritten, groupsBefore, writeGroups_eq _ _ (Nat.mod_lt _ (by decide)), hbyte,
            UInt8.ofNat_toNat, List.append_assoc, List.singleton_append]
        · cases h

/-- What is read is the varint of the result. -/
lemma writeVarint_of_readVarint {m : Nat} {bs rest : Bytes}
    (h : readVarint bs = .ok (m, rest)) :
    m < 0x1_0000_0000_0000_0000 ∧ bs = writeVarint m ++ rest := by
  obtain ⟨hm, used, rfl, hwritten⟩ := writeVarint_of_readGroups h
  exact ⟨hm, by rw [hwritten]; rfl⟩

/-! ### How far the reader goes -/

/-- A reader that does not run out of groups does not look at what stands behind them. -/
lemma readGroups_append {n : Nat} {bs : Bytes}
    (h : readGroups n bs ≠ .error (.input .truncated)) (rest : Bytes) :
    readGroups n (bs ++ rest) = (readGroups n bs).map fun (m, left) => (m, left ++ rest) := by
  induction bs generalizing n with
  | nil => exact absurd rfl h
  | cons b bs ih =>
    rw [readGroups_cons] at h
    rw [List.cons_append, readGroups_cons, readGroups_cons]
    split
    · rfl
    · rename_i hn
      rw [if_neg hn] at h
      split
      · rfl
      · rename_i hlast
        rw [if_neg hlast] at h
        split
        · rename_i hfits
          rw [if_pos hfits] at h
          exact ih h
        · rfl

/-- A reader that runs out of groups has seen no more than make up a word. -/
lemma mul_pow_lt_of_truncated {n : Nat} {bs : Bytes} (hn : n < 0x1_0000_0000_0000_0000)
    (h : readGroups n bs = .error (.input .truncated)) :
    n * 128 ^ bs.length < 0x1_0000_0000_0000_0000 := by
  induction bs generalizing n with
  | nil => simpa using hn
  | cons b bs ih =>
    rw [readGroups_cons] at h
    split at h
    · cases h
    · split at h
      · cases h
      · split at h
        · rename_i hfits
          calc n * 128 ^ (b :: bs).length
              = n * 128 * 128 ^ bs.length := by rw [List.length_cons, pow_succ']; ring
            _ ≤ (128 * n + b.toNat % 128 + 1) * 128 ^ bs.length :=
                Nat.mul_le_mul_right _ (by omega)
            _ < 0x1_0000_0000_0000_0000 := ih hfits h
        · cases h

/-- A reader that runs out of groups has seen ten at most. -/
lemma length_le_of_truncated {bs : Bytes} (h : readVarint bs = .error (.input .truncated)) :
    bs.length ≤ 10 := by
  cases bs with
  | nil => exact Nat.zero_le _
  | cons b bs =>
    rw [readVarint, readGroups_cons, if_neg (by decide)] at h
    split at h
    · cases h
    · split at h
      · rename_i hfits
        have hbound := mul_pow_lt_of_truncated hfits h
        by_contra hlong
        have hpow : 128 ^ 10 ≤ 128 ^ bs.length :=
          Nat.pow_le_pow_right (by decide) (by simp at hlong; omega)
        have hgrows : 128 ^ bs.length ≤ (128 * 0 + b.toNat % 128 + 1) * 128 ^ bs.length :=
          Nat.le_mul_of_pos_left _ (by omega)
        norm_num at hpow
        omega
      · cases h

/-! ### The arithmetic of words -/

/-- Reads the groups that follow those that make up `n`, in the arithmetic of words. -/
def readWords : (n : UInt64) → Bytes → Except SnapshotError (UInt64 × Bytes)
  | _, [] => .error (.input .truncated)
  | n, b :: rest =>
    if (0xFFFF_FFFF_FFFF_FFFF : UInt64) >>> 7 < n then .error .varintOverflow
    else
      let n := n <<< 7 ||| (b &&& 0x7F).toUInt64
      if b &&& 0x80 = 0 then .ok (n, rest)
      else if n = 0xFFFF_FFFF_FFFF_FFFF then .error .varintOverflow
      else readWords (n + 1) rest

/-- Puts the groups of a word into a buffer, the lowest first, and marks all but the very first.
There must be a slot for each of them. -/
def fillSlots : (slots : Nat) → (marked : Bool) → UInt64 → Option Bytes
  | 0, _, _ => none
  | slots + 1, marked, n =>
    let group := (n &&& 0x7F).toUInt8 ||| if marked then 0x80 else 0
    if n ≤ 0x7F then some [group]
    else (fillSlots slots true ((n >>> 7) - 1)).map (group :: ·)

lemma and_mark_eq_zero_iff (b : UInt8) : b &&& 0x80 = 0 ↔ b.toNat < 128 := by
  have hb := b.toNat_lt
  have hmark : (b &&& 0x80).toNat = (b.toNat.testBit 7).toNat * 2 ^ 7 := Nat.and_two_pow b.toNat 7
  rw [← UInt8.toNat_inj, hmark, Nat.testBit_eq_decide_div_mod_eq]
  by_cases hbit : b.toNat / 2 ^ 7 % 2 = 1
  · simp only [hbit, decide_true, Bool.toNat_true]
    exact iff_of_false (by decide) (by omega)
  · simp only [hbit, decide_false, Bool.toNat_false]
    exact iff_of_true (by decide) (by omega)

lemma or_mark {k : Nat} (hk : k < 128) : UInt8.ofNat k ||| 0x80 = UInt8.ofNat (k + 128) := by
  have hor : k ||| 128 = k + 128 := by
    rw [Nat.or_comm, add_comm]
    exact (Nat.two_pow_add_eq_or_of_lt (i := 7) hk 1).symm
  have hk' : k % 2 ^ 8 = k := Nat.mod_eq_of_lt (by omega)
  rw [← UInt8.toNat_inj, UInt8.toNat_or, UInt8.toNat_ofNat', UInt8.toNat_ofNat', hk']
  exact hor.trans (Nat.mod_eq_of_lt (by omega)).symm

/-- Taking in a group drops no bit of a number that passes the test before. -/
lemma toNat_shiftLeft_or {n : UInt64} (hn : n.toNat < 0x200_0000_0000_0000) (b : UInt8) :
    (n <<< 7 ||| (b &&& 0x7F).toUInt64).toNat = 128 * n.toNat + b.toNat % 128 := by
  have hlow : (b &&& 0x7F).toNat = b.toNat % 128 := Nat.and_two_pow_sub_one_eq_mod b.toNat 7
  have hshift : (n <<< 7).toNat = 2 ^ 7 * n.toNat := by
    rw [UInt64.toNat_shiftLeft, Nat.shiftLeft_eq, mul_comm]
    exact Nat.mod_eq_of_lt (show 2 ^ 7 * n.toNat < 2 ^ 64 by omega)
  rw [UInt64.toNat_or, hshift, UInt8.toNat_toUInt64, hlow,
    ← Nat.two_pow_add_eq_or_of_lt (Nat.mod_lt _ (by decide))]

/-- **Read in the arithmetic of words, a varint gives the same.** -/
lemma readGroups_toNat (n : UInt64) (bs : Bytes) :
    readGroups n.toNat bs = (readWords n bs).map fun (m, rest) => (m.toNat, rest) := by
  induction bs generalizing n with
  | nil => rfl
  | cons b bs ih =>
    have htest : (0xFFFF_FFFF_FFFF_FFFF : UInt64) >>> 7 < n ↔ 0x200_0000_0000_0000 ≤ n.toNat := by
      rw [UInt64.lt_iff_toNat_lt]
      exact Iff.rfl
    rw [readGroups_cons, readWords]
    by_cases hn : 0x200_0000_0000_0000 ≤ n.toNat
    · rw [if_pos hn, if_pos (htest.2 hn)]
      rfl
    · have hvalue := toNat_shiftLeft_or (Nat.lt_of_not_le hn) b
      rw [if_neg hn, if_neg (mt htest.1 hn)]
      simp only [and_mark_eq_zero_iff]
      generalize n <<< 7 ||| (b &&& 0x7F).toUInt64 = m at hvalue ⊢
      by_cases hlast : b.toNat < 128
      · rw [if_pos hlast, if_pos hlast, ← hvalue]
        rfl
      · rw [if_neg hlast, if_neg hlast, ← hvalue]
        by_cases hmax : m = 0xFFFF_FFFF_FFFF_FFFF
        · rw [if_neg (by subst hmax; decide), if_pos hmax]
          rfl
        · have hm : m.toNat + 1 < 0x1_0000_0000_0000_0000 := by
            have hlt := m.toNat_lt
            have hne : m.toNat ≠ 0xFFFF_FFFF_FFFF_FFFF := fun heq => hmax (UInt64.toNat_inj.1 heq)
            omega
          have hnext : (m + 1).toNat = m.toNat + 1 := by
            rw [UInt64.toNat_add]
            exact Nat.mod_eq_of_lt hm
          rw [if_pos hm, if_neg hmax, ← hnext, ih]

/-- The lowest group of a word. -/
lemma toUInt8_or_mark (marked : Bool) (n : UInt64) :
    ((n &&& 0x7F).toUInt8 ||| if marked then 0x80 else 0)
      = UInt8.ofNat (n.toNat % 128 + if marked then 128 else 0) := by
  have hlow : (n &&& 0x7F).toNat = n.toNat % 128 := Nat.and_two_pow_sub_one_eq_mod n.toNat 7
  have hbyte : (n &&& 0x7F).toUInt8 = UInt8.ofNat (n.toNat % 128) := by
    rw [← UInt8.toNat_inj, UInt64.toNat_toUInt8, hlow, UInt8.toNat_ofNat']
  rw [hbyte]
  cases marked with
  | false => exact UInt8.or_zero
  | true => exact or_mark (Nat.mod_lt _ (by decide))

/-- The lowest group stands behind those of the rest of the number. -/
lemma written_eq (marked : Bool) (n : Nat) :
    (if marked then writeGroups n else writeVarint n)
      = groupsBefore (n / 128) ++ [UInt8.ofNat (n % 128 + if marked then 128 else 0)] := by
  have hlt : n % 128 < 128 := Nat.mod_lt _ (by decide)
  have hn : 128 * (n / 128) + n % 128 = n := Nat.div_add_mod n 128
  cases marked with
  | false => simpa [hn] using writeVarint_eq (n / 128) (n % 128) hlt
  | true => simpa [hn] using writeGroups_eq (n / 128) (n % 128) hlt

/-- **The groups of a word find a slot each**, the last one first, if the number is not too large
for the slots. -/
lemma fillSlots_eq {slots : Nat} (hslots : 0 < slots) (marked : Bool) {n : UInt64}
    (hn : n.toNat < 128 ^ slots) :
    fillSlots slots marked n
      = some (if marked then writeGroups n.toNat else writeVarint n.toNat).reverse := by
  induction slots generalizing marked n with
  | zero => exact absurd hslots (lt_irrefl 0)
  | succ slots ih =>
    rw [fillSlots, toUInt8_or_mark, written_eq, List.reverse_append]
    by_cases hlast : n.toNat < 128
    · have htest : n ≤ 0x7F := UInt64.le_iff_toNat_le.2 (Nat.le_of_lt_succ hlast)
      rw [if_pos htest, Nat.div_eq_of_lt hlast]
      rfl
    · have htest : ¬ n ≤ 0x7F := fun hle =>
        hlast (Nat.lt_succ_of_le (UInt64.le_iff_toNat_le.1 hle))
      have hshift : (n >>> 7).toNat = n.toNat / 128 := by
        rw [UInt64.toNat_shiftRight]
        exact Nat.shiftRight_eq_div_pow n.toNat 7
      have hone : (1 : UInt64) ≤ n >>> 7 := by
        rw [UInt64.le_iff_toNat_le, hshift]
        exact Nat.div_pos (Nat.le_of_not_lt hlast) (by decide)
      have hnext : ((n >>> 7) - 1).toNat = n.toNat / 128 - 1 := by
        rw [UInt64.toNat_sub_of_le _ _ hone, hshift]
        rfl
      have hmore : 0 < slots := by
        by_contra hzero
        obtain rfl : slots = 0 := by omega
        exact hlast (by simpa using hn)
      have hfits : ((n >>> 7) - 1).toNat < 128 ^ slots := by
        rw [pow_succ] at hn
        omega
      have hbefore : groupsBefore (n.toNat / 128) = writeGroups (n.toNat / 128 - 1) := by
        obtain ⟨m, hm⟩ : ∃ m, n.toNat / 128 = m + 1 := ⟨n.toNat / 128 - 1, by omega⟩
        rw [hm]
        rfl
      rw [if_neg htest, ih hmore true hfits, hnext, hbefore]
      rfl

lemma length_of_fillSlots {slots : Nat} {marked : Bool} {n : UInt64} {filled : Bytes}
    (h : fillSlots slots marked n = some filled) : 1 ≤ filled.length ∧ filled.length ≤ slots := by
  induction slots generalizing marked n filled with
  | zero => cases h
  | succ slots ih =>
    rw [fillSlots] at h
    split at h
    · obtain rfl := Option.some.inj h
      exact ⟨le_rfl, Nat.succ_le_succ (Nat.zero_le _)⟩
    · obtain ⟨others, hothers, rfl⟩ := Option.map_eq_some_iff.1 h
      have := ih hothers
      simp only [List.length_cons]
      omega

/-! ### One form for each word -/

/-- **Words and varints correspond one to one.** A word is written into one to ten groups, for which
a buffer of ten slots is enough, and is read back from them whatever stands behind. What is read is
always the varint of the result. Groups that end are read exactly if their value is a word, and
otherwise give an overflow; no value is reduced, since in the arithmetic of words the reader gives
the same. A reader that has eleven bytes before it ends within them. -/
theorem varint_one_form :
    (∀ n : UInt64, ∃ filled, fillSlots 10 false n = some filled
      ∧ writeVarint n.toNat = filled.reverse
      ∧ 1 ≤ (writeVarint n.toNat).length ∧ (writeVarint n.toNat).length ≤ 10
      ∧ ∀ rest, readVarint (writeVarint n.toNat ++ rest) = .ok (n.toNat, rest))
    ∧ (∀ bs n rest, readVarint bs = .ok (n, rest) →
      n < 2 ^ 64 ∧ bs = writeVarint n ++ rest)
    ∧ (∀ groups : Bytes, ∀ last : UInt8, ∀ rest, (∀ b ∈ groups, 128 ≤ b.toNat) →
      last.toNat < 128 →
      readVarint (groups ++ last :: rest)
        = if groupsValue (groups ++ [last]) < 2 ^ 64 then
            .ok (groupsValue (groups ++ [last]), rest)
          else .error .varintOverflow)
    ∧ (∀ bs, readVarint bs = (readWords 0 bs).map fun (n, rest) => (n.toNat, rest))
    ∧ ∀ front rest, front.length = 11 →
      readVarint front ≠ .error (.input .truncated)
        ∧ readVarint (front ++ rest)
          = (readVarint front).map fun (n, left) => (n, left ++ rest) := by
  refine ⟨fun n => ?_, fun bs n rest h => ?_, fun groups last rest hgroups hlast => ?_,
    readGroups_toNat 0, fun front rest hlength => ?_⟩
  · have hfilled : fillSlots 10 false n = some (writeVarint n.toNat).reverse :=
      fillSlots_eq (by decide) false (n.toNat_lt.trans (by decide))
    have hlength := length_of_fillSlots hfilled
    rw [List.length_reverse] at hlength
    exact ⟨_, hfilled, (List.reverse_reverse _).symm, hlength.1, hlength.2,
      recovers_readVarint n.toNat_lt⟩
  · exact writeVarint_of_readVarint h
  · simpa [readVarint] using readGroups_eq hgroups hlast rest 0
  · have hmore : readVarint front ≠ .error (.input .truncated) := fun h => by
      have := length_le_of_truncated h
      omega
    exact ⟨hmore, readGroups_append hmore rest⟩

/-- The largest word has ten groups. The groups after it are one too many, though they come to zero
in 64 bits, and eleven groups that go on are not read to the end. -/
theorem largest_word_one_form :
    readVarint ([0x80, 0xFE, 0xFE, 0xFE, 0xFE, 0xFE, 0xFE, 0xFE, 0xFE, 0x7F] ++ [0x05])
        = .ok (2 ^ 64 - 1, [0x05])
      ∧ [0x80, 0xFE, 0xFE, 0xFE, 0xFE, 0xFE, 0xFE, 0xFE, 0xFE, 0x7F, 0x05]
        = writeVarint (2 ^ 64 - 1) ++ [0x05]
      ∧ readVarint ([0x80, 0xFE, 0xFE, 0xFE, 0xFE, 0xFE, 0xFE, 0xFE, 0xFF] ++ 0x00 :: [0x05])
        = .error .varintOverflow
      ∧ readVarint (List.replicate 11 0x80 ++ [0x05]) ≠ .error (.input .truncated) := by
  obtain ⟨-, hread, hvalue, -, hend⟩ := varint_one_form
  have hlargest :
      readVarint ([0x80, 0xFE, 0xFE, 0xFE, 0xFE, 0xFE, 0xFE, 0xFE, 0xFE, 0x7F] ++ [0x05])
        = .ok (2 ^ 64 - 1, [0x05]) := rfl
  obtain ⟨hmore, hsame⟩ := hend (List.replicate 11 0x80) [0x05] rfl
  refine ⟨hlargest, (hread _ _ _ hlargest).2, ?_, fun h => ?_⟩
  · rw [hvalue _ _ _ (by simp) (by decide), if_neg (by decide)]
  · rw [hsame] at h
    cases hfirst : readVarint (List.replicate 11 0x80) with
    | ok r => rw [hfirst] at h; cases h
    | error e => rw [hfirst] at h; exact hmore (hfirst.trans h)

end SilentScan
