/-
Label sets.

A wallet may give labels to its address; outputs are tested for every label. Label 0 marks change
and is always tested, so a set consists of 0 and of positive labels, each of 32 bits, kept in
ascending order.

* `LabelSet.ofRaw`: the set a client asks for, whatever it sends;
* `LabelSet.toList`: the labels in ascending order.
-/
import SilentScan.Json.Decode

namespace SilentScan

/-- Puts a number in its place in an ascending list, unless it is there. -/
def insertAscending (n : Nat) : List Nat → List Nat
  | [] => [n]
  | m :: rest =>
    if n < m then n :: m :: rest
    else if n = m then m :: rest
    else m :: insertAscending n rest

/-- Insertion adds the number and keeps the others. -/
theorem mem_insertAscending {n k : Nat} {l : List Nat} :
    k ∈ insertAscending n l ↔ k = n ∨ k ∈ l := by
  induction l with
  | nil => simp [insertAscending]
  | cons m rest ih =>
    unfold insertAscending
    split
    · simp
    · split
      · rename_i h; subst h; simp
      · simp [ih, or_left_comm]

/-- Insertion keeps the order. -/
theorem pairwise_insertAscending {n : Nat} {l : List Nat} (h : l.Pairwise (· < ·)) :
    (insertAscending n l).Pairwise (· < ·) := by
  induction l with
  | nil => simp [insertAscending]
  | cons m rest ih =>
    obtain ⟨hm, hr⟩ := List.pairwise_cons.1 h
    unfold insertAscending
    split
    · rename_i hn
      refine List.pairwise_cons.2 ⟨fun k hk => ?_, h⟩
      rcases List.mem_cons.1 hk with rfl | hk
      · exact hn
      · exact Nat.lt_trans hn (hm k hk)
    · split
      · exact h
      · refine List.pairwise_cons.2 ⟨fun k hk => ?_, ih hr⟩
        rcases mem_insertAscending.1 hk with rfl | hk
        · omega
        · exact hm k hk

/-- The labels tested for one address: 0 and the positive ones listed. -/
structure LabelSet where
  positive : List Nat
  ascending : positive.Pairwise (· < ·)
  inRange : ∀ l ∈ positive, 0 < l ∧ l < 0x1_0000_0000
deriving DecidableEq, Repr

namespace LabelSet

/-- The set that holds 0 alone. -/
def change : LabelSet :=
  ⟨[], List.Pairwise.nil, by simp⟩

instance : Inhabited LabelSet := ⟨change⟩

/-- Adds a label; 0 is there already, and a number that is no label changes nothing. -/
def insert (s : LabelSet) (l : Nat) : LabelSet :=
  if h : 0 < l ∧ l < 0x1_0000_0000 then
    ⟨insertAscending l s.positive, pairwise_insertAscending s.ascending, fun k hk =>
      (mem_insertAscending.1 hk).elim (fun e => e ▸ h) (s.inRange k)⟩
  else s

/-- The set of the given labels. -/
def ofList (ls : List Nat) : LabelSet :=
  ls.foldl insert change

/-- The set a client asks for: nulls, and numbers that are no labels, are dropped. -/
def ofRaw (raw : List (Option Int)) : LabelSet :=
  ofList (raw.filterMap fun l => l.map Int.toNat)

/-- The labels in ascending order. -/
def toList (s : LabelSet) : List Nat :=
  0 :: s.positive

/-- Whether a label is in the set. -/
def contains (s : LabelSet) (l : Nat) : Bool :=
  s.toList.contains l

/-- The set as JSON: its labels in order. -/
def toJson (s : LabelSet) : Json :=
  .array (s.toList.map fun (l : Nat) => .int l)

/-- Reads a set from the array of its labels, in any order. -/
def decoder (_ : Source) : Decoder LabelSet := fun depth d =>
  (Decoder.list .u32 depth d).map ofList

end LabelSet
end SilentScan
