/-
Histories of an index.

An index is changed in four ways. What a change does to the indexed tip depends on the change
alone and not on the rows, so the tip after a history of changes is a fold over the history, the
same for both kinds of index.

* `IndexChange`, `Store.change`, `Store.after`, `Store.afterAll`: changes and histories;
* `tipAfter`, `lastIndexed_afterAll`: the tip after a history;
* `notice_add`: what an append announces, told by the tip alone.
-/
import Mathlib.Tactic.Common
import SilentScan.Index.Store

namespace SilentScan

/-- A change of an index. -/
inductive IndexChange where
  | add (txs : List IndexedTransaction)
  | spend (spent : List OutPoint)
  | remove (txids : List Txid)
  | rewind (startHeight : Int)

/-- Whether some transaction of a batch is in a block. -/
def HasConfirmed (txs : List IndexedTransaction) : Prop :=
  ∃ tx ∈ txs, 0 < tx.height

namespace Store

/-- The indexed tip. -/
def tip : Store → IndexTip
  | .memory ix => ix.tip
  | .table ix => ix.tip

/-- Carries out a change. -/
def change : IndexChange → Store → Store × Nat × Notice
  | .add txs => add txs
  | .spend spent => spend spent
  | .remove txids => remove txids
  | .rewind startHeight => rewind startHeight

/-- The index after a change. -/
def after (st : Store) (c : IndexChange) : Store :=
  (st.change c).1

/-- The index after a history of changes. -/
def afterAll (st : Store) (cs : List IndexChange) : Store :=
  cs.foldl after st

end Store

/-! ### The tip -/

namespace IndexTip

/-- The highest height of a batch, if that is the height of a block. -/
def top? (txs : List IndexedTransaction) : Option Int :=
  (txs.map (·.height)).max?.filter (0 < ·)

/-- A batch has a top exactly if it has a confirmed transaction. -/
lemma top?_eq_none_iff {txs : List IndexedTransaction} : top? txs = none ↔ ¬ HasConfirmed txs := by
  cases hm : (txs.map (·.height)).max? with
  | none =>
    have hnil : txs = [] := by simpa using hm
    simp [top?, HasConfirmed, hnil]
  | some m =>
    obtain ⟨hmem, hle⟩ := List.max?_eq_some_iff.1 hm
    simp only [top?, HasConfirmed, hm, Option.filter_eq_none_iff, Option.some.injEq,
      forall_eq', decide_eq_true_eq, not_exists, not_and]
    constructor
    · intro hneg tx htx
      have := hle tx.height (List.mem_map_of_mem htx)
      omega
    · intro hall
      obtain ⟨tx, htx, rfl⟩ := List.mem_map.1 hmem
      exact hall tx htx

/-- The top is the height of a confirmed transaction, and no height is above it. -/
lemma top?_eq_some {txs : List IndexedTransaction} {m : Int} (h : top? txs = some m) :
    0 < m ∧ ∀ tx ∈ txs, tx.height ≤ m := by
  obtain ⟨hmax, hpos⟩ := Option.filter_eq_some_iff.1 h
  refine ⟨by simpa using hpos, fun tx htx => ?_⟩
  exact (List.max?_eq_some_iff.1 hmax).2 _ (List.mem_map_of_mem htx)

/-- A batch without a confirmed transaction is announced by its ids and leaves the tip. -/
lemma appended_of_top?_none {tip : IndexTip} {txs : List IndexedTransaction} {rows : Nat}
    (h : top? txs = none) :
    (tip.appended txs rows).1 = tip ∧
      (tip.appended txs rows).2.events
        = if txs = [] then [] else [.mempoolAdded (txs.map (·.txid))] := by
  cases hm : (txs.map (·.height)).max? with
  | none =>
    have hnil : txs = [] := by simpa using hm
    simp [appended, hnil]
  | some m =>
    have hne : txs ≠ [] := by rintro rfl; simp at hm
    have hlow : m ≤ 0 := by simpa [top?, hm] using h
    simp [appended, hm, hlow, hne]

/-- A batch with a confirmed transaction moves the tip up to its top, and the blocks from above
the old tip up to the top are announced. -/
lemma appended_of_top?_some {tip : IndexTip} {txs : List IndexedTransaction} {rows : Nat} {m : Int}
    (h : top? txs = some m) :
    (tip.appended txs rows).1 = ⟨max tip.lastIndexed m⟩ ∧
      (tip.appended txs rows).2.events
        = [.blocksIndexed (tip.lastIndexed + 1) m txs.length] := by
  obtain ⟨hmax, hpos⟩ := Option.filter_eq_some_iff.1 h
  have hhigh : ¬ m ≤ 0 := by simpa using hpos
  simp [appended, hmax, hhigh]

end IndexTip

/-- The indexed height after a change, from the one before it: the top of a batch may raise it, a
rewind may lower it, and nothing else moves it. -/
def tipStep (last : Int) : IndexChange → Int
  | .add txs => match IndexTip.top? txs with
    | some m => max last m
    | none => last
  | .rewind startHeight => min last (startHeight - 1)
  | .spend _ | .remove _ => last

/-- The indexed height after a history. -/
def tipAfter (last : Int) (cs : List IndexChange) : Int :=
  cs.foldl tipStep last

namespace Store

/-- The rows written do not matter to what an append announces. -/
lemma appended_rows {tip : IndexTip} {txs : List IndexedTransaction} {rows rows' : Nat} :
    (tip.appended txs rows).1 = (tip.appended txs rows').1 ∧
      (tip.appended txs rows).2.events = (tip.appended txs rows').2.events := by
  simp only [IndexTip.appended]
  split
  · exact ⟨rfl, rfl⟩
  · split <;> exact ⟨rfl, rfl⟩

/-- What an append announces is told by the tip and the batch. -/
lemma notice_add (st : Store) (txs : List IndexedTransaction) :
    (st.add txs).2.2.events = (st.tip.appended txs 0).2.events := by
  cases st <;> exact appended_rows.2

lemma tip_add (st : Store) (txs : List IndexedTransaction) :
    (st.add txs).1.tip = (st.tip.appended txs 0).1 := by
  cases st <;> exact appended_rows.1

/-- The blocks that an append announces: from above the tip up to the top of the batch. -/
lemma top?_of_announced {st : Store} {txs : List IndexedTransaction} {lo hi : Int} {count : Nat}
    (h : .blocksIndexed lo hi count ∈ (st.add txs).2.2.events) :
    IndexTip.top? txs = some hi ∧ lo = st.tip.lastIndexed + 1 := by
  rw [notice_add] at h
  cases htop : IndexTip.top? txs with
  | none =>
    rw [(IndexTip.appended_of_top?_none htop).2] at h
    split at h <;> simp at h
  | some m =>
    rw [(IndexTip.appended_of_top?_some htop).2, List.mem_singleton, Event.blocksIndexed.injEq] at h
    obtain ⟨hlo, hhi, _⟩ := h
    exact ⟨congrArg some hhi.symm, hlo⟩

/-- What a change may announce. -/
lemma event_of_change {st : Store} {c : IndexChange} {e : Event}
    (h : e ∈ (st.change c).2.2.events) :
    (∃ lo hi count, e = .blocksIndexed lo hi count) ∨ (∃ ids, e = .mempoolAdded ids)
      ∨ (∃ ids, e = .mempoolRemoved ids)
      ∨ ∃ startHeight, c = .rewind startHeight ∧ e = .reorg startHeight := by
  cases c with
  | add txs =>
    rw [change, notice_add] at h
    cases htop : IndexTip.top? txs with
    | none =>
      rw [(IndexTip.appended_of_top?_none htop).2] at h
      split at h
      · simp at h
      · exact Or.inr (Or.inl ⟨_, List.mem_singleton.1 h⟩)
    | some m =>
      rw [(IndexTip.appended_of_top?_some htop).2] at h
      exact Or.inl ⟨_, _, _, List.mem_singleton.1 h⟩
  | spend spent => cases st <;> simp [change, spend] at h
  | remove txids =>
    have h' : e ∈ (IndexTip.removed txids).events := by cases st <;> exact h
    rw [IndexTip.removed] at h'
    split at h'
    · simp at h'
    · exact Or.inr (Or.inr (Or.inl ⟨_, List.mem_singleton.1 h'⟩))
  | rewind startHeight =>
    have h' : e ∈ [Event.reorg startHeight] := by cases st <;> exact h
    exact Or.inr (Or.inr (Or.inr ⟨_, rfl, List.mem_singleton.1 h'⟩))

/-- A change moves the tip as `tipStep` says. -/
lemma lastIndexed_after (st : Store) (c : IndexChange) :
    (st.after c).tip.lastIndexed = tipStep st.tip.lastIndexed c := by
  cases c with
  | add txs =>
    simp only [after, change, tip_add, tipStep]
    cases htop : IndexTip.top? txs with
    | none => rw [(IndexTip.appended_of_top?_none htop).1]
    | some m => rw [(IndexTip.appended_of_top?_some htop).1]
  | spend spent =>
    cases st with
    | memory ix =>
      simp only [after, change, spend, MemoryIndex.spend, tip, tipStep]
      split <;> rfl
    | table ix =>
      simp only [after, change, spend, TableIndex.spend, tip, tipStep]
      split <;> rfl
  | remove txids => cases st <;> rfl
  | rewind startHeight => cases st <;> rfl

/-- **The tip after a history**: it is the fold of the history, for both kinds of index. -/
lemma lastIndexed_afterAll (st : Store) (cs : List IndexChange) :
    (st.afterAll cs).tip.lastIndexed = tipAfter st.tip.lastIndexed cs := by
  induction cs generalizing st with
  | nil => rfl
  | cons c cs ih =>
    rw [afterAll, List.foldl_cons, ← afterAll, ih, lastIndexed_after]
    rfl

end Store

end SilentScan
