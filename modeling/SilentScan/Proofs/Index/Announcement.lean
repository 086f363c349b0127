/-
What an append announces.

Sessions scan the blocks that are announced and nothing else, so a transaction whose height lies
outside the announced range, or whose id is not announced, reaches no client. An append announces
one thing: the blocks from above the tip up to the top of its batch if the batch has a confirmed
transaction, and the ids of the batch otherwise.

* `Announces`: that events tell of a transaction;
* `announces_add_iff`: after any history, an append announces exactly the confirmed transactions
  above the tip and the unconfirmed ones of a batch without confirmed transactions;
* `mixed_batch_unannounced`: a batch of both kinds leaves its unconfirmed transaction out.
-/
import SilentScan.Proofs.Index.History

namespace SilentScan

/-- That events tell of a transaction: of a confirmed one by a range of blocks around its height,
of an unconfirmed one by its id. -/
def Announces (events : List Event) (tx : IndexedTransaction) : Prop :=
  (0 < tx.height ∧ ∃ lo hi count, .blocksIndexed lo hi count ∈ events ∧ lo ≤ tx.height ∧
      tx.height ≤ hi)
    ∨ (tx.height ≤ 0 ∧ ∃ ids, .mempoolAdded ids ∈ events ∧ tx.txid ∈ ids)

/-- A batch without confirmed transactions announces each of its transactions. -/
lemma announces_of_unconfirmed {tip : IndexTip} {txs : List IndexedTransaction}
    {tx : IndexedTransaction} (h : tx ∈ txs) (hnone : ¬ HasConfirmed txs) :
    Announces (tip.appended txs 0).2.events tx := by
  have hne : txs ≠ [] := List.ne_nil_of_mem h
  have hlow : tx.height ≤ 0 := Int.not_lt.1 fun hpos => hnone ⟨tx, h, hpos⟩
  rw [(IndexTip.appended_of_top?_none (IndexTip.top?_eq_none_iff.2 hnone)).2, if_neg hne]
  exact Or.inr ⟨hlow, _, List.mem_singleton_self _, List.mem_map_of_mem h⟩

/-- A batch with confirmed transactions announces those above the tip. -/
lemma announces_iff_of_confirmed {tip : IndexTip} {txs : List IndexedTransaction}
    {tx : IndexedTransaction} (h : tx ∈ txs) (hconf : HasConfirmed txs) :
    Announces (tip.appended txs 0).2.events tx ↔ 0 < tx.height ∧ tip.lastIndexed < tx.height := by
  cases htop : IndexTip.top? txs with
  | none => exact absurd hconf (IndexTip.top?_eq_none_iff.1 htop)
  | some m =>
    have hle := (IndexTip.top?_eq_some htop).2 tx h
    rw [(IndexTip.appended_of_top?_some htop).2]
    constructor
    · rintro (⟨hpos, lo, hi, count, hmem, hlo, _⟩ | ⟨_, ids, hmem, _⟩)
      · obtain ⟨rfl, rfl, rfl⟩ : lo = tip.lastIndexed + 1 ∧ hi = m ∧ count = txs.length := by
          simpa using hmem
        exact ⟨hpos, by omega⟩
      · simp at hmem
    · rintro ⟨hpos, hlt⟩
      exact Or.inl ⟨hpos, _, _, _, List.mem_singleton_self _, by omega, hle⟩

/-- **Which transactions an append announces**: after any history of an index, an append announces
a transaction of its batch exactly if the transaction is confirmed and above the tip that the
history has left, or the whole batch is unconfirmed. -/
theorem announces_add_iff (start : Store) (history : List IndexChange)
    {txs : List IndexedTransaction} {tx : IndexedTransaction} (h : tx ∈ txs) :
    Announces ((start.afterAll history).add txs).2.2.events tx ↔
      (0 < tx.height ∧ tipAfter start.tip.lastIndexed history < tx.height)
        ∨ ∀ t ∈ txs, t.height ≤ 0 := by
  rw [Store.notice_add, ← Store.lastIndexed_afterAll]
  by_cases hconf : HasConfirmed txs
  · rw [announces_iff_of_confirmed h hconf]
    obtain ⟨t, ht, hpos⟩ := hconf
    refine ⟨Or.inl, fun hor => hor.elim id fun hall => ?_⟩
    have := hall t ht
    omega
  · have hall : ∀ t ∈ txs, t.height ≤ 0 := fun t ht =>
      Int.not_lt.1 fun hpos => hconf ⟨t, ht, hpos⟩
    exact iff_of_true (announces_of_unconfirmed h hconf) (Or.inr hall)

/-- A transaction without outputs, to be used as an example. -/
def sampleTransaction (id : UInt8) (height : Int) : IndexedTransaction where
  txid := List.replicate 32 id
  height := height
  tweakKey := secp256k1.generator
  outputs := []

/-- A late transaction at an indexed height: the tip is at 6 after an append up to 8 and a rewind
to 7, so that of two transactions at 6 and 7 only the second is announced. -/
theorem announces_above_rewound_tip :
    ¬ Announces (((Store.memory { mode := .full, minValue := 0 }).afterAll
        [.add [sampleTransaction 1 8], .rewind 7]).add
          [sampleTransaction 2 6, sampleTransaction 3 7]).2.2.events (sampleTransaction 2 6)
      ∧ Announces (((Store.memory { mode := .full, minValue := 0 }).afterAll
        [.add [sampleTransaction 1 8], .rewind 7]).add
          [sampleTransaction 2 6, sampleTransaction 3 7]).2.2.events (sampleTransaction 3 7) := by
  constructor
  · rw [announces_add_iff _ _ (by simp)]
    decide
  · rw [announces_add_iff _ _ (by simp)]
    decide

/-- **A batch of both kinds**: an empty index takes in a confirmed and an unconfirmed transaction
at once, and the unconfirmed one is not announced. -/
theorem mixed_batch_unannounced :
    ¬ ∀ tx ∈ [sampleTransaction 1 5, sampleTransaction 2 0],
      Announces ((Store.memory { mode := .full, minValue := 0 }).add
        [sampleTransaction 1 5, sampleTransaction 2 0]).2.2.events tx := by
  intro hall
  rcases hall (sampleTransaction 2 0) (by simp) with ⟨hpos, _⟩ | ⟨_, ids, hmem, _⟩
  · exact absurd hpos (by decide)
  · have hevents : ((Store.memory { mode := .full, minValue := 0 }).add
        [sampleTransaction 1 5, sampleTransaction 2 0]).2.2.events = [.blocksIndexed 0 5 2] := rfl
    rw [hevents] at hmem
    simp at hmem

end SilentScan
