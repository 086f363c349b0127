/-
The highest height that an index tells of.

An index tells of the higher one of two heights: that of its highest row, and its tip. A row of a
block stands at or below the tip, so the tip would do. But the rows of transactions outside the
chain are looked at as well, and they count wherever they stand above the tip: a row at height zero
while no block is indexed, and a row below minus one after a rewind as far down as that. Once a
block is indexed, these rows make no difference.

* `Store.highestRow`: the height of the highest row, with `lastIndexed_eq`;
* `heightsFit_after`, `sound_afterAll`: the heights of rows stay words of 32 bits;
* `max_highestRow_eq_iff`: where the rows make no difference;
* `lastIndexed_eq_tip_iff`: the whole, with `unconfirmed_row_counts` the exception.
-/
import SilentScan.Proofs.Index.Announcement
import SilentScan.Proofs.Index.Rows

namespace SilentScan

/-- That the heights of a batch are words of 32 bits. -/
def IndexChange.HeightsFit : IndexChange → Prop
  | .add txs => ∀ tx ∈ txs, heightMin ≤ tx.height ∧ tx.height ≤ heightMax
  | _ => True

namespace Store

/-- The height of the highest row, -1 where there is none. -/
def highestRow (st : Store) : Int :=
  st.heights.max?.getD (-1)

/-- That the heights of all rows are words of 32 bits. -/
def HeightsFit (st : Store) : Prop :=
  ∀ h ∈ st.heights, heightMin ≤ h ∧ h ≤ heightMax

/-- **What an index tells of** is the higher one of its highest row and its tip. -/
lemma lastIndexed_eq {st : Store} (fits : st.HeightsFit) :
    st.lastIndexed = .ok (max st.highestRow st.tip.lastIndexed) := by
  cases st with
  | memory ix => rfl
  | table ix =>
    have hmax : TableIndex.maxHeight ix.rows = .ok (table ix).highestRow := by
      have hheights : (table ix).heights = ix.rows.map (·.height) := rfl
      rw [TableIndex.maxHeight, highestRow, hheights]
      cases hmax : (ix.rows.map (·.height)).max? with
      | none => rfl
      | some h => exact if_pos (fits h (List.max?_eq_some_iff.1 hmax).1)
    rw [lastIndexed, TableIndex.lastIndexed, hmax]
    rfl

/-- The heights of rows stay words of 32 bits. -/
lemma heightsFit_after {st : Store} (fits : st.HeightsFit) {c : IndexChange} (hc : c.HeightsFit) :
    (st.after c).HeightsFit := by
  intro h hmem
  rcases heights_after hmem with hmem | ⟨txs, rfl, tx, htx, rfl⟩
  · exact fits h hmem
  · exact hc tx htx

/-- What holds of the rows of an index holds after a history: they are of blocks up to the tip or
outside the chain, and their heights are words of 32 bits. -/
lemma sound_afterAll {st : Store} (made : st.Made) (fits : st.HeightsFit) {cs : List IndexChange}
    (hcs : ∀ c ∈ cs, c.HeightsFit) : (st.afterAll cs).Made ∧ (st.afterAll cs).HeightsFit := by
  induction cs generalizing st with
  | nil => exact ⟨made, fits⟩
  | cons c cs ih =>
    obtain ⟨hc, hcs⟩ := List.forall_mem_cons.1 hcs
    exact ih (made.changed c) (heightsFit_after fits hc) hcs

/-- **Where the rows make no difference**: if the tip is at zero or above; below, if no row stands
at zero and the highest row, where there is one, or the tip is at minus one. -/
lemma max_highestRow_eq_iff {st : Store} (made : st.Made) :
    max st.highestRow st.tip.lastIndexed = max (-1) st.tip.lastIndexed
      ↔ 0 ≤ st.tip.lastIndexed
        ∨ 0 ∉ st.heights ∧ (st.heights = [] ∨ -1 ∈ st.heights ∨ st.tip.lastIndexed = -1) := by
  have hbelow := height_le_of_made made
  generalize st.tip.lastIndexed = tip at hbelow
  rw [highestRow]
  cases hmax : st.heights.max? with
  | none => simp [List.max?_eq_none_iff.1 hmax]
  | some top =>
    obtain ⟨htop, hle⟩ := List.max?_eq_some_iff.1 hmax
    have hne : st.heights ≠ [] := List.ne_nil_of_mem htop
    have hzero : 0 ∈ st.heights → 0 ≤ top := hle 0
    have hone : -1 ∈ st.heights → -1 ≤ top := hle (-1)
    have hbound := hbelow top htop
    simp only [Option.getD_some, hne, false_or]
    constructor
    · intro heq
      by_cases htip : 0 ≤ tip
      · exact Or.inl htip
      · have hnone : 0 ∉ st.heights := fun hmem => by
          have := hzero hmem
          omega
        refine Or.inr ⟨hnone, ?_⟩
        rcases Int.lt_trichotomy top (-1) with hlow | rfl | hhigh
        · exact Or.inr (by omega)
        · exact Or.inl htop
        · omega
    · rintro (htip | ⟨hnone, hor⟩)
      · omega
      · have hneg : top ≠ 0 := fun heq => hnone (heq ▸ htop)
        rcases hor with hmem | rfl
        · have := hone hmem
          omega
        · omega

/-- **The highest height told of.** An index of either kind, begun empty and changed in any way,
tells of the higher one of its highest row and of the tip, which only appends with a transaction in
a block raise and only rewinds lower. That is the tip, or minus one where the tip is lower, exactly
if the tip is at zero or above, or no row stands at zero and the highest row, where there is one, or
the tip is at minus one. -/
theorem lastIndexed_eq_tip_iff (mode : IndexMode) (minValue : Nat) (st : Store)
    (hst : st = memory { mode, minValue } ∨ st = table { mode, minValue })
    (cs : List IndexChange) (hcs : ∀ c ∈ cs, c.HeightsFit) :
    (st.afterAll cs).lastIndexed = .ok (max (st.afterAll cs).highestRow (tipAfter (-1) cs))
      ∧ ((st.afterAll cs).lastIndexed = .ok (max (-1) (tipAfter (-1) cs))
        ↔ 0 ≤ tipAfter (-1) cs
          ∨ 0 ∉ (st.afterAll cs).heights
            ∧ ((st.afterAll cs).heights = [] ∨ -1 ∈ (st.afterAll cs).heights
              ∨ tipAfter (-1) cs = -1)) := by
  have hempty : st.Made ∧ st.HeightsFit ∧ st.tip.lastIndexed = -1 := by
    rcases hst with rfl | rfl
    · exact ⟨.empty mode minValue, by simp [HeightsFit, heights], rfl⟩
    · have hopen : TableIndex.openFile {} mode minValue = .ok { mode, minValue } := by
        cases mode <;> rfl
      refine ⟨.opened hopen, ?_, rfl⟩
      cases mode <;> simp [HeightsFit, heights, TableIndex.rows, TableFile.table]
  obtain ⟨made, fits, htip⟩ := hempty
  obtain ⟨made, fits⟩ := sound_afterAll made fits hcs
  have htold := lastIndexed_eq fits
  rw [lastIndexed_afterAll, htip] at htold
  have hiff := max_highestRow_eq_iff made
  rw [lastIndexed_afterAll, htip] at hiff
  refine ⟨htold, ?_⟩
  rw [htold, Except.ok.injEq]
  exact hiff

/-- A transaction outside the chain that comes in above indexed blocks makes no difference, and
neither does one that is there when all blocks have been rewound, if it is at minus one. -/
theorem lastIndexed_above_unconfirmed :
    ((memory { mode := .full, minValue := 0 }).afterAll
        [.add [sampleTransaction 1 5], .rewind 3, .add [sampleTransaction 2 0]]).lastIndexed = .ok 2
      ∧ ((table { mode := .full, minValue := 0 }).afterAll
        [.add [sampleTransaction 1 5, sampleTransaction 2 (-1)], .rewind 0]).lastIndexed
          = .ok (-1) := by
  constructor
  · obtain ⟨-, hiff⟩ := lastIndexed_eq_tip_iff .full 0 _ (Or.inl rfl)
      [.add [sampleTransaction 1 5], .rewind 3, .add [sampleTransaction 2 0]]
      (by simp [IndexChange.HeightsFit, sampleTransaction, heightMin, heightMax])
    exact hiff.2 (Or.inl (by decide))
  · obtain ⟨-, hiff⟩ := lastIndexed_eq_tip_iff .full 0 _ (Or.inr rfl)
      [.add [sampleTransaction 1 5, sampleTransaction 2 (-1)], .rewind 0]
      (by simp [IndexChange.HeightsFit, sampleTransaction, heightMin, heightMax])
    exact hiff.2 (Or.inr ⟨by decide, Or.inr (Or.inr (by decide))⟩)

/-- **A transaction outside the chain counts** where no block is indexed: an empty index of either
kind that takes in one at height zero tells of height zero, and of none again once it is dropped. -/
theorem unconfirmed_row_counts :
    max (-1) (tipAfter (-1) [.add [sampleTransaction 1 0]]) = -1
      ∧ ((memory { mode := .full, minValue := 0 }).afterAll
        [.add [sampleTransaction 1 0]]).lastIndexed = .ok 0
      ∧ ((memory { mode := .full, minValue := 0 }).afterAll
        [.add [sampleTransaction 1 0], .remove [List.replicate 32 1]]).lastIndexed = .ok (-1)
      ∧ ((table { mode := .full, minValue := 0 }).afterAll
        [.add [sampleTransaction 1 0]]).lastIndexed = .ok 0
      ∧ ((table { mode := .full, minValue := 0 }).afterAll
        [.add [sampleTransaction 1 0], .remove [List.replicate 32 1]]).lastIndexed = .ok (-1) :=
  ⟨rfl, rfl, rfl, rfl, rfl⟩

end Store

end SilentScan
