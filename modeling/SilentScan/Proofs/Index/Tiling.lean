/-
The heights that announced ranges cover.

Sessions scan the blocks that are announced and no others, so the announced ranges must leave no gap
and must not overlap. At first the heights up to the tip count as covered. A range that is announced
covers its heights, and a rewind uncovers those of the blocks that it drops. After any calls the
covered heights are just those up to the tip: a range begins above the tip, so that it is disjoint
from all that is covered, and the tip comes to where it ends.

* `TipCall`, `IndexTip.call`, `IndexTip.afterCalls`, `IndexTip.published`: the calls that move the
  tip, and what they publish;
* `IndexTip.covered`: the heights covered after some calls;
* `IndexTip.countP_call`, `IndexTip.le_lastIndexed_call`: what one call does at a height;
* `IndexTip.covered_eq_Iic`, `le_lastIndexed_afterCalls`, `countP_published`: what calls do, one
  after another;
* `Tiled`, `heights_tiled`: the whole.
-/
import Mathlib.Data.Int.ConditionallyCompleteOrder
import Mathlib.Data.Int.SuccPred
import Mathlib.Data.List.Basic
import Mathlib.Order.CompletePartialOrder
import SilentScan.Proofs.Index.Announcement

namespace SilentScan

/-- A call by which the tip is moved and the change announced. -/
inductive TipCall where
  /-- Transactions have been added as `rows` rows. -/
  | appended (txs : List IndexedTransaction) (rows : Nat)
  /-- The rows at a height and above, `rows` of them, have been dropped. -/
  | rewound (startHeight : Int) (rows : Nat)

/-- That a height and those beside it are words of 32 bits. -/
def HasNeighbours (h : Int) : Prop :=
  heightMin < h ∧ h < heightMax

namespace TipCall

/-- The heights of the blocks that a call drops. -/
def uncovered : TipCall → Set Int
  | .appended _ _ => ∅
  | .rewound startHeight _ => Set.Ici startHeight

/-- That a call takes in a block at a height or above. -/
def Reaches (h : Int) : TipCall → Prop
  | .appended txs _ => ∃ tx ∈ txs, 0 < tx.height ∧ h ≤ tx.height
  | .rewound _ _ => False

instance (h : Int) (c : TipCall) : Decidable (c.Reaches h) :=
  match c with
  | .appended txs _ => inferInstanceAs (Decidable (∃ tx ∈ txs, 0 < tx.height ∧ h ≤ tx.height))
  | .rewound _ _ => inferInstanceAs (Decidable False)

/-- That the heights given to a call, with those beside them, are words of 32 bits. -/
def HeightsFit : TipCall → Prop
  | .appended txs _ => ∀ tx ∈ txs, HasNeighbours tx.height
  | .rewound startHeight _ => HasNeighbours startHeight

/-- A batch reaches the heights up to its top. -/
lemma reaches_appended_iff {h : Int} {txs : List IndexedTransaction} {rows : Nat} :
    (appended txs rows).Reaches h ↔ ∃ m, IndexTip.top? txs = some m ∧ h ≤ m := by
  constructor
  · rintro ⟨tx, htx, hpos, hle⟩
    cases htop : IndexTip.top? txs with
    | none => exact absurd ⟨tx, htx, hpos⟩ (IndexTip.top?_eq_none_iff.1 htop)
    | some m => exact ⟨m, rfl, hle.trans ((IndexTip.top?_eq_some htop).2 tx htx)⟩
  · rintro ⟨m, htop, hle⟩
    obtain ⟨hmax, -⟩ := Option.filter_eq_some_iff.1 htop
    obtain ⟨tx, htx, rfl⟩ := List.mem_map.1 (List.max?_eq_some_iff.1 hmax).1
    exact ⟨tx, htx, (IndexTip.top?_eq_some htop).1, hle⟩

/-- A call does not take in blocks and drop some. -/
lemma uncovered_of_reaches {h : Int} {c : TipCall} (hreach : c.Reaches h) : c.uncovered = ∅ := by
  cases c with
  | appended txs rows => rfl
  | rewound startHeight rows => exact hreach.elim

end TipCall

/-- Whether an event announces the block at a height. -/
def Event.covers (h : Int) : Event → Bool
  | .blocksIndexed lo hi _ => lo ≤ h && h ≤ hi
  | _ => false

namespace IndexTip

/-- Carries out a call. -/
def call (tip : IndexTip) : TipCall → IndexTip × Notice
  | .appended txs rows => tip.appended txs rows
  | .rewound startHeight rows => tip.rewound startHeight rows

/-- The tip after calls. -/
def afterCalls (tip : IndexTip) (calls : List TipCall) : IndexTip :=
  calls.foldl (fun tip c => (tip.call c).1) tip

/-- The events that calls publish. -/
def published : IndexTip → List TipCall → List Event
  | _, [] => []
  | tip, c :: calls => (tip.call c).2.events ++ published (tip.call c).1 calls

/-- The heights covered after a call, from those covered before. -/
def coverCall (tip : IndexTip) (covered : Set Int) (c : TipCall) : Set Int :=
  (covered \ c.uncovered) ∪ {h | ∃ e ∈ (tip.call c).2.events, e.covers h}

/-- The heights covered after calls, from those covered before. -/
def coverCalls : IndexTip → Set Int → List TipCall → Set Int
  | _, covered, [] => covered
  | tip, covered, c :: calls => coverCalls (tip.call c).1 (tip.coverCall covered c) calls

/-- The heights covered after calls, if those up to the tip are covered before. -/
def covered (tip : IndexTip) (calls : List TipCall) : Set Int :=
  tip.coverCalls (Set.Iic tip.lastIndexed) calls

/-! ### One call -/

/-- **How often a call announces a height**: once if the height is above the tip and the call takes
in a block there or above, and otherwise not at all. -/
lemma countP_call (tip : IndexTip) (c : TipCall) (h : Int) :
    (tip.call c).2.events.countP (·.covers h)
      = if tip.lastIndexed < h ∧ c.Reaches h then 1 else 0 := by
  cases c with
  | appended txs rows =>
    simp only [call, TipCall.reaches_appended_iff]
    cases htop : top? txs with
    | none =>
      rw [(appended_of_top?_none htop).2]
      split <;> simp [Event.covers]
    | some m =>
      rw [(appended_of_top?_some htop).2]
      simp [Event.covers, List.countP_singleton]
  | rewound startHeight rows => simp [call, rewound, Event.covers, TipCall.Reaches]

/-- **Where the tip is after a call**: at a height or above if it was so before and the block there
is not dropped, or if the call takes in a block there or above. -/
lemma le_lastIndexed_call (tip : IndexTip) (c : TipCall) (h : Int) :
    h ≤ (tip.call c).1.lastIndexed
      ↔ (h ≤ tip.lastIndexed ∧ h ∉ c.uncovered) ∨ c.Reaches h := by
  cases c with
  | appended txs rows =>
    simp only [call, TipCall.reaches_appended_iff, TipCall.uncovered]
    cases htop : top? txs with
    | none => simp [(appended_of_top?_none htop).1]
    | some m => simp [(appended_of_top?_some htop).1]
  | rewound startHeight rows =>
    simp [call, rewound, TipCall.uncovered, TipCall.Reaches]

/-- A call announces the heights above the tip that it reaches. -/
lemma covers_call_iff (tip : IndexTip) (c : TipCall) (h : Int) :
    (∃ e ∈ (tip.call c).2.events, e.covers h) ↔ tip.lastIndexed < h ∧ c.Reaches h := by
  rw [← List.countP_pos_iff, countP_call]
  split <;> simp_all

/-- A call keeps it that the heights up to the tip are covered and no others. -/
lemma coverCall_Iic (tip : IndexTip) (c : TipCall) :
    tip.coverCall (Set.Iic tip.lastIndexed) c = Set.Iic (tip.call c).1.lastIndexed := by
  ext h
  rw [coverCall, Set.mem_union, Set.mem_sdiff, Set.mem_Iic, Set.mem_ofPred_eq, covers_call_iff,
    Set.mem_Iic, le_lastIndexed_call]
  constructor
  · rintro (hkept | ⟨-, hreach⟩)
    · exact Or.inl hkept
    · exact Or.inr hreach
  · rintro (hkept | hreach)
    · exact Or.inl hkept
    · rcases lt_or_ge tip.lastIndexed h with habove | hbelow
      · exact Or.inr ⟨habove, hreach⟩
      · refine Or.inl ⟨hbelow, ?_⟩
        rw [TipCall.uncovered_of_reaches hreach]
        exact Set.notMem_empty h

/-- A call that is given heights with neighbours leaves a tip that has one above it. -/
lemma fits_call {tip : IndexTip} {c : TipCall} (hc : c.HeightsFit)
    (htip : heightMin ≤ tip.lastIndexed ∧ tip.lastIndexed < heightMax) :
    heightMin ≤ (tip.call c).1.lastIndexed ∧ (tip.call c).1.lastIndexed < heightMax := by
  cases c with
  | appended txs rows =>
    simp only [call]
    cases htop : top? txs with
    | none => rwa [(appended_of_top?_none htop).1]
    | some m =>
      have hreach : (TipCall.appended txs rows).Reaches m :=
        TipCall.reaches_appended_iff.2 ⟨m, htop, le_rfl⟩
      obtain ⟨tx, htx, -, hle⟩ := hreach
      obtain ⟨-, hfit⟩ : HasNeighbours tx.height := hc tx htx
      rw [(appended_of_top?_some htop).1]
      exact ⟨htip.1.trans (le_max_left _ _), max_lt htip.2 (hle.trans_lt hfit)⟩
  | rewound startHeight rows =>
    obtain ⟨hfit, -⟩ : HasNeighbours startHeight := hc
    simp only [call, rewound]
    omega

/-! ### Calls one after another -/

lemma afterCalls_append (tip : IndexTip) (calls more : List TipCall) :
    tip.afterCalls (calls ++ more) = (tip.afterCalls calls).afterCalls more :=
  List.foldl_append

/-- **The covered heights** are those up to the tip. -/
lemma covered_eq_Iic (tip : IndexTip) (calls : List TipCall) :
    tip.covered calls = Set.Iic (tip.afterCalls calls).lastIndexed := by
  induction calls generalizing tip with
  | nil => rfl
  | cons c calls ih =>
    rw [covered, coverCalls, coverCall_Iic]
    exact ih (tip.call c).1

/-- Where the tip is after calls that do not uncover a height: there or above if it was so before or
one of them takes in a block there or above. -/
lemma le_lastIndexed_afterCalls (tip : IndexTip) {h : Int} {stretch : List TipCall}
    (hkept : ∀ c ∈ stretch, h ∉ c.uncovered) :
    h ≤ (tip.afterCalls stretch).lastIndexed
      ↔ h ≤ tip.lastIndexed ∨ ∃ c ∈ stretch, c.Reaches h := by
  induction stretch generalizing tip with
  | nil => simp [afterCalls]
  | cons c stretch ih =>
    obtain ⟨hc, hrest⟩ := List.forall_mem_cons.1 hkept
    rw [List.exists_mem_cons_iff, ← or_assoc]
    refine (ih (tip.call c).1 hrest).trans (or_congr_left ?_)
    rw [le_lastIndexed_call, and_iff_left hc]

/-- **How often calls announce a height** that none of them uncovers: once if the height is above
the tip and one of them takes in a block there or above, and otherwise not at all. -/
lemma countP_published (tip : IndexTip) {h : Int} {stretch : List TipCall}
    (hkept : ∀ c ∈ stretch, h ∉ c.uncovered) :
    (tip.published stretch).countP (·.covers h)
      = if tip.lastIndexed < h ∧ ∃ c ∈ stretch, c.Reaches h then 1 else 0 := by
  induction stretch generalizing tip with
  | nil => simp [published]
  | cons c stretch ih =>
    obtain ⟨hc, hrest⟩ := List.forall_mem_cons.1 hkept
    -- Whether the tip is above the height already is told from before the call.
    have hnext : (tip.call c).1.lastIndexed < h ↔ tip.lastIndexed < h ∧ ¬ c.Reaches h := by
      rw [← Int.not_le, le_lastIndexed_call, not_or, ← Int.not_le, and_iff_left hc]
    rw [published, List.countP_append, countP_call, ih _ hrest]
    simp only [hnext, List.exists_mem_cons_iff]
    by_cases habove : tip.lastIndexed < h <;> by_cases hreach : c.Reaches h <;>
      simp [habove, hreach]

lemma fits_afterCalls {tip : IndexTip} {calls : List TipCall} (hcalls : ∀ c ∈ calls, c.HeightsFit)
    (htip : heightMin ≤ tip.lastIndexed ∧ tip.lastIndexed < heightMax) :
    heightMin ≤ (tip.afterCalls calls).lastIndexed
      ∧ (tip.afterCalls calls).lastIndexed < heightMax := by
  induction calls generalizing tip with
  | nil => exact htip
  | cons c calls ih =>
    obtain ⟨hc, hrest⟩ := List.forall_mem_cons.1 hcalls
    exact ih hrest (fits_call hc htip)

end IndexTip

/-! ### The whole -/

/-- What holds of a tip after calls, those up to the first tip being covered before. -/
structure Tiled (first : IndexTip) (calls : List TipCall) : Prop where
  /-- The covered heights are those up to the tip. -/
  covered : first.covered calls = Set.Iic (first.afterCalls calls).lastIndexed
  /-- Whichever call comes next, a range that it announces is disjoint from what is covered. -/
  disjoint : ∀ c lo hi count,
    .blocksIndexed lo hi count ∈ ((first.afterCalls calls).call c).2.events →
      Disjoint (Set.Icc lo hi) (first.covered calls)
  /-- A batch of unconfirmed transactions leaves the tip and what is covered. -/
  unconfirmed : ∀ txs rows, (∀ tx ∈ txs, tx.height ≤ 0) →
    first.afterCalls (calls ++ [.appended txs rows]) = first.afterCalls calls
      ∧ first.covered (calls ++ [.appended txs rows]) = first.covered calls
  /-- As long as no rewind uncovers a height, it is announced at most once, and just if it is not
  covered at first and is covered in the end. -/
  once : ∀ h stretch, (∀ c ∈ stretch, h ∉ c.uncovered) →
    ((first.afterCalls calls).published stretch).countP (·.covers h) ≤ 1
      ∧ (((first.afterCalls calls).published stretch).countP (·.covers h) = 1
        ↔ h ∉ first.covered calls ∧ h ∈ first.covered (calls ++ stretch))
  /-- That is so as soon as a block there or above is taken in. -/
  reached : ∀ h stretch, (∀ c ∈ stretch, h ∉ c.uncovered) → h ∉ first.covered calls →
    (h ∈ first.covered (calls ++ stretch) ↔ ∃ c ∈ stretch, c.Reaches h)
  /-- If all heights given have neighbours among the words of 32 bits, the tip and the height above
  it are such words. -/
  fits : heightMin ≤ first.lastIndexed → first.lastIndexed < heightMax →
    (∀ c ∈ calls, c.HeightsFit) →
      heightMin ≤ (first.afterCalls calls).lastIndexed
        ∧ (first.afterCalls calls).lastIndexed + 1 ≤ heightMax

/-- **The announced ranges tile the heights.** From whatever tip, and after whatever appends and
rewinds, the covered heights are those up to the tip, a range announced next is disjoint from them,
batches of unconfirmed transactions change nothing, and between the rewinds that uncover it a height
is announced once, when it is covered, and not again. -/
theorem heights_tiled (first : IndexTip) (calls : List TipCall) : Tiled first calls where
  covered := first.covered_eq_Iic calls
  disjoint := by
    intro c lo hi count hevent
    rw [Set.disjoint_left]
    intro h hmem hcovered
    have hannounced : ∃ e ∈ ((first.afterCalls calls).call c).2.events, e.covers h :=
      ⟨_, hevent, by simpa [Event.covers] using hmem⟩
    obtain ⟨habove, -⟩ := (IndexTip.covers_call_iff _ c h).1 hannounced
    rw [IndexTip.covered_eq_Iic] at hcovered
    exact absurd hcovered (Int.not_le.2 habove)
  unconfirmed := by
    intro txs rows hlow
    have hnone : IndexTip.top? txs = none := IndexTip.top?_eq_none_iff.2 fun ⟨tx, htx, hpos⟩ =>
      absurd (hlow tx htx) (Int.not_le.2 hpos)
    have htip : first.afterCalls (calls ++ [.appended txs rows]) = first.afterCalls calls := by
      rw [IndexTip.afterCalls_append]
      exact (IndexTip.appended_of_top?_none hnone).1
    exact ⟨htip, by rw [IndexTip.covered_eq_Iic, IndexTip.covered_eq_Iic, htip]⟩
  once := by
    intro h stretch hkept
    rw [IndexTip.countP_published _ hkept, IndexTip.covered_eq_Iic, IndexTip.covered_eq_Iic,
      Set.mem_Iic, Set.mem_Iic, IndexTip.afterCalls_append,
      IndexTip.le_lastIndexed_afterCalls _ hkept, Int.not_le]
    split
    · rename_i hannounced
      exact ⟨le_rfl, iff_of_true rfl ⟨hannounced.1, Or.inr hannounced.2⟩⟩
    · rename_i hnone
      refine ⟨Nat.zero_le 1, iff_of_false Nat.zero_ne_one ?_⟩
      rintro ⟨habove, hor⟩
      exact hnone ⟨habove, hor.resolve_left (Int.not_le.2 habove)⟩
  reached := by
    intro h stretch hkept hopen
    rw [IndexTip.covered_eq_Iic, Set.mem_Iic] at hopen
    rw [IndexTip.covered_eq_Iic, Set.mem_Iic, IndexTip.afterCalls_append,
      IndexTip.le_lastIndexed_afterCalls _ hkept, or_iff_right hopen]
  fits := fun hlow hhigh hcalls => IndexTip.fits_afterCalls hcalls ⟨hlow, hhigh⟩

/-- A height announced, uncovered and announced again: the tip is at 99, a batch jumps to 103 and a
rewind drops the blocks from 101. Of a late batch, an unconfirmed one and one above, with a rewind
above all of them in between, the last alone announces height 102. -/
theorem rewound_height_announced_again :
    IndexTip.covered ⟨99⟩ [.appended [sampleTransaction 1 103] 1, .rewound 101 1] = Set.Iic 100
      ∧ ((IndexTip.afterCalls ⟨99⟩
            [.appended [sampleTransaction 1 103] 1, .rewound 101 1]).published
          [.appended [sampleTransaction 2 100] 1, .appended [sampleTransaction 3 0] 1,
            .rewound 200 0, .appended [sampleTransaction 4 104] 1]).countP (·.covers 102) = 1 := by
  obtain ⟨hcovered, -, -, honce, hreached, -⟩ := heights_tiled ⟨99⟩
    [.appended [sampleTransaction 1 103] 1, .rewound 101 1]
  have hkept : ∀ c ∈ ([.appended [sampleTransaction 2 100] 1, .appended [sampleTransaction 3 0] 1,
      .rewound 200 0, .appended [sampleTransaction 4 104] 1] : List TipCall),
      (102 : Int) ∉ c.uncovered := by
    simp [TipCall.uncovered]
  have hopen : (102 : Int) ∉ IndexTip.covered ⟨99⟩
      [.appended [sampleTransaction 1 103] 1, .rewound 101 1] := by
    rw [hcovered]
    decide
  have htaken : (TipCall.appended [sampleTransaction 4 104] 1).Reaches 102 := by decide
  exact ⟨hcovered, (honce 102 _ hkept).2.2 ⟨hopen, (hreached 102 _ hkept hopen).2
    ⟨_, List.mem_of_getElem? (i := 3) rfl, htaken⟩⟩⟩

end SilentScan
