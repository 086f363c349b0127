/-
The part done as a function of the samples.

A tracker takes in the numbers of processed rows and of all rows, sample by sample, however they
move. The part that it reports is the greatest that any sample so far has shown of the rows beyond
the first that were processed. Its arithmetic is followed on numbers that may not fall below zero
and are not divided by zero; no step of it fails.

* `ProgressTracker.report?`, `reports?`: the reports in an arithmetic that can fail;
* `shown`, `partDone`: the part that samples show done;
* `ProgressTracker.of_samples`: the tracker after some samples;
* `reports_are_parts_done`: all reports.
-/
import Mathlib.Data.Nat.PSub
import SilentScan.Proofs.Scan.Ending

namespace SilentScan

/-! ### Reports in an arithmetic that can fail -/

/-- The quotient of two numbers, unless the divisor is zero. -/
def quotient? (a b : ℚ) : Option ℚ :=
  if b = 0 then none else some (a / b)

namespace ProgressTracker

/-- Takes in a sample and reports the part done. A difference that falls below zero and is not
held there is a failure, and so is a division by zero. -/
def report? (t : ProgressTracker ℚ) (processed total : Nat) : Option (ℚ × ProgressTracker ℚ) :=
  let baseline := if t.baseline = none ∧ 0 < processed then some processed else t.baseline
  match baseline with
  | none => some (t.last, { t with baseline })
  | some base =>
    if base < total then
      (Nat.psub total base).bind fun remaining =>
        (quotient? ((processed - base : Nat) : ℚ) remaining).map fun q =>
          let last := max t.last (max 0 (min 1 q))
          (last, { baseline, last })
    else some (t.last, { t with baseline })

/-- Takes in samples one after another. -/
def reports? : ProgressTracker ℚ → List (Nat × Nat) → Option (List ℚ × ProgressTracker ℚ)
  | t, [] => some ([], t)
  | t, (processed, total) :: rest =>
    (t.report? processed total).bind fun (q, t) =>
      (reports? t rest).map fun (qs, t) => (q :: qs, t)

/-- The tracker after some more samples. -/
def afterSamples (t : ProgressTracker ℚ) (samples : List (Nat × Nat)) : ProgressTracker ℚ :=
  samples.foldl (fun t c => t.update c.1 c.2) t

/-- **No step of a report fails**, and what is reported is the part that the tracker keeps. -/
lemma report?_eq (t : ProgressTracker ℚ) (processed total : Nat) :
    t.report? processed total
      = some ((t.update processed total).last, t.update processed total) := by
  have hbaseline : (if t.baseline = none ∧ 0 < processed then some processed else t.baseline)
      = t.baseline.or (if 0 < processed then some processed else none) := by
    cases t.baseline <;> simp
  rw [report?, update_eq, hbaseline]
  cases t.baseline.or (if 0 < processed then some processed else none) with
  | none => rfl
  | some base =>
    by_cases hless : base < total
    · have hremaining : ((total - base : Nat) : ℚ) ≠ 0 := Nat.cast_ne_zero.2 (by omega)
      have hshare : (0 : ℚ) ≤ ((processed - base : Nat) : ℚ) / ((total - base : Nat) : ℚ) :=
        div_nonneg (Nat.cast_nonneg _) (Nat.cast_nonneg _)
      simp only [Option.elim_some, if_pos hless, Nat.psub_eq_sub hless.le, Option.bind_some,
        quotient?, if_neg hremaining, Option.map_some]
      rw [max_eq_right (le_min zero_le_one hshare)]
      rfl
    · simp only [Option.elim_some, if_neg hless]

lemma reports?_eq (t : ProgressTracker ℚ) (samples : List (Nat × Nat)) :
    t.reports? samples = some ((List.range samples.length).map fun k =>
      (t.afterSamples (samples.take (k + 1))).last, t.afterSamples samples) := by
  induction samples generalizing t with
  | nil => rfl
  | cons c samples ih =>
    simp only [reports?, report?_eq, Option.bind_some, ih, Option.map_some, List.length_cons,
      List.range_succ_eq_map, List.map_cons, List.map_map]
    rfl

lemma afterSamples_append (t : ProgressTracker ℚ) (samples more : List (Nat × Nat)) :
    t.afterSamples (samples ++ more) = (t.afterSamples samples).afterSamples more :=
  List.foldl_append

/-- Parts reported later are not smaller. -/
lemma last_afterSamples {t : ProgressTracker ℚ} (h : t.InRange) (samples : List (Nat × Nat)) :
    (t.afterSamples samples).InRange ∧ t.last ≤ (t.afterSamples samples).last := by
  induction samples generalizing t with
  | nil => exact ⟨h, le_refl _⟩
  | cons c samples ih =>
    obtain ⟨hrange, hle⟩ := ih (inRange_update h c.1 c.2)
    exact ⟨hrange, (last_update h.2 c.1 c.2).1.trans hle⟩

/-- Parts reported after more of the samples are not smaller. -/
lemma last_take_le {t : ProgressTracker ℚ} (h : t.InRange) (samples : List (Nat × Nat)) {j k : Nat}
    (hjk : j ≤ k) : (t.afterSamples (samples.take j)).last
      ≤ (t.afterSamples (samples.take k)).last := by
  have hmore : samples.take k = samples.take j ++ (samples.take k).drop j := by
    have htake := List.take_take (j := k) (i := j) (l := samples)
    rw [Nat.min_eq_left hjk] at htake
    rw [← htake, List.take_append_drop]
  rw [hmore, afterSamples_append]
  exact (last_afterSamples (last_afterSamples h _).1 _).2

end ProgressTracker

/-! ### The part that samples show -/

/-- The part that a sample shows done of the rows beyond the first `base`. -/
def shown (base : Nat) (c : Nat × Nat) : ℚ :=
  if c.1 < base then 0 else min 1 (((c.1 : ℚ) - base) / (c.2 - base))

/-- The greatest part that any sample shows done of the rows beyond the first processed, none if
there is no such sample. -/
def partDone (samples : List (Nat × Nat)) : ℚ :=
  (baseline? samples).elim 0 fun base =>
    ((samples.filter (base < ·.2)).map (shown base)).max?.getD 0

/-- A sample shows the quotient that the tracker forms. -/
lemma shown_eq_ratio {base : Nat} {c : Nat × Nat} (h : base < c.2) :
    shown base c = Portion.ratio (c.1 - base) (c.2 - base) := by
  have hratio : (Portion.ratio (c.1 - base) (c.2 - base) : ℚ)
      = min 1 (((c.1 - base : Nat) : ℚ) / ((c.2 - base : Nat) : ℚ)) := rfl
  rw [shown, hratio, Nat.cast_sub h.le]
  split
  · rename_i hbelow
    rw [Nat.sub_eq_zero_of_le hbelow.le, Nat.cast_zero, zero_div]
    exact (min_eq_right zero_le_one).symm
  · rename_i hbelow
    rw [Nat.cast_sub (by omega)]

/-- Samples without rows beyond the first show none. -/
lemma shown_of_le {base : Nat} {c : Nat × Nat} (h : c.1 ≤ base) : shown base c = 0 := by
  rw [shown]
  split
  · rfl
  · obtain rfl : c.1 = base := by omega
    simp

/-- The greatest number with one more number. -/
lemma max?_append_one (parts : List ℚ) {q : ℚ} (h : 0 ≤ q) :
    (parts ++ [q]).max?.getD 0 = max (parts.max?.getD 0) q := by
  cases parts with
  | nil => simpa using h
  | cons p parts =>
    rw [List.cons_append, List.max?_cons', List.max?_cons', List.foldl_append]
    rfl

lemma max?_of_zeros {parts : List ℚ} (h : ∀ q ∈ parts, q = 0) : parts.max?.getD 0 = 0 := by
  cases hmax : parts.max? with
  | none => rfl
  | some q => exact h q (List.max?_mem hmax)

/-- Where no sample shows rows beyond the first processed, the part done is none. -/
lemma partDone_of_le {samples : List (Nat × Nat)}
    (h : ∀ base, baseline? samples = some base → ∀ c ∈ samples, c.1 ≤ base) :
    partDone samples = 0 := by
  rw [partDone]
  cases hbase : baseline? samples with
  | none => rfl
  | some base =>
    refine max?_of_zeros fun q hq => ?_
    obtain ⟨c, hc, rfl⟩ := List.mem_map.1 hq
    exact shown_of_le (h base hbase c (List.mem_filter.1 hc).1)

/-- Up to the first sample with processed rows, with it, nothing is shown done. -/
lemma partDone_of_zeros {samples : List (Nat × Nat)} (h : ∀ c ∈ samples, c.1 = 0)
    (c : Nat × Nat) : partDone samples = 0 ∧ partDone (samples ++ [c]) = 0 := by
  have hnone : baseline? samples = none := by
    refine List.find?_eq_none.2 fun p hp => ?_
    obtain ⟨d, hd, rfl⟩ := List.mem_map.1 hp
    simp [h d hd]
  refine ⟨partDone_of_le fun base hbase => ?_, partDone_of_le fun base hbase d hd => ?_⟩
  · rw [hnone] at hbase
    cases hbase
  · rw [ProgressTracker.baseline?_append_one, hnone, Option.none_or] at hbase
    rcases List.mem_append.1 hd with hd | hd
    · exact (h d hd).trans_le (Nat.zero_le base)
    · obtain rfl := List.mem_singleton.1 hd
      by_cases hpos : 0 < d.1
      · rw [if_pos hpos] at hbase
        exact (Option.some.inj hbase).le
      · rw [if_neg hpos] at hbase
        cases hbase

/-- **The tracker after some samples**: it measures from the first rows processed, and keeps the
part that the samples show done. -/
lemma ProgressTracker.of_samples (samples : List (Nat × Nat)) :
    (start.afterSamples samples).baseline = baseline? samples
      ∧ (start.afterSamples samples).last = partDone samples := by
  induction samples using List.reverseRecOn with
  | nil => exact ⟨rfl, rfl⟩
  | append_singleton samples c ih =>
    obtain ⟨hbaseline, hlast⟩ := ih
    have hstep : start.afterSamples (samples ++ [c])
        = (start.afterSamples samples).update c.1 c.2 := afterSamples_append _ _ _
    rw [hstep, update_eq, hbaseline, ← baseline?_append_one, hlast]
    refine ⟨rfl, ?_⟩
    cases hold : baseline? samples with
    | none =>
      -- The sample is the first with rows, or another one without: it shows nothing done.
      have hzeros := fun d => eq_zero_of_baseline?_eq_none hold (c := d)
      obtain ⟨hbefore, hafter⟩ := partDone_of_zeros hzeros c
      rw [hbefore, hafter, baseline?_append_one, hold, Option.none_or]
      split
      · have hnothing : shown c.1 c = 0 := shown_of_le (le_refl _)
        simp only [Option.elim]
        split
        · rename_i hless
          rw [← shown_eq_ratio hless, hnothing]
          exact max_self 0
        · rfl
      · rfl
    | some base =>
      have hkept : baseline? (samples ++ [c]) = some base := by
        rw [baseline?_append_one, hold, Option.some_or]
      simp only [partDone, hkept, hold, Option.elim_some, List.filter_append, List.map_append]
      by_cases hless : base < c.2
      · have hpart : 0 ≤ shown base c := by
          rw [shown_eq_ratio hless]
          exact le_min zero_le_one (div_nonneg (Nat.cast_nonneg _) (Nat.cast_nonneg _))
        have hcounts : [c].filter (base < ·.2) = [c] := by simp [hless]
        rw [if_pos hless, hcounts, List.map_singleton, max?_append_one _ hpart,
          shown_eq_ratio hless]
        rfl
      · simp [hless]

/-- **All reports of the part done.** Whatever the samples, no step fails, every report is the part
that the samples up to it show done, reports lie between zero and one and never fall, the tracker
keeps the last of them, and none is above zero up to the first sample with processed rows. -/
theorem reports_are_parts_done (samples : List (Nat × Nat)) :
    ∃ reports : List ℚ,
      ProgressTracker.start.reports? samples
          = some (reports, ProgressTracker.start.afterSamples samples)
        ∧ reports = (List.range samples.length).map (fun k => partDone (samples.take (k + 1)))
        ∧ (∀ q ∈ reports, 0 ≤ q ∧ q ≤ 1)
        ∧ reports.Pairwise (· ≤ ·)
        ∧ (ProgressTracker.start.afterSamples samples).last = reports.getLast?.getD 0
        ∧ ∀ k, (∀ c ∈ samples.take k, c.1 = 0) → ∀ q, reports[k]? = some q → q = 0 := by
  have hstart : (ProgressTracker.start : ProgressTracker ℚ).InRange := ⟨le_refl 0, zero_le_one⟩
  have hkept : ∀ before, (ProgressTracker.start.afterSamples before).last = partDone before :=
    fun before => (ProgressTracker.of_samples before).2
  refine ⟨_, ProgressTracker.reports?_eq .start samples, ?_, ?_, ?_, ?_, ?_⟩
  · exact List.map_congr_left fun k _ => hkept _
  · intro q hq
    obtain ⟨k, -, rfl⟩ := List.mem_map.1 hq
    exact (ProgressTracker.last_afterSamples hstart _).1
  · exact List.pairwise_map.2 (List.pairwise_lt_range.imp fun hjk =>
      ProgressTracker.last_take_le hstart samples (Nat.succ_le_succ hjk.le))
  · rcases List.eq_nil_or_concat samples with rfl | ⟨before, c, rfl⟩
    · rfl
    · rw [List.length_concat, List.range_succ, List.map_append, List.map_singleton,
        List.getLast?_concat, Option.getD_some, List.take_of_length_le (by simp)]
  · intro k hzeros q hq
    obtain ⟨hk, rfl⟩ := List.getElem?_eq_some_iff.1 hq
    have hlength : k < samples.length := by simpa using hk
    simp only [List.getElem_map, List.getElem_range, hkept]
    rw [List.take_succ_eq_append_getElem hlength]
    exact (partDone_of_zeros hzeros _).2

/-- Counters that fall, exceed the total and move the total. -/
example : partDone [(0, 10), (4, 10), (2, 10), (7, 10), (5, 3), (7, 16)] = 1 / 2 := by
  decide +kernel

end SilentScan
