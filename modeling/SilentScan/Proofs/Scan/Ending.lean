/-
How a scan tells of its end.

The final pages carry the part one, and a client may take a page with the part one for the end of
the scan. That is right if there is no other such page. There is one as soon as what is left for the
end does not fit on a page, because all the final pages carry the part one; and there is one as soon
as the counters go past the number of rows while the store is still at work and a tick has something
to publish.

* `ScanWork.samples`, `ReachesWhole`: the counters that the ticks find, and that they come to the
  whole;
* `ProgressTracker.last_ofSamples`: when the part reported is the whole;
* `ScanRun.working`, `forall_workingPages_iff`: the pages that come while the store works;
* `end_told_once_iff`: when the end is told once, and by the last page;
* `ScanRun.pagesOf_play_of_refused`: how the end of a scan that is not wanted may be told.
-/
import Mathlib.Data.List.Induction
import SilentScan.Proofs.Scan.Lifetime

namespace SilentScan

/-! ### The part that is reported -/

namespace Double

/-- That a part is the whole or short of it. -/
def IsPart (d : Double) : Prop :=
  d = one ∨ one.le d = false

lemma isPart_ratio (done remaining : Nat) : (Portion.ratio done remaining : Double).IsPart := by
  simp only [Portion.ratio]
  split
  · exact Or.inl rfl
  · rename_i hless
    exact Or.inr (by simpa using hless)

/-- Of two parts the larger is the whole if one of them is. -/
lemma larger_eq_one_iff {a b : Double} (ha : a.IsPart) (hb : b.IsPart) :
    (Portion.larger a b : Double) = one ↔ a = one ∨ b = one := by
  have hself : one.le one = true := by decide
  simp only [Portion.larger, Double.max]
  split
  · rename_i hle
    refine ⟨Or.inl, ?_⟩
    rintro (rfl | rfl)
    · rfl
    · exact ha.resolve_right (by simp [hle])
  · rename_i hlt
    refine ⟨Or.inr, ?_⟩
    rintro (rfl | rfl)
    · refine hb.resolve_right fun hshort => hlt ?_
      simp only [le, decide_eq_true_eq, decide_eq_false_iff_not] at hshort ⊢
      omega
    · rfl

lemma isPart_larger {a b : Double} (ha : a.IsPart) (hb : b.IsPart) :
    (Portion.larger a b : Double).IsPart := by
  simp only [Portion.larger, Double.max]
  split
  · exact ha
  · exact hb

/-- Where nothing has been done, the part is short of the whole. -/
lemma ratio_zero_ne_one (remaining : Nat) : (Portion.ratio 0 remaining : Double) ≠ one := by
  have hzero : (ofNat 0).ratio.1 = 0 := by decide
  have hquotient : ∀ d : Double, (ofNat 0).div d = zero ((ofNat 0).negative != d.negative) := by
    intro d
    simp only [div, hzero, Nat.zero_mul, ofRatio, if_true]
  have hshort : ∀ negative, one.le (zero negative) = false ∧ zero negative ≠ one := by decide
  obtain ⟨hle, hne⟩ := hshort ((ofNat 0).negative != (ofNat remaining).negative)
  simp only [Portion.ratio, hquotient, hle]
  exact hne

end Double

/-- The counters at the ticks that find rows left to look at, where the counters stand as given. -/
def ScanWork.samples : Nat × Nat → List ScanWork → List (Nat × Nat)
  | _, [] => []
  | counters, .found _ :: rest => samples counters rest
  | _, .count processed total :: rest => samples (processed, total) rest
  | counters, .tick :: rest =>
    if counters.1 = counters.2 then samples counters rest else counters :: samples counters rest

/-- The number of rows from which progress is measured: the first that are processed. -/
def baseline? (samples : List (Nat × Nat)) : Option Nat :=
  (samples.map (·.1)).find? (0 < ·)

/-- That the part done comes to the whole with some samples: for one of them, measured from the
first rows processed, the quotient held between zero and one is one. -/
def ReachesWhole (samples : List (Nat × Nat)) : Prop :=
  ∃ base, baseline? samples = some base
    ∧ ∃ c ∈ samples, base < c.2
      ∧ (Portion.ratio (c.1 - base) (c.2 - base) : Double) = .one

namespace ProgressTracker

/-- The tracker after some samples. -/
def ofSamples (samples : List (Nat × Nat)) : ProgressTracker Double :=
  samples.foldl (fun t c => t.update c.1 c.2) .start

lemma ofSamples_append_one (samples : List (Nat × Nat)) (c : Nat × Nat) :
    ofSamples (samples ++ [c]) = (ofSamples samples).update c.1 c.2 :=
  List.foldl_append

lemma baseline?_append_one (samples : List (Nat × Nat)) (c : Nat × Nat) :
    baseline? (samples ++ [c])
      = (baseline? samples).or (if 0 < c.1 then some c.1 else none) := by
  simp only [baseline?, List.map_append, List.find?_append, List.map_cons, List.map_nil,
    List.find?_singleton, decide_eq_true_eq]

/-- Samples without rows processed come before the measuring. -/
lemma eq_zero_of_baseline?_eq_none {samples : List (Nat × Nat)} (h : baseline? samples = none)
    {c : Nat × Nat} (hc : c ∈ samples) : c.1 = 0 := by
  have hnone := List.find?_eq_none.1 h c.1 (List.mem_map_of_mem hc)
  simpa using hnone

/-- What one more sample contributes to reaching the whole. -/
lemma reachesWhole_append_one (samples : List (Nat × Nat)) (c : Nat × Nat) :
    ReachesWhole (samples ++ [c]) ↔ ReachesWhole samples
      ∨ ∃ base, baseline? (samples ++ [c]) = some base ∧ base < c.2
          ∧ (Portion.ratio (c.1 - base) (c.2 - base) : Double) = .one := by
  constructor
  · rintro ⟨base, hbase, d, hd, hless, hwhole⟩
    rcases List.mem_append.1 hd with hd | hd
    · left
      cases hold : baseline? samples with
      | some base' =>
        rw [baseline?_append_one, hold] at hbase
        obtain rfl := Option.some.inj hbase
        exact ⟨base', hold, d, hd, hless, hwhole⟩
      | none =>
        rw [eq_zero_of_baseline?_eq_none hold hd, Nat.zero_sub] at hwhole
        exact absurd hwhole (Double.ratio_zero_ne_one _)
    · obtain rfl := List.mem_singleton.1 hd
      exact Or.inr ⟨base, hbase, hless, hwhole⟩
  · rintro (⟨base, hbase, d, hd, hrest⟩ | ⟨base, hbase, hrest⟩)
    · refine ⟨base, ?_, d, List.mem_append_left _ hd, hrest⟩
      rw [baseline?_append_one, hbase]
      rfl
    · exact ⟨base, hbase, c, List.mem_append_right _ List.mem_cons_self, hrest⟩

/-- A sample fixes from where progress is measured, if that is still open, and then counts if there
are rows beyond. -/
lemma update_eq {Q : Type} [Portion Q] (t : ProgressTracker Q) (processed total : Nat) :
    t.update processed total =
      { baseline := t.baseline.or (if 0 < processed then some processed else none)
        last := (t.baseline.or (if 0 < processed then some processed else none)).elim t.last
          fun base => if base < total then
              Portion.larger t.last (Portion.ratio (processed - base) (total - base))
            else t.last } := by
  rw [update]
  cases t.baseline with
  | some base => by_cases hless : base < total <;> simp [hless]
  | none =>
    by_cases hpos : 0 < processed <;> by_cases hless : processed < total <;> simp [hpos, hless]

/-- **When the part reported is the whole.** -/
lemma last_ofSamples (samples : List (Nat × Nat)) :
    (ofSamples samples).baseline = baseline? samples ∧ (ofSamples samples).last.IsPart
      ∧ ((ofSamples samples).last = .one ↔ ReachesWhole samples) := by
  induction samples using List.reverseRecOn with
  | nil =>
    refine ⟨rfl, Or.inr (by decide), ?_⟩
    simp only [ReachesWhole, List.not_mem_nil, false_and, exists_false, and_false, iff_false]
    decide
  | append_singleton samples c ih =>
    obtain ⟨hbaseline, hpart, hwhole⟩ := ih
    rw [ofSamples_append_one, update_eq, hbaseline, ← baseline?_append_one,
      reachesWhole_append_one, ← hwhole]
    cases hbase : baseline? (samples ++ [c]) with
    | none => exact ⟨rfl, hpart, by simp⟩
    | some base =>
      have hratio := Double.isPart_ratio (c.1 - base) (c.2 - base)
      by_cases hless : base < c.2
      · simp only [Option.elim, hless, if_true]
        refine ⟨trivial, Double.isPart_larger hpart hratio, ?_⟩
        simp [Double.larger_eq_one_iff hpart hratio, hless]
      · simp only [Option.elim, hless, if_false]
        exact ⟨trivial, hpart, by simp [hless]⟩

end ProgressTracker

/-! ### Pages that come while the store works -/

lemma chunks_eq_nil_iff {α : Type} {size fuel : Nat} {l : List α} :
    chunks size (fuel + 1) l = [] ↔ l = [] := by
  rw [chunks]
  split
  · rename_i hempty
    simpa using hempty
  · rename_i hmore
    simpa using hmore

/-- Forced pages are one page as long as the entries fit on it. -/
lemma length_histories_eq_one_iff (pageSize : Nat) (entries : List TxEntry) :
    (histories pageSize entries true).length = 1 ↔ entries.length ≤ max pageSize 1 := by
  cases entries with
  | nil => simp [histories]
  | cons e entries =>
    have hpos : 0 < max pageSize 1 := by omega
    have hrest : chunks (max pageSize 1) entries.length
        ((e :: entries).drop (max pageSize 1)) = []
          ↔ (e :: entries).length ≤ max pageSize 1 := by
      cases entries with
      | nil => simp [chunks]
      | cons e' entries => rw [List.length_cons, chunks_eq_nil_iff, List.drop_eq_nil_iff]
    rw [← hrest, histories, List.length_cons, chunks]
    simp

/-- Without force there are no pages just if there are no entries. -/
lemma histories_eq_nil_iff (pageSize : Nat) (entries : List TxEntry) (force : Bool) :
    histories pageSize entries force = [] ↔ entries = [] ∧ force = false := by
  cases entries with
  | nil => cases force <;> simp [histories]
  | cons e entries => simp [histories, chunks_eq_nil_iff]

namespace ScanRun

variable (s : Scheme) (batchSize : Option Nat)

section Play

variable {Q : Type} [Portion Q]

/-- A page of a run comes with one of the things that happen. -/
lemma mem_pagesOf_play_iff {run : ScanRun Q} {inputs : List ScanInput} {p : ScanPage Q} :
    p ∈ pagesOf (run.play s batchSize inputs).2 ↔
      ∃ before input after, inputs = before ++ input :: after
        ∧ p ∈ pagesOf ((run.play s batchSize before).1.step s batchSize input).2 := by
  induction inputs generalizing run with
  | nil => simp [play]
  | cons i rest ih =>
    rw [play_cons, pagesOf_append, List.mem_append, ih]
    constructor
    · rintro (hp | ⟨before, input, after, rfl, hp⟩)
      · exact ⟨[], i, rest, rfl, hp⟩
      · exact ⟨i :: before, input, after, rfl, hp⟩
    · rintro ⟨before, input, after, hsplit, hp⟩
      cases before with
      | nil =>
        obtain ⟨rfl, rfl⟩ := List.cons.inj hsplit
        exact Or.inl hp
      | cons j before =>
        obtain ⟨rfl, rfl⟩ := List.cons.inj hsplit
        exact Or.inr ⟨before, input, after, rfl, hp⟩

/-- The samples of the ticks go to the tracker, one after another. -/
lemma tracker_play {run : ScanRun Q} (h : run.phase = .running) (works : List ScanWork) :
    (run.play s batchSize (works.map (·.input))).1.tracker
      = (ScanWork.samples (run.processed, run.total) works).foldl (fun t c => t.update c.1 c.2)
          run.tracker := by
  induction works generalizing run with
  | nil => rfl
  | cons work works ih =>
    rw [List.map_cons, play_cons, ih (phase_work s batchSize h work)]
    cases work with
    | found m => simp [ScanWork.input, ScanWork.samples, step, h, push]
    | count processed total => simp [ScanWork.input, ScanWork.samples, step, h, count]
    | tick =>
      simp only [ScanWork.input, ScanWork.samples, step, h, tick, Bool.not_true,
        Bool.false_eq_true, if_false]
      split <;> rfl

end Play

/-- A scan of which the store has begun to look for the rows, after some works. -/
def working (settings : ScanSettings) (request : ScanRequest) (works : List ScanWork) :
    ScanRun Double :=
  (({ ScanRun.new settings request with phase := .running } : ScanRun Double).play s
    settings.batchSize (works.map (·.input))).1

section Working

variable (settings : ScanSettings) (request : ScanRequest) (works : List ScanWork)

lemma phase_working : (working s settings request works).phase = .running :=
  phase_play_work s settings.batchSize rfl works

lemma pageSize_play {Q : Type} [Portion Q] (run : ScanRun Q) (inputs : List ScanInput) :
    (run.play s batchSize inputs).1.pageSize = run.pageSize := by
  induction inputs generalizing run with
  | nil => rfl
  | cons input rest ih => exact (ih _).trans (request_step s batchSize run input).2

lemma pageSize_working : (working s settings request works).pageSize = settings.pageSize :=
  pageSize_play s settings.batchSize _ _

/-- What the tracker would report at a tick that finds rows left to look at. -/
lemma last_update_working
    (hleft : (working s settings request works).processed
      ≠ (working s settings request works).total) :
    ((working s settings request works).tracker.update
        (working s settings request works).processed
        (working s settings request works).total).last = .one
      ↔ ReachesWhole (ScanWork.samples (0, 0) (works ++ [.tick])) := by
  have htracker (more : List ScanWork) : (working s settings request more).tracker
      = .ofSamples (ScanWork.samples (0, 0) more) :=
    tracker_play s settings.batchSize rfl more
  have hafter : (working s settings request (works ++ [.tick])).tracker
      = (working s settings request works).tracker.update
          (working s settings request works).processed
          (working s settings request works).total := by
    have hphase := phase_working s settings request works
    rw [working, List.map_append, play_append]
    change ((working s settings request works).step s settings.batchSize (.tick true)).1.tracker = _
    simp [step, hphase, tick, hleft]
  rw [← hafter, htracker, (ProgressTracker.last_ofSamples _).2.2]

/-- The pages of a tick are there if rows are left to look at; they carry the part that the tracker
reports then. -/
lemma pagesOf_step_tick {run : ScanRun Double} (h : run.phase = .running) :
    pagesOf (run.step s batchSize (.tick true)).2 =
      if run.processed = run.total then []
      else (histories run.pageSize (run.drained s.curve)
          (decide ((run.ticks + 1) % heartbeatTicks = 0))).map fun history =>
        { owner := run.request.owner, subscription := run.request.key
          progress := (run.tracker.update run.processed run.total).last, history } := by
  simp only [step, h, tick, Bool.not_true, Bool.false_eq_true, if_false]
  split
  · rfl
  · exact pagesOf_pages _ _ _ _

/-- A page that comes while the store works comes with a tick. -/
lemma mem_workingPages_iff {p : ScanPage Double} :
    p ∈ pagesOf (({ ScanRun.new settings request with phase := .running } :
        ScanRun Double).play s settings.batchSize (works.map (·.input))).2 ↔
      ∃ before after, works = before ++ .tick :: after
        ∧ p ∈ pagesOf ((working s settings request before).step s settings.batchSize
            (.tick true)).2 := by
  rw [mem_pagesOf_play_iff]
  constructor
  · rintro ⟨before', input, after', hsplit, hp⟩
    obtain ⟨before, rest, hworks, rfl, hrest⟩ := List.map_eq_append_iff.1 hsplit
    obtain ⟨work, after, rfl, rfl, rfl⟩ := List.map_eq_cons_iff.1 hrest
    have hphase := phase_working s settings request before
    change p ∈ pagesOf ((working s settings request before).step s settings.batchSize
      work.input).2 at hp
    cases work with
    | found m => simp [ScanWork.input, step, hphase] at hp
    | count processed total => simp [ScanWork.input, step, hphase] at hp
    | tick => exact ⟨before, after, hworks, hp⟩
  · rintro ⟨before, after, rfl, hp⟩
    refine ⟨before.map fun work : ScanWork => work.input, .tick true,
      after.map fun work : ScanWork => work.input, ?_, hp⟩
    rw [List.map_append, List.map_cons]
    rfl

/-- **Pages that come while the store works** do not tell of the end if, once the part done has come
to the whole, every tick that finds rows left to look at has nothing to publish: no entry is
waiting, and no page is forced. -/
lemma forall_workingPages_iff :
    (∀ p ∈ pagesOf (({ ScanRun.new settings request with phase := .running } :
        ScanRun Double).play s settings.batchSize (works.map (·.input))).2, p.progress ≠ .one) ↔
      ∀ before after, works = before ++ .tick :: after →
        (working s settings request before).processed
          ≠ (working s settings request before).total →
        ReachesWhole (ScanWork.samples (0, 0) (before ++ [.tick])) →
        (working s settings request before).drained s.curve = []
          ∧ ((working s settings request before).ticks + 1) % heartbeatTicks ≠ 0 := by
  constructor
  · intro hpages before after hworks hleft hreaches
    by_contra hnot
    -- A tick that has something to publish publishes a page with the part one.
    obtain ⟨history, hhistory⟩ := List.exists_mem_of_ne_nil _
      (mt (histories_eq_nil_iff (working s settings request before).pageSize
        ((working s settings request before).drained s.curve)
        (decide (((working s settings request before).ticks + 1) % heartbeatTicks = 0))).1
        (by simpa using hnot))
    have htick := pagesOf_step_tick s settings.batchSize (phase_working s settings request before)
    rw [if_neg hleft] at htick
    have hwhole := (last_update_working s settings request before hleft).2 hreaches
    have hmem := List.mem_map_of_mem (f := fun history => ({
      owner := (working s settings request before).request.owner
      subscription := (working s settings request before).request.key
      progress := ((working s settings request before).tracker.update
        (working s settings request before).processed
        (working s settings request before).total).last
      history } : ScanPage Double)) hhistory
    rw [← htick] at hmem
    exact hpages _ ((mem_workingPages_iff s settings request works).2
      ⟨before, after, hworks, hmem⟩) hwhole
  · intro hquiet p hp hwhole
    obtain ⟨before, after, hworks, hp⟩ := (mem_workingPages_iff s settings request works).1 hp
    rw [pagesOf_step_tick s settings.batchSize (phase_working s settings request before)] at hp
    split at hp
    · simp at hp
    · rename_i hleft
      obtain ⟨history, hhistory, rfl⟩ := List.mem_map.1 hp
      obtain ⟨hnone, hforced⟩ := hquiet before after hworks hleft
        ((last_update_working s settings request before hleft).1 hwhole)
      rw [(histories_eq_nil_iff _ _ _).2 ⟨hnone, by simpa using hforced⟩] at hhistory
      cases hhistory

/-- What happens up to the end of the store to a scan whose query is refused. -/
lemma play_upToEnd_of_error (outcome : ScanOutcome) (elapsed : Nat) {e : KeyError}
    (hquery : request.buildQuery s settings.batchSize = .error e) :
    (ScanRun.new settings request : ScanRun Double).play s settings.batchSize
        (upToEnd works outcome elapsed)
      = ({ ScanRun.new settings request with phase := .closing [] },
          [(ScanRun.new settings request : ScanRun Double).ended 0 0 (some e.message)]) := by
  have hbegin : (ScanRun.new settings request : ScanRun Double).step s settings.batchSize
      (.begin true) = ({ ScanRun.new settings request with phase := .closing [] },
        [(ScanRun.new settings request : ScanRun Double).ended 0 0 (some e.message)]) := by
    simp [step, ScanRun.new, begin, hquery]
  rw [upToEnd, play_cons, hbegin, play_append, play_work_of_closing s settings.batchSize rfl]
  rfl

/-- What happens up to the end of the store to a scan whose query can be made. -/
lemma play_upToEnd_of_ok (outcome : ScanOutcome) (elapsed : Nat) {q : ScanQuery}
    (hquery : request.buildQuery s settings.batchSize = .ok q) :
    (ScanRun.new settings request : ScanRun Double).play s settings.batchSize
        (upToEnd works outcome elapsed)
      = (((working s settings request works).step s settings.batchSize
            (.finish outcome elapsed)).1,
          .query q :: ((({ ScanRun.new settings request with phase := .running } :
              ScanRun Double).play s settings.batchSize (works.map (·.input))).2
            ++ ((working s settings request works).step s settings.batchSize
              (.finish outcome elapsed)).2)) := by
  have hbegin : (ScanRun.new settings request : ScanRun Double).step s settings.batchSize
      (.begin true) = ({ ScanRun.new settings request with phase := .running }, [.query q]) := by
    simp [step, ScanRun.new, begin, hquery]
  rw [upToEnd, play_cons, hbegin, play_append]
  simp [play, working]

end Working

/-- Final pages are there, and they are one page as long as the entries fit on it. -/
lemma pagesOf_whole_ne_nil (run : ScanRun Double) (kept : List TxEntry) :
    pagesOf (run.pages Portion.whole kept true) ≠ [] := by
  rw [pagesOf_pages, ne_eq, List.map_eq_nil_iff]
  exact histories_ne_nil _ _

lemma length_pagesOf_whole_eq_one_iff (run : ScanRun Double) (kept : List TxEntry) :
    (pagesOf (run.pages Portion.whole kept true)).length = 1
      ↔ kept.length ≤ max run.pageSize 1 := by
  rw [pagesOf_pages, List.length_map, length_histories_eq_one_iff]

end ScanRun

/-! ### The end is told -/

/-- The pages that clients see of a scan that is wanted throughout. -/
def shownPages (s : Scheme) (settings : ScanSettings) (request : ScanRequest)
    (works : List ScanWork) (outcome : ScanOutcome) (elapsed : Nat) : List (ScanPage Double) :=
  pagesOf ((ScanRun.new settings request).play s settings.batchSize
    (ScanRun.lifetime works outcome elapsed)).2

/-- That pages tell of their end once: exactly one of them carries the part one, and it is the
last. -/
def TellsEndOnce (pages : List (ScanPage Double)) : Prop :=
  pages.getLast?.map (·.progress) = some .one ∧ ∀ p ∈ pages.dropLast, p.progress ≠ .one

instance (pages : List (ScanPage Double)) : Decidable (TellsEndOnce pages) :=
  inferInstanceAs (Decidable (_ ∧ _))

/-- Where all pages of the end carry the part one, there is to be one of them, and no other page
with the part one before it. -/
lemma tellsEndOnce_append_iff {pages final : List (ScanPage Double)} (hfinal : final ≠ [])
    (hwhole : ∀ p ∈ final, p.progress = .one) :
    TellsEndOnce (pages ++ final) ↔ (∀ p ∈ pages, p.progress ≠ .one) ∧ final.length = 1 := by
  obtain ⟨front, last, rfl⟩ := List.eq_nil_or_concat final |>.resolve_left hfinal
  rw [List.concat_eq_append] at hwhole ⊢
  have hlast : last.progress = .one := hwhole last (by simp)
  have hfront : (∀ p ∈ front, p.progress ≠ .one) ↔ front = [] := by
    rw [List.eq_nil_iff_forall_not_mem]
    refine forall_congr' fun p => ⟨fun hne hp => hne hp ?_, fun hnot hp => absurd hp hnot⟩
    exact hwhole p (List.mem_append_left _ hp)
  rw [TellsEndOnce, ← List.append_assoc, List.dropLast_concat, List.forall_mem_append, hfront]
  simp [hlast]

/-- **When the end of a scan is told once**, and by the last page: the query is refused, so that
the final page is the only one; or once the part done has come to the whole no tick with rows left
to look at has anything to publish, and what is left for the end fits on a page. -/
theorem end_told_once_iff (s : Scheme) (settings : ScanSettings) (request : ScanRequest)
    (works : List ScanWork) (outcome : ScanOutcome) (elapsed : Nat) :
    TellsEndOnce (shownPages s settings request works outcome elapsed) ↔
      ((request.buildQuery s settings.batchSize).isOk →
        (∀ before after, works = before ++ .tick :: after →
          (ScanRun.working s settings request before).processed
            ≠ (ScanRun.working s settings request before).total →
          ReachesWhole (ScanWork.samples (0, 0) (before ++ [.tick])) →
          (ScanRun.working s settings request before).drained s.curve = []
            ∧ ((ScanRun.working s settings request before).ticks + 1) % heartbeatTicks ≠ 0)
        ∧ (outcome = .finished →
          ((ScanRun.working s settings request works).drained s.curve).length
            ≤ max settings.pageSize 1)) := by
  cases hquery : request.buildQuery s settings.batchSize with
  | error e =>
    -- A refused query leaves nothing to publish but the final page, which is empty.
    have hpages : shownPages s settings request works outcome elapsed
        = [] ++ pagesOf ((ScanRun.new settings request).pages Portion.whole [] true) := by
      have hplay := ScanRun.play_upToEnd_of_error s settings request works outcome elapsed hquery
      rw [shownPages, ScanRun.pagesOf_lifetime s settings.batchSize
        (congrArg (·.1.phase) hplay), hplay]
      rfl
    rw [hpages, tellsEndOnce_append_iff (ScanRun.pagesOf_whole_ne_nil _ _)
      (fun p hp => (ScanRun.of_mem_pages hp).2.2.2), ScanRun.length_pagesOf_whole_eq_one_iff]
    simp [Except.isOk, Except.toBool]
  | ok q =>
    obtain ⟨hnopage, kept, hphase, hall, hnothing⟩ := ScanRun.step_finish s settings.batchSize
      (ScanRun.phase_working s settings request works) outcome elapsed
    rw [ScanRun.held_eq_drained _ (by simp [ScanRun.phase_working])] at hall
    have hpages : shownPages s settings request works outcome elapsed
        = pagesOf (({ ScanRun.new settings request with phase := .running } :
            ScanRun Double).play s settings.batchSize (works.map (·.input))).2
          ++ pagesOf (((ScanRun.working s settings request works).step s settings.batchSize
              (.finish outcome elapsed)).1.pages Portion.whole kept true) := by
      have hplay := ScanRun.play_upToEnd_of_ok s settings request works outcome elapsed hquery
      rw [shownPages, ScanRun.pagesOf_lifetime s settings.batchSize
        ((congrArg (·.1.phase) hplay).trans hphase), hplay]
      change pagesOf (_ ++ _) ++ _ = _
      rw [pagesOf_append, hnopage, List.append_nil]
    have hkept : kept.length ≤ max settings.pageSize 1 ↔ (outcome = .finished →
        ((ScanRun.working s settings request works).drained s.curve).length
          ≤ max settings.pageSize 1) := by
      by_cases hdone : outcome = .finished
      · simp [hdone, hall hdone]
      · simp [hdone, hnothing hdone]
    have hsize : ((ScanRun.working s settings request works).step s settings.batchSize
        (.finish outcome elapsed)).1.pageSize = settings.pageSize := by
      rw [(ScanRun.request_step s settings.batchSize _ _).2, ScanRun.pageSize_working]
    rw [hpages, tellsEndOnce_append_iff (ScanRun.pagesOf_whole_ne_nil _ _)
      (fun p hp => (ScanRun.of_mem_pages hp).2.2.2), ScanRun.length_pagesOf_whole_eq_one_iff,
      hsize, hkept, ScanRun.forall_workingPages_iff]
    simp [Except.isOk, Except.toBool]

/-- Two rows for the end with single entries on a page, and a row that the store comes upon after
it has counted the rows: either way two pages carry the part one. -/
theorem end_told_twice :
    ¬ TellsEndOnce (shownPages plainScheme { pageSize := 1 } sampleRequest
        [.found (sampleRow 5), .found (sampleRow 6)] .finished 0)
      ∧ ¬ TellsEndOnce (shownPages plainScheme {} sampleRequest
        [.count 1 3, .tick, .found (sampleRow 5), .count 4 3, .tick] .finished 0) := by
  decide +kernel

/-! ### A scan that has been refused -/

/-- The answer whether a scan is wanted, where the phase lets it be asked. -/
def ScanPhase.answer? : ScanPhase → ScanInput → Option Bool
  | .starting, .begin alive => some alive
  | .running, .tick alive => some alive
  | .closing _, .conclude alive => some alive
  | _, _ => none

/-- The first answer before the final pages. -/
def finalAnswer? (inputs : List ScanInput) : Option Bool :=
  inputs.findSome? fun
    | .conclude alive => some alive
    | _ => none

namespace ScanRun

variable {Q : Type} [Portion Q] (s : Scheme) (batchSize : Option Nat)

/-- The page that tells of the end and of nothing else. -/
def emptyPage (run : ScanRun Q) : ScanPage Q where
  owner := run.request.owner
  subscription := run.request.key
  progress := Portion.whole
  history := []

/-- After the final pages nothing is published. -/
lemma pagesOf_play_of_done {run : ScanRun Q} (h : run.phase = .done) (inputs : List ScanInput) :
    pagesOf (run.play s batchSize inputs).2 = [] := by
  induction inputs with
  | nil => rfl
  | cons input rest ih =>
    have hstep : run.step s batchSize input = (run, []) := by simp [step, h]
    rw [play_cons, hstep]
    exact ih

/-- A scan that keeps nothing for the final pages publishes an empty one, if it is wanted then. -/
lemma pagesOf_play_of_nothing_kept {run : ScanRun Q} (h : run.phase = .closing [])
    (inputs : List ScanInput) :
    pagesOf (run.play s batchSize inputs).2
      = if finalAnswer? inputs = some true then [run.emptyPage] else [] := by
  induction inputs with
  | nil => rfl
  | cons input rest ih =>
    rw [play_cons, pagesOf_append]
    cases input with
    | conclude alive =>
      have hdone : (run.step s batchSize (.conclude alive)).1.phase = .done := by
        simp [step, conclude, h]
      rw [pagesOf_play_of_done s batchSize hdone, List.append_nil]
      cases alive with
      | false => simp [step, conclude, h, finalAnswer?]
      | true => simp [step, conclude, h, finalAnswer?, pagesOf_pages, histories, emptyPage]
    | begin _ | push _ | count _ _ | tick _ | finish _ _ =>
      have hstep : ∀ i, (∀ alive, i ≠ .conclude alive) → run.step s batchSize i = (run, []) := by
        intro i hi
        cases i <;> simp_all [step]
      rw [hstep _ (by simp), pagesOf_nil, List.nil_append, ih]
      rfl

/-- **What comes after a refusal**: once a scan has been told that it is not wanted, no entry is
published, whatever the later answers are. Only the end may still be told, by an empty page, if the
question before the final pages finds the scan wanted again. -/
theorem pagesOf_play_of_refused {run : ScanRun Q} {input : ScanInput}
    (h : run.phase.answer? input = some false) (inputs : List ScanInput) :
    pagesOf (run.play s batchSize (input :: inputs)).2
      = if finalAnswer? (input :: inputs) = some true then [run.emptyPage] else [] := by
  obtain ⟨hphase, rfl⟩ | ⟨hphase, rfl⟩ | ⟨⟨rest, hphase⟩, rfl⟩ :
      (run.phase = .starting ∧ input = .begin false)
        ∨ (run.phase = .running ∧ input = .tick false)
        ∨ (∃ rest, run.phase = .closing rest) ∧ input = .conclude false := by
    unfold ScanPhase.answer? at h
    split at h <;> simp_all
  · have hstep : run.step s batchSize (.begin false) = ({ run with phase := .closing [] }, []) := by
      simp [step, hphase, begin]
    rw [play_cons, hstep]
    exact pagesOf_play_of_nothing_kept s batchSize rfl inputs
  · have hstep : run.step s batchSize (.tick false)
        = ({ run with ticks := run.ticks + 1, phase := .closing [] }, [.cancelStore]) := by
      simp [step, hphase, tick]
    rw [play_cons, hstep]
    exact pagesOf_play_of_nothing_kept s batchSize rfl inputs
  · have hstep : run.step s batchSize (.conclude false) = ({ run with phase := .done }, []) := by
      simp [step, hphase, conclude]
    rw [play_cons, hstep]
    exact pagesOf_play_of_done s batchSize rfl inputs

end ScanRun

end SilentScan
