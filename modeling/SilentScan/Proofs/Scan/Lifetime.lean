/-
What a scan publishes from its start to its end.

While a scan is wanted, its pages deliver what the store finds: first entries first, none twice and
none left out, and the part done that every page carries climbs to one.

* `of_mem_step`, `of_mem_play`: whose the pages are, how long they are, and the part they carry;
* `ProgressTracker.last_update`, `level_step`, `levels_play`: the part done climbs;
* `published_upToEnd`, `pagesOfScan_delivers`: all pages of a scan.
-/
import Mathlib.Algebra.Order.Field.Rat
import SilentScan.Proofs.Scan.Delivery

namespace SilentScan

/-- Parts measured exactly. -/
instance : Portion ℚ where
  zero := 0
  whole := 1
  ratio done remaining := min 1 ((done : ℚ) / remaining)
  larger := max

namespace ScanRun

variable {Q : Type} [Portion Q] (s : Scheme) (batchSize : Option Nat) {run : ScanRun Q}

/-! ### Whose the pages are, and how long -/

/-- A step leaves the request and the length of pages. -/
lemma request_step (run : ScanRun Q) (input : ScanInput) :
    (run.step s batchSize input).1.request = run.request
      ∧ (run.step s batchSize input).1.pageSize = run.pageSize := by
  unfold step
  split
  · rw [begin]
    split
    · exact ⟨rfl, rfl⟩
    · split <;> exact ⟨rfl, rfl⟩
  · exact ⟨rfl, rfl⟩
  · exact ⟨rfl, rfl⟩
  · rw [tick]
    split
    · exact ⟨rfl, rfl⟩
    · split <;> exact ⟨rfl, rfl⟩
  · unfold finish
    split <;> exact ⟨rfl, rfl⟩
  · unfold conclude
    split <;> exact ⟨rfl, rfl⟩
  · exact ⟨rfl, rfl⟩

omit [Portion Q] in
/-- The pages of some entries are as long as asked for, belong to the request, and carry the part
done that is given. -/
lemma of_mem_pages {run : ScanRun Q} {progress : Q} {entries : List TxEntry} {force : Bool}
    {p : ScanPage Q} (h : p ∈ pagesOf (run.pages progress entries force)) :
    p.history.length ≤ max run.pageSize 1 ∧ p.owner = run.request.owner
      ∧ p.subscription = run.request.key ∧ p.progress = progress := by
  rw [pagesOf_pages] at h
  obtain ⟨history, hmem, rfl⟩ := List.mem_map.1 h
  exact ⟨length_le_of_mem_histories hmem, rfl, rfl, rfl⟩

/-- The part done as it stands: what the tracker has last reported, or the whole once the final
pages are out. -/
def level (run : ScanRun Q) : Q :=
  match run.phase with
  | .done => Portion.whole
  | _ => run.tracker.last

variable {s batchSize} in
/-- The pages of a step are as long as asked for, belong to the request, and carry the part done
as it stands after the step. -/
lemma of_mem_step {run : ScanRun Q} {input : ScanInput} {p : ScanPage Q}
    (h : p ∈ pagesOf (run.step s batchSize input).2) :
    p.history.length ≤ max run.pageSize 1 ∧ p.owner = run.request.owner
      ∧ p.subscription = run.request.key
      ∧ p.progress = (run.step s batchSize input).1.level := by
  unfold step at h ⊢
  split at h
  · rw [begin] at h
    split at h
    · simp at h
    · split at h <;> simp [pagesOf, ended] at h
  · simp at h
  · simp at h
  · rename_i alive hphase
    rw [tick] at h ⊢
    split at h
    · simp [pagesOf] at h
    · split at h
      · simp at h
      · obtain ⟨hlength, howner, hkey, hprogress⟩ := of_mem_pages h
        refine ⟨hlength, howner, hkey, ?_⟩
        rw [if_neg ‹_›, if_neg ‹_›, hprogress, level]
        simp [hphase]
  · unfold finish at h
    split at h
    · simp [pagesOf, ended] at h
    · split at h <;> simp [pagesOf, ended] at h
  · rename_i rest' alive hphase
    simp only [conclude, hphase] at h ⊢
    split at h
    · obtain ⟨hlength, howner, hkey, hprogress⟩ := of_mem_pages h
      exact ⟨hlength, howner, hkey, hprogress⟩
    · simp at h
  · simp at h

variable {s batchSize} in
/-- The pages of a run are as long as asked for and belong to the request. -/
lemma of_mem_play {run : ScanRun Q} {inputs : List ScanInput} {p : ScanPage Q}
    (h : p ∈ pagesOf (run.play s batchSize inputs).2) :
    p.history.length ≤ max run.pageSize 1 ∧ p.owner = run.request.owner
      ∧ p.subscription = run.request.key := by
  induction inputs generalizing run with
  | nil => simp [play] at h
  | cons input rest ih =>
    rw [play_cons, pagesOf_append, List.mem_append] at h
    rcases h with h | h
    · obtain ⟨hlength, howner, hkey, _⟩ := of_mem_step h
      exact ⟨hlength, howner, hkey⟩
    · obtain ⟨hrequest, hsize⟩ := request_step s batchSize run input
      rw [← hrequest, ← hsize]
      exact ih h

end ScanRun

/-! ### The part done -/

namespace ProgressTracker

/-- What the tracker has reported lies between zero and one. -/
def InRange (t : ProgressTracker ℚ) : Prop :=
  0 ≤ t.last ∧ t.last ≤ 1

/-- A sample does not lower the part reported, nor raise it above one. -/
lemma last_update {t : ProgressTracker ℚ} (h : t.last ≤ 1) (processed total : Nat) :
    t.last ≤ (t.update processed total).last ∧ (t.update processed total).last ≤ 1 := by
  unfold update
  dsimp only
  split
  · exact ⟨le_refl _, h⟩
  · split
    · exact ⟨le_max_left _ _, max_le h (min_le_left _ _)⟩
    · exact ⟨le_refl _, h⟩

lemma inRange_update {t : ProgressTracker ℚ} (h : t.InRange) (processed total : Nat) :
    (t.update processed total).InRange := by
  obtain ⟨hle, hone⟩ := last_update h.2 processed total
  exact ⟨le_trans h.1 hle, hone⟩

end ProgressTracker

namespace ScanRun

variable (s : Scheme) (batchSize : Option Nat) {run : ScanRun ℚ}

/-- The part done as it stands lies between zero and one. -/
lemma level_mem (h : run.tracker.InRange) : 0 ≤ run.level ∧ run.level ≤ 1 := by
  rw [level]
  split
  · exact ⟨zero_le_one, le_refl 1⟩
  · exact h

/-- **The part done climbs**: no step lowers it. -/
lemma level_step (h : run.tracker.InRange) (input : ScanInput) :
    (run.step s batchSize input).1.tracker.InRange
      ∧ run.level ≤ (run.step s batchSize input).1.level := by
  unfold step
  split
  · rename_i hphase
    unfold begin
    split
    · exact ⟨h, by simp [level, hphase]⟩
    · split <;> exact ⟨h, by simp [level, hphase]⟩
  · rename_i hphase
    exact ⟨h, by simp [level, push, hphase]⟩
  · rename_i hphase
    exact ⟨h, by simp [level, count, hphase]⟩
  · rename_i alive hphase
    unfold tick
    dsimp only
    split
    · exact ⟨h, by simp [level, hphase]⟩
    · split
      · exact ⟨h, by simp [level, hphase]⟩
      · refine ⟨ProgressTracker.inRange_update h _ _, ?_⟩
        have := (ProgressTracker.last_update h.2 run.processed run.total).1
        simpa [level, hphase] using this
  · rename_i outcome elapsed hphase
    unfold finish
    split <;> exact ⟨h, by simp [level, hphase]⟩
  · rename_i alive hphase
    simp only [conclude, hphase]
    exact ⟨h, (level_mem h).2⟩
  · exact ⟨h, le_refl _⟩

/-- **The part done over a run**: the pages carry it without a fall, within the levels at the
start and at the end of the run. -/
lemma levels_play (h : run.tracker.InRange) (inputs : List ScanInput) :
    (run.play s batchSize inputs).1.tracker.InRange
      ∧ run.level ≤ (run.play s batchSize inputs).1.level
      ∧ (∀ p ∈ pagesOf (run.play s batchSize inputs).2,
          run.level ≤ p.progress ∧ p.progress ≤ (run.play s batchSize inputs).1.level)
      ∧ (pagesOf (run.play s batchSize inputs).2).Pairwise (·.progress ≤ ·.progress) := by
  induction inputs generalizing run with
  | nil => exact ⟨h, le_refl _, by simp [play], by simp [play]⟩
  | cons input rest ih =>
    obtain ⟨hin, hle⟩ := level_step s batchSize h input
    obtain ⟨hend, hup, hwithin, hsorted⟩ := ih hin
    have hfirst : ∀ p ∈ pagesOf (run.step s batchSize input).2,
        p.progress = (run.step s batchSize input).1.level := fun p hp => (of_mem_step hp).2.2.2
    rw [play_cons, pagesOf_append]
    refine ⟨hend, le_trans hle hup, fun p hp => ?_, List.pairwise_append.2 ⟨?_, hsorted, ?_⟩⟩
    · rcases List.mem_append.1 hp with hp | hp
      · rw [hfirst p hp]
        exact ⟨hle, hup⟩
      · obtain ⟨hlow, hhigh⟩ := hwithin p hp
        exact ⟨le_trans hle hlow, hhigh⟩
    · refine List.pairwise_of_forall_mem_list fun p hp q hq => ?_
      rw [hfirst p hp, hfirst q hq]
    · intro p hp q hq
      rw [hfirst p hp]
      exact (hwithin q hq).1

end ScanRun

/-! ### From the start to the end -/

namespace ScanRun

variable {Q : Type} [Portion Q] (s : Scheme) (batchSize : Option Nat) {run : ScanRun Q}

/-- All that happens to a scan that is wanted throughout, up to the end of the store. -/
def upToEnd (works : List ScanWork) (outcome : ScanOutcome) (elapsed : Nat) : List ScanInput :=
  .begin true :: (works.map (·.input) ++ [.finish outcome elapsed])

/-- All that happens to a scan that is wanted throughout. -/
def lifetime (works : List ScanWork) (outcome : ScanOutcome) (elapsed : Nat) : List ScanInput :=
  upToEnd works outcome elapsed ++ [.conclude true]

/-- The end of the store publishes nothing. It keeps what waits for the final pages if it ended
well, and nothing otherwise. -/
lemma step_finish (h : run.phase = .running) (outcome : ScanOutcome) (elapsed : Nat) :
    pagesOf (run.step s batchSize (.finish outcome elapsed)).2 = []
      ∧ ∃ kept, (run.step s batchSize (.finish outcome elapsed)).1.phase = .closing kept
        ∧ (outcome = .finished → kept = run.held s.curve) ∧ (outcome ≠ .finished → kept = []) := by
  rw [held_eq_drained _ (by simp [h])]
  simp only [step, h]
  cases outcome with
  | finished => exact ⟨rfl, _, rfl, fun _ => rfl, fun hne => absurd rfl hne⟩
  | failed e => cases e <;> exact ⟨rfl, [], rfl, fun h => by simp at h, fun _ => rfl⟩
  | crashed message => exact ⟨rfl, [], rfl, fun h => by simp at h, fun _ => rfl⟩

/-- Up to the end of the store, what is published, followed by what is kept for the final pages,
is a first part of what the store has sent, and all of it if the store ended well. -/
lemma published_upToEnd (hstart : run.phase = .starting) (hwaiting : run.waiting = [])
    (works : List ScanWork) (outcome : ScanOutcome) (elapsed : Nat) :
    ∃ kept, (run.play s batchSize (upToEnd works outcome elapsed)).1.phase = .closing kept
      ∧ published (run.play s batchSize (upToEnd works outcome elapsed)).2 ++ kept
          <+: (ScanWork.sent works).filterMap (toEntry s.curve)
      ∧ (outcome = .finished → (run.request.buildQuery s batchSize).isOk →
          published (run.play s batchSize (upToEnd works outcome elapsed)).2 ++ kept
            = (ScanWork.sent works).filterMap (toEntry s.curve)) := by
  rw [upToEnd, play_cons, play_append]
  cases hquery : run.request.buildQuery s batchSize with
  | error e =>
    have hbegin : run.step s batchSize (.begin true)
        = ({ run with phase := .closing [] }, [run.ended 0 0 (some e.message)]) := by
      simp [step, hstart, begin, hquery]
    rw [hbegin, play_work_of_closing s batchSize rfl]
    exact ⟨[], rfl, List.nil_prefix, fun _ h => by simp [Except.isOk, Except.toBool] at h⟩
  | ok q =>
    obtain ⟨working, hworking⟩ : ∃ w : ScanRun Q, w = { run with phase := .running } := ⟨_, rfl⟩
    have hbegin : run.step s batchSize (.begin true) = (working, [.query q]) := by
      simp [step, hstart, begin, hquery, hworking]
    have hfirst : working.phase = .running := by rw [hworking]
    have hnone : working.held s.curve = [] := by simp [hworking, held, rest, drained, hwaiting]
    have hwork := published_work s batchSize hfirst works
    rw [hnone, List.nil_append] at hwork
    obtain ⟨hnopage, kept, hphase, hall, hnothing⟩ := step_finish s batchSize
      (phase_play_work s batchSize hfirst works) outcome elapsed
    have hsilent : published ((working.play s batchSize (works.map (·.input))).1.step s batchSize
        (.finish outcome elapsed)).2 = [] := by
      rw [published, hnopage, List.flatMap_nil]
    have hprefix : kept <+: (working.play s batchSize (works.map (·.input))).1.held s.curve := by
      by_cases hdone : outcome = .finished
      · exact hall hdone ▸ List.prefix_refl kept
      · rw [hnothing hdone]
        exact List.nil_prefix
    rw [hbegin]
    have hquiet : published [(.query q : ScanEffect Q)] = [] := rfl
    refine ⟨kept, hphase, ?_, fun hdone _ => ?_⟩
    · simp only [play, published_append, hquiet, hsilent, List.nil_append,
        List.append_nil, ← hwork]
      exact (List.prefix_append_right_inj _).2 hprefix
    · simp only [play, published_append, hquiet, hsilent, List.nil_append,
        List.append_nil, ← hwork, hall hdone]

/-- The final pages follow the others. -/
lemma pagesOf_lifetime {works : List ScanWork} {outcome : ScanOutcome} {elapsed : Nat}
    {kept : List TxEntry}
    (h : (run.play s batchSize (upToEnd works outcome elapsed)).1.phase = .closing kept) :
    pagesOf (run.play s batchSize (lifetime works outcome elapsed)).2
      = pagesOf (run.play s batchSize (upToEnd works outcome elapsed)).2
        ++ pagesOf ((run.play s batchSize (upToEnd works outcome elapsed)).1.pages
            Portion.whole kept true) := by
  rw [lifetime, play_append, pagesOf_append]
  simp [play, step, h, conclude]

end ScanRun

/-- What the pages of a scan are to be, given the entries of the rows that the store has sent: the
first of these entries in their order, on pages that are not too long and belong to the request,
with a part done that climbs to one. -/
structure Delivers (settings : ScanSettings) (request : ScanRequest) (found : List TxEntry)
    (pages : List (ScanPage ℚ)) : Prop where
  in_order : pages.flatMap (·.history) <+: found
  not_long : ∀ p ∈ pages, p.history.length ≤ max settings.pageSize 1
  belong : ∀ p ∈ pages, p.owner = request.owner ∧ p.subscription = request.key
  in_range : ∀ p ∈ pages, 0 ≤ p.progress ∧ p.progress ≤ 1
  climbs : pages.Pairwise (·.progress ≤ ·.progress)
  ends : pages.getLast?.map (·.progress) = some 1

/-- The pages that a scan publishes while it is wanted throughout. -/
def pagesOfScan (s : Scheme) (settings : ScanSettings) (request : ScanRequest)
    (works : List ScanWork) (outcome : ScanOutcome) (elapsed : Nat) : List (ScanPage ℚ) :=
  pagesOf ((ScanRun.new settings request).play s settings.batchSize
    (ScanRun.lifetime works outcome elapsed)).2

/-- **What a scan publishes**: whatever rows the store sends, however it counts and ends, and
whenever the ticks come, the pages deliver the first of the entries found; and they deliver all of
them if the query could be made and the store ended well. -/
theorem pagesOfScan_delivers (s : Scheme) (settings : ScanSettings) (request : ScanRequest)
    (works : List ScanWork) (outcome : ScanOutcome) (elapsed : Nat) :
    Delivers settings request ((ScanWork.sent works).filterMap (toEntry s.curve))
        (pagesOfScan s settings request works outcome elapsed)
      ∧ (outcome = .finished → (request.buildQuery s settings.batchSize).isOk →
          (pagesOfScan s settings request works outcome elapsed).flatMap (·.history)
            = (ScanWork.sent works).filterMap (toEntry s.curve)) := by
  obtain ⟨run, hrun⟩ : ∃ run : ScanRun ℚ, run = .new settings request := ⟨_, rfl⟩
  have hstart : run.phase = .starting := by rw [hrun]; rfl
  have hrange : run.tracker.InRange := by rw [hrun]; exact ⟨le_refl 0, zero_le_one⟩
  obtain ⟨kept, hphase, hprefix, hall⟩ := ScanRun.published_upToEnd s settings.batchSize hstart
    (by rw [hrun]; rfl) works outcome elapsed
  have hpages : pagesOfScan s settings request works outcome elapsed
      = pagesOf (run.play s settings.batchSize (ScanRun.upToEnd works outcome elapsed)).2
        ++ pagesOf ((run.play s settings.batchSize (ScanRun.upToEnd works outcome elapsed)).1.pages
            Portion.whole kept true) := by
    rw [← ScanRun.pagesOf_lifetime s settings.batchSize hphase, hrun]
    rfl
  have hhistories : (pagesOfScan s settings request works outcome elapsed).flatMap (·.history)
      = published (run.play s settings.batchSize (ScanRun.upToEnd works outcome elapsed)).2
        ++ kept := by
    rw [hpages, List.flatMap_append]
    exact congrArg _ (ScanRun.published_pages _ _ _ _)
  have hown : ∀ p ∈ pagesOfScan s settings request works outcome elapsed,
      p.history.length ≤ max settings.pageSize 1 ∧ p.owner = request.owner
        ∧ p.subscription = request.key :=
    fun p hp => ScanRun.of_mem_play hp
  obtain ⟨_, _, hwithin, hsorted⟩ := ScanRun.levels_play s settings.batchSize hrange
    (ScanRun.lifetime works outcome elapsed)
  have hend := ScanRun.level_mem (ScanRun.levels_play s settings.batchSize hrange
    (ScanRun.lifetime works outcome elapsed)).1
  have hfirst := ScanRun.level_mem hrange
  rw [hrun] at hwithin hsorted hend hfirst hall
  refine ⟨⟨?_, fun p hp => (hown p hp).1, fun p hp => (hown p hp).2, fun p hp => ?_, hsorted, ?_⟩,
    fun hdone hquery => ?_⟩
  · rw [hhistories]
    exact hprefix
  · obtain ⟨hlow, hhigh⟩ := hwithin p hp
    exact ⟨le_trans hfirst.1 hlow, le_trans hhigh hend.2⟩
  · rw [hpages, List.getLast?_append]
    have hlast := ScanRun.getLast?_pages
      (run.play s settings.batchSize (ScanRun.upToEnd works outcome elapsed)).1 Portion.whole kept
    obtain ⟨last, hsome, hwhole⟩ := Option.map_eq_some_iff.1 hlast
    rw [hsome]
    exact congrArg some hwhole
  · rw [hhistories, hrun]
    exact hall hdone hquery

/-- A setting in which all hashes are one, so that examples are quickly worked out. -/
def plainScheme : Scheme where
  curve := secp256k1
  hash _ _ := Bytes.ofNatBE 32 1

/-- A request of the wallet whose keys are the scalar one and the base point, to be used as an
example. -/
def sampleRequest : ScanRequest where
  owner := 0
  address := { scanKey := 1, scanPublicKey := secp256k1.generator,
               spendKey := secp256k1.generator, address := "sample" }
  labels := .ofRaw []
  startHeight := none
  endHeight := none

/-- A row at a height, to be used as an example. -/
def sampleRow (height : Int) : RawMatch where
  txid := [1]
  tweakKey := toRawKey secp256k1.generator
  height := height
  outputIndex := none

/-- A row sent before a tick and two sent after it, with single entries on a page: the pages
deliver all three in their order. -/
theorem pagesOfScan_of_three_rows :
    (sampleRequest.buildQuery plainScheme none).isOk = true
      ∧ ((pagesOfScan plainScheme { pageSize := 1 } sampleRequest
          [.count 1 3, .tick, .found (sampleRow 5), .count 2 3, .tick, .found (sampleRow 6),
            .found (sampleRow 7)] .finished 0).flatMap (·.history)).map (·.height)
        = [5, 6, 7] := by
  have hquery : (sampleRequest.buildQuery plainScheme none).isOk = true := by decide +kernel
  refine ⟨hquery, ?_⟩
  rw [(pagesOfScan_delivers plainScheme { pageSize := 1 } sampleRequest _ _ _).2 rfl hquery]
  decide +kernel

end SilentScan
