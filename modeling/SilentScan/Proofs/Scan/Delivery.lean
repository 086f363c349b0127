/-
How entries leave a scan.

The rows that a store sends leave a scan on two ways: a tick drains those that wait, and the end
keeps the last of them for the final pages. Whatever the order of rows, counters and ticks, the
entries published so far followed by those still held are the entries of the rows sent, so that
nothing is lost, repeated or reordered.

* `pagesOf`, `published`: the pages among the effects of a scan, and the entries on them;
* `ScanRun.held`, `held_step`, `published_work`: published and held entries together, for one step
  and for all that happens while the store works;
* `mem_held_step`: where entries come from, also if the scan becomes unwanted.
-/
import Mathlib.Tactic.Common
import SilentScan.Scan.Engine

namespace SilentScan

/-! ### Pages -/

section Chunks

variable {α : Type} {size fuel : Nat} {l : List α}

/-- The pieces of a list make up the list. -/
lemma chunks_flatten (hsize : 0 < size) (hfuel : l.length ≤ fuel) :
    (chunks size fuel l).flatten = l := by
  induction fuel generalizing l with
  | zero =>
    have hnil : l = [] := List.length_eq_zero_iff.1 (by omega)
    simp [chunks, hnil]
  | succ fuel ih =>
    rw [chunks]
    split
    · rename_i hempty
      simp [List.isEmpty_iff.1 hempty]
    · have hdrop : (l.drop size).length ≤ fuel := by
        rw [List.length_drop]
        omega
      rw [List.flatten_cons, ih hdrop, List.take_append_drop]

/-- No piece is longer than asked for. -/
lemma length_le_of_mem_chunks {piece : List α} (h : piece ∈ chunks size fuel l) :
    piece.length ≤ size := by
  induction fuel generalizing l with
  | zero => simp [chunks] at h
  | succ fuel ih =>
    rw [chunks] at h
    split at h
    · simp at h
    · rcases List.mem_cons.1 h with rfl | h
      · rw [List.length_take]
        omega
      · exact ih h

end Chunks

/-- The histories of some entries make up the entries. -/
lemma histories_flatten (pageSize : Nat) (entries : List TxEntry) (force : Bool) :
    (histories pageSize entries force).flatten = entries := by
  rw [histories]
  split
  · rename_i hempty
    rw [List.isEmpty_iff.1 hempty]
    split <;> rfl
  · exact chunks_flatten (by omega) (Nat.le_refl _)

lemma length_le_of_mem_histories {pageSize : Nat} {entries history : List TxEntry} {force : Bool}
    (h : history ∈ histories pageSize entries force) : history.length ≤ max pageSize 1 := by
  rw [histories] at h
  split at h
  · split at h
    · rw [List.mem_singleton.1 h]
      exact Nat.zero_le _
    · simp at h
  · exact length_le_of_mem_chunks h

/-- Forced pages are there even without entries. -/
lemma histories_ne_nil (pageSize : Nat) (entries : List TxEntry) :
    histories pageSize entries true ≠ [] := by
  rw [histories]
  cases entries with
  | nil => simp
  | cons e entries => simp [chunks]

/-- The pages among the effects of a scan. -/
def pagesOf {Q : Type} (effects : List (ScanEffect Q)) : List (ScanPage Q) :=
  effects.filterMap fun
    | .page p => some p
    | _ => none

/-- The entries on the pages, in the order of publication. -/
def published {Q : Type} (effects : List (ScanEffect Q)) : List TxEntry :=
  (pagesOf effects).flatMap (·.history)

section Published

variable {Q : Type}

@[simp] lemma pagesOf_nil : pagesOf ([] : List (ScanEffect Q)) = [] := rfl

@[simp] lemma pagesOf_append (a b : List (ScanEffect Q)) :
    pagesOf (a ++ b) = pagesOf a ++ pagesOf b :=
  List.filterMap_append

@[simp] lemma published_nil : published ([] : List (ScanEffect Q)) = [] := rfl

@[simp] lemma published_append (a b : List (ScanEffect Q)) :
    published (a ++ b) = published a ++ published b := by
  simp [published]

end Published

namespace ScanRun

variable {Q : Type} [Portion Q] (s : Scheme) (batchSize : Option Nat) {run : ScanRun Q}

omit [Portion Q] in
lemma pagesOf_pages (run : ScanRun Q) (progress : Q) (entries : List TxEntry) (force : Bool) :
    pagesOf (run.pages progress entries force)
      = (histories run.pageSize entries force).map fun history =>
          { owner := run.request.owner, subscription := run.request.key, progress, history } := by
  rw [pages, pagesOf, List.filterMap_map, ← List.filterMap_eq_map]
  rfl

omit [Portion Q] in
/-- The pages of some entries publish just these. -/
lemma published_pages (run : ScanRun Q) (progress : Q) (entries : List TxEntry) (force : Bool) :
    published (run.pages progress entries force) = entries := by
  rw [published, pagesOf_pages, List.flatMap_map]
  exact List.flatMap_id.trans (histories_flatten _ _ _)

omit [Portion Q] in
/-- Forced pages end with a page, which carries the part done that is given. -/
lemma getLast?_pages (run : ScanRun Q) (progress : Q) (entries : List TxEntry) :
    (pagesOf (run.pages progress entries true)).getLast?.map (·.progress) = some progress := by
  obtain ⟨last, hlast⟩ := Option.ne_none_iff_exists'.1
    (mt List.getLast?_eq_none_iff.1 (histories_ne_nil run.pageSize entries))
  rw [pagesOf_pages, List.getLast?_map, hlast]
  rfl

/-! ### Published and held -/

/-- The entries kept for the final pages. -/
def rest (run : ScanRun Q) : List TxEntry :=
  match run.phase with
  | .closing rest => rest
  | _ => []

/-- The entries not published so far. -/
def held (c : Curve) (run : ScanRun Q) : List TxEntry :=
  run.rest ++ run.drained c

/-- The entries of the rows that a scan takes in by something that happens. -/
def taken (c : Curve) (run : ScanRun Q) : ScanInput → List TxEntry
  | .push m => if run.phase = .running then [m].filterMap (toEntry c) else []
  | _ => []

omit [Portion Q] in
/-- Before the store is done with, nothing is kept for the final pages. -/
lemma held_eq_drained (c : Curve) (h : ∀ rest, run.phase ≠ .closing rest) :
    run.held c = run.drained c := by
  rw [held, rest]
  split
  · rename_i rest hphase
    exact absurd hphase (h rest)
  · rfl

/-- What a tick publishes, with what it leaves waiting, is what has waited. -/
lemma published_tick (c : Curve) (alive : Bool) (run : ScanRun Q) :
    published (run.tick c alive).2 ++ (run.tick c alive).1.drained c = run.drained c := by
  rw [tick]
  split
  · rfl
  · split
    · rfl
    · simp only [published_pages]
      exact List.append_nil _

/-- A tick keeps nothing for the final pages. -/
lemma rest_tick (c : Curve) (alive : Bool) (run : ScanRun Q) (h : run.phase = .running) :
    (run.tick c alive).1.rest = [] := by
  rw [tick]
  split
  · rfl
  · split <;> simp [rest, h]

omit [Portion Q] in
/-- The end of the store publishes nothing, and keeps what waits. -/
lemma held_finish (c : Curve) (outcome : ScanOutcome) (elapsed : Nat) (run : ScanRun Q) :
    published (run.finish c outcome elapsed).2 ++ (run.finish c outcome elapsed).1.held c
      = run.drained c := by
  cases outcome with
  | finished => simp [finish, held, rest, drained, published, pagesOf, ended]
  | failed e =>
    simp only [finish]
    split <;> simp [held, rest, drained, published, pagesOf, ended]
  | crashed message =>
    simp only [finish]
    split <;> simp [held, rest, drained, published, pagesOf, ended]

omit [Portion Q] in
/-- The start publishes nothing. -/
lemma held_begin (c : Curve) (alive : Bool) (run : ScanRun Q) :
    published (run.begin s batchSize alive).2 ++ (run.begin s batchSize alive).1.held c
      = run.drained c := by
  rw [begin]
  split
  · rfl
  · split <;> rfl

/-- **Published and held**: unless the final pages are not wanted, what a step publishes, followed
by what is held after it, is what was held before it with what it takes in. -/
lemma held_step {input : ScanInput} (h : input ≠ .conclude false) (run : ScanRun Q) :
    published (run.step s batchSize input).2 ++ (run.step s batchSize input).1.held s.curve
      = run.held s.curve ++ run.taken s.curve input := by
  cases hphase : run.phase with
  | starting =>
    have hheld : run.held s.curve = run.drained s.curve := held_eq_drained _ (by simp [hphase])
    cases input with
    | begin alive =>
      simpa [step, hphase, taken, hheld] using held_begin s batchSize s.curve alive run
    | _ => simp [step, hphase, taken]
  | running =>
    have hheld : run.held s.curve = run.drained s.curve := held_eq_drained _ (by simp [hphase])
    cases input with
    | push m =>
      rw [held_eq_drained _ (by simp [step, push, hphase]), hheld]
      simp [step, hphase, push, drained, taken]
    | tick alive =>
      have hafter : (run.tick s.curve alive).1.held s.curve
          = (run.tick s.curve alive).1.drained s.curve := by
        rw [held, rest_tick _ _ _ hphase, List.nil_append]
      simpa [step, hphase, taken, hheld, hafter] using published_tick s.curve alive run
    | finish outcome elapsed =>
      simpa [step, hphase, taken, hheld] using held_finish s.curve outcome elapsed run
    | count processed total =>
      rw [held_eq_drained _ (by simp [step, count, hphase]), hheld]
      simp [step, hphase, count, drained, taken]
    | _ => simp [step, hphase, taken]
  | closing rest' =>
    cases input with
    | conclude alive =>
      obtain rfl : alive = true := by simpa using h
      simp [step, hphase, conclude, published_pages, held, rest, drained, taken]
    | _ => simp [step, hphase, taken]
  | done => cases input <;> simp [step, hphase, taken]

variable {s batchSize} in
/-- Every entry that a step publishes or leaves held was held before, or comes with a row that
the store sends by it. -/
lemma mem_held_step {run : ScanRun Q} {input : ScanInput} {e : TxEntry}
    (h : e ∈ published (run.step s batchSize input).2
      ∨ e ∈ (run.step s batchSize input).1.held s.curve) :
    e ∈ run.held s.curve ∨ ∃ m, input = .push m ∧ toEntry s.curve m = some e := by
  by_cases hunwanted : input = .conclude false
  · subst hunwanted
    cases hphase : run.phase with
    | closing rest' =>
      refine Or.inl (List.mem_append_right _ ?_)
      simpa [step, hphase, conclude, held, rest, drained] using h
    | _ => simpa [step, hphase] using h
  · rw [← List.mem_append, held_step s batchSize hunwanted, List.mem_append] at h
    refine h.imp_right fun htaken => ?_
    cases input with
    | push m =>
      rw [taken] at htaken
      split at htaken
      · exact ⟨m, rfl, by simpa using htaken⟩
      · simp at htaken
    | _ => simp [taken] at htaken

/-! ### Runs -/

/-- What happens to a scan, one after another. -/
def play (s : Scheme) (batchSize : Option Nat) :
    ScanRun Q → List ScanInput → ScanRun Q × List (ScanEffect Q)
  | run, [] => (run, [])
  | run, input :: rest =>
    let (run, effects) := run.step s batchSize input
    let (run, more) := play s batchSize run rest
    (run, effects ++ more)

lemma play_cons (run : ScanRun Q) (input : ScanInput) (rest : List ScanInput) :
    run.play s batchSize (input :: rest)
      = (((run.step s batchSize input).1.play s batchSize rest).1,
          (run.step s batchSize input).2
            ++ ((run.step s batchSize input).1.play s batchSize rest).2) := rfl

lemma play_append (run : ScanRun Q) (a b : List ScanInput) :
    run.play s batchSize (a ++ b)
      = (((run.play s batchSize a).1.play s batchSize b).1,
          (run.play s batchSize a).2 ++ ((run.play s batchSize a).1.play s batchSize b).2) := by
  induction a generalizing run with
  | nil => rfl
  | cons input a ih => simp [play_cons, ih]

end ScanRun

/-- What happens while the store works on a scan that is wanted: it sends a row, or sets its
counters, or the engine has its tick. -/
inductive ScanWork where
  | found (m : RawMatch)
  | count (processed total : Nat)
  | tick

namespace ScanWork

/-- What happens to the scan. -/
def input : ScanWork → ScanInput
  | .found m => .push m
  | .count processed total => .count processed total
  | .tick => .tick true

/-- The rows that the store sends, in order. -/
def sent (works : List ScanWork) : List RawMatch :=
  works.filterMap fun
    | .found m => some m
    | _ => none

lemma sent_cons (work : ScanWork) (works : List ScanWork) :
    sent (work :: works) = sent [work] ++ sent works := by
  cases work <;> rfl

end ScanWork

namespace ScanRun

variable {Q : Type} [Portion Q] (s : Scheme) (batchSize : Option Nat) {run : ScanRun Q}

/-- A running scan that is wanted goes on running. -/
lemma phase_work (h : run.phase = .running) (work : ScanWork) :
    (run.step s batchSize work.input).1.phase = .running := by
  cases work with
  | found m => simp [ScanWork.input, step, h, push]
  | count processed total => simp [ScanWork.input, step, h, count]
  | tick =>
    simp only [ScanWork.input, step, h, tick, Bool.not_true, Bool.false_eq_true, if_false]
    split <;> rfl

lemma phase_play_work (h : run.phase = .running) (works : List ScanWork) :
    (run.play s batchSize (works.map (·.input))).1.phase = .running := by
  induction works generalizing run with
  | nil => exact h
  | cons work works ih => exact ih (phase_work s batchSize h work)

/-- A scan that is closing takes no notice of the store. -/
lemma play_work_of_closing {kept : List TxEntry} (h : run.phase = .closing kept)
    (works : List ScanWork) : run.play s batchSize (works.map (·.input)) = (run, []) := by
  induction works with
  | nil => rfl
  | cons work works ih =>
    have hstep : run.step s batchSize work.input = (run, []) := by
      cases work <;> simp [ScanWork.input, step, h]
    rw [List.map_cons, play_cons, hstep, ih]
    rfl

/-- **Published and held while the store works**: what is published, followed by what is held in
the end, is what was held at first with the entries of the rows sent. -/
lemma published_work (h : run.phase = .running) (works : List ScanWork) :
    published (run.play s batchSize (works.map (·.input))).2
        ++ (run.play s batchSize (works.map (·.input))).1.held s.curve
      = run.held s.curve ++ (ScanWork.sent works).filterMap (toEntry s.curve) := by
  induction works generalizing run with
  | nil => simp [play, ScanWork.sent]
  | cons work works ih =>
    have hwanted : work.input ≠ .conclude false := by cases work <;> simp [ScanWork.input]
    have hstep := held_step s batchSize hwanted run
    have htaken : run.taken s.curve work.input
        = (ScanWork.sent [work]).filterMap (toEntry s.curve) := by
      cases work <;> simp [ScanWork.input, ScanWork.sent, taken, h]
    rw [List.map_cons, play_cons, published_append, List.append_assoc,
      ih (phase_work s batchSize h work), ← List.append_assoc, hstep, List.append_assoc, htaken,
      ← List.filterMap_append, ← ScanWork.sent_cons]

end ScanRun
end SilentScan
