/-
How often the hooks of a scan run.

A store that waits in a database installs a hook in the control of its scan and removes the hook
when it is done; whoever cancels the scan does so meanwhile. The two do not wait for each other, so
that their calls may come in any order. In every order a hook runs once if the scan is cancelled
when the hook is installed, and once more for each cancellation while it is installed.

A hook may be installed more than once, and its runs are counted for each time. To tell them apart
every hook is taken together with the number of the call that installs it. That does not matter to
the control, which never looks at its hooks.

* `ControlCall`, `ScanControl.call`, `ScanControl.afterCalls`, `ScanControl.ran`: the calls that
  change a control, and the hooks that they run;
* `ControlCall.numbered`, `ScanControl.runs`: hooks with numbers, and how often a call's hook runs;
* `ScanControl.mem_call`, `hook_call`, `cancelled_call`, `call_map`: what one call does;
* `ScanControl.countP_ran`: the runs of a hook that is not installed again;
* `HooksCounted`, `hooks_counted`: the whole.
-/
import Mathlib.Tactic.Common
import SilentScan.Scan.Control

namespace SilentScan

/-- A call that changes the control of a scan. -/
inductive ControlCall (H : Type) where
  | setTotal (n : Nat)
  | record (n : Nat)
  | setInterrupt (hook : H)
  | clearInterrupt
  | cancel

namespace ControlCall

variable {H K : Type}

/-- The same call with hooks renamed. -/
def map (f : H → K) : ControlCall H → ControlCall K
  | .setTotal n => .setTotal n
  | .record n => .record n
  | .setInterrupt h => .setInterrupt (f h)
  | .clearInterrupt => .clearInterrupt
  | .cancel => .cancel

/-- Whether a call cancels the scan. -/
def isCancel : ControlCall H → Bool
  | .cancel => true
  | _ => false

/-- Whether a call removes the hook that is there, or puts another in its place. -/
def endsHook : ControlCall H → Bool
  | .setInterrupt _ | .clearInterrupt => true
  | _ => false

/-- The cancellations among some calls for as long as the hook that is there before them stays. -/
def cancelsWhileInstalled (calls : List (ControlCall H)) : Nat :=
  (calls.takeWhile (!·.endsHook)).countP (·.isCancel)

/-- The calls with each hook taken together with the number of the call that installs it, the first
call having number `n`. -/
def numbered (n : Nat) (calls : List (ControlCall H)) : List (ControlCall (Nat × H)) :=
  (calls.zipIdx n).map fun x => x.1.map fun h => (x.2, h)

lemma isCancel_iff {x : ControlCall H} : x.isCancel = true ↔ x = .cancel := by
  cases x <;> simp [isCancel]

@[simp] lemma isCancel_map (f : H → K) (x : ControlCall H) : (x.map f).isCancel = x.isCancel := by
  cases x <;> rfl

@[simp] lemma endsHook_map (f : H → K) (x : ControlCall H) : (x.map f).endsHook = x.endsHook := by
  cases x <;> rfl

/-- A hook goes back to its name when the number is taken away. -/
lemma map_snd_map (n : Nat) (x : ControlCall H) : (x.map fun h => (n, h)).map Prod.snd = x := by
  cases x <;> rfl

lemma cancelsWhileInstalled_cons (x : ControlCall H) (calls : List (ControlCall H)) :
    cancelsWhileInstalled (x :: calls)
      = if x.endsHook then 0 else cancelsWhileInstalled calls + if x.isCancel then 1 else 0 := by
  rw [cancelsWhileInstalled, cancelsWhileInstalled, List.takeWhile_cons]
  cases x.endsHook with
  | false => exact List.countP_cons
  | true => rfl

/-! ### Hooks and their numbers -/

lemma numbered_cons (n : Nat) (x : ControlCall H) (rest : List (ControlCall H)) :
    numbered n (x :: rest) = x.map (fun h => (n, h)) :: numbered (n + 1) rest :=
  rfl

lemma numbered_append (n : Nat) (before rest : List (ControlCall H)) :
    numbered n (before ++ rest) = numbered n before ++ numbered (n + before.length) rest := by
  rw [numbered, List.zipIdx_append, List.map_append]
  rfl

/-- The numbers can be taken away again. -/
lemma map_numbered (n : Nat) (calls : List (ControlCall H)) :
    (numbered n calls).map (·.map Prod.snd) = calls := by
  induction calls generalizing n with
  | nil => rfl
  | cons x calls ih => rw [numbered_cons, List.map_cons, map_snd_map, ih]

/-- A hook with a number is installed by the call of that number. -/
lemma mem_numbered {n : Nat} {calls : List (ControlCall H)} {p : Nat × H}
    (h : .setInterrupt p ∈ numbered n calls) :
    n ≤ p.1 ∧ calls[p.1 - n]? = some (.setInterrupt p.2) := by
  obtain ⟨⟨x, i⟩, hmem, heq⟩ := List.mem_map.1 h
  cases x with
  | setInterrupt k =>
    obtain rfl : (i, k) = p := ControlCall.setInterrupt.inj heq
    exact List.mk_mem_zipIdx_iff_le_and_getElem?_sub.1 hmem
  | setTotal m => cases heq
  | record m => cases heq
  | clearInterrupt => cases heq
  | cancel => cases heq

/-- No call but the one of its number installs a hook of that number. -/
lemma fst_ne_of_mem_numbered {i : Nat} (n : Nat) (calls : List (ControlCall H))
    (hi : i < n ∨ n + calls.length ≤ i) :
    ∀ p, .setInterrupt p ∈ numbered n calls → (p.1 == i) = false := by
  intro p hmem
  obtain ⟨hle, hget⟩ := mem_numbered hmem
  obtain ⟨hlt, -⟩ := List.getElem?_eq_some_iff.1 hget
  rw [beq_eq_false_iff_ne]
  omega

lemma cancelsWhileInstalled_numbered (n : Nat) (calls : List (ControlCall H)) :
    cancelsWhileInstalled (numbered n calls) = cancelsWhileInstalled calls := by
  induction calls generalizing n with
  | nil => rfl
  | cons x calls ih =>
    rw [numbered_cons, cancelsWhileInstalled_cons, cancelsWhileInstalled_cons, ih, endsHook_map,
      isCancel_map]

lemma any_isCancel_numbered (n : Nat) (calls : List (ControlCall H)) :
    (numbered n calls).any (·.isCancel) = calls.any (·.isCancel) := by
  induction calls generalizing n with
  | nil => rfl
  | cons x calls ih => rw [numbered_cons, List.any_cons, List.any_cons, isCancel_map, ih]

end ControlCall

namespace ScanControl

open ControlCall

variable {H K : Type}

/-- Carries out a call. Gives the hooks run. -/
def call (c : ScanControl H) : ControlCall H → ScanControl H × List H
  | .setTotal n => (c.setTotal n, [])
  | .record n => (c.record n, [])
  | .setInterrupt h => c.setInterrupt h
  | .clearInterrupt => (c.clearInterrupt, [])
  | .cancel => c.cancel

/-- The control after calls. -/
def afterCalls (c : ScanControl H) (calls : List (ControlCall H)) : ScanControl H :=
  calls.foldl (fun c x => (c.call x).1) c

/-- The hooks that calls run, in order. -/
def ran : ScanControl H → List (ControlCall H) → List H
  | _, [] => []
  | c, x :: calls => (c.call x).2 ++ ran (c.call x).1 calls

/-- The same control with its hook renamed. -/
def map (f : H → K) (c : ScanControl H) : ScanControl K :=
  { processed := c.processed, total := c.total, cancelled := c.cancelled, hook := c.hook.map f }

/-- How often the hook that call number `i` installs is run by the calls made to a new control. -/
def runs (i : Nat) (calls : List (ControlCall H)) : Nat :=
  (ran {} (numbered 0 calls)).countP (·.1 == i)

/-! ### One call -/

/-- What a call runs: a cancellation the hook that is there, an installation its own hook if the
control is cancelled. -/
lemma mem_call {c : ScanControl H} {x : ControlCall H} {h : H} :
    h ∈ (c.call x).2
      ↔ (x = .cancel ∧ c.hook = some h) ∨ (x = .setInterrupt h ∧ c.cancelled = true) := by
  cases x with
  | setTotal n => simp [call]
  | record n => simp [call]
  | setInterrupt k =>
    have hswap : k = h ↔ h = k := eq_comm
    cases hcancelled : c.cancelled <;> simp [call, setInterrupt, hcancelled, hswap]
  | clearInterrupt => simp [call]
  | cancel => simp [call, cancel]

/-- The hook that is there after a call. -/
lemma hook_call {c : ScanControl H} {x : ControlCall H} {h : H} :
    (c.call x).1.hook = some h
      ↔ x = .setInterrupt h ∨ (x.endsHook = false ∧ c.hook = some h) := by
  cases x <;> simp [call, setTotal, record, setInterrupt, clearInterrupt, cancel, endsHook]

lemma cancelled_call (c : ScanControl H) (x : ControlCall H) :
    (c.call x).1.cancelled = (c.cancelled || x.isCancel) := by
  cases x <;> simp [call, setTotal, record, setInterrupt, clearInterrupt, cancel, isCancel]

/-- A control never looks at its hooks. -/
lemma call_map (f : H → K) (c : ScanControl H) (x : ControlCall H) :
    (c.map f).call (x.map f) = ((c.call x).1.map f, (c.call x).2.map f) := by
  cases x with
  | setTotal n => rfl
  | record n => rfl
  | setInterrupt h =>
    cases hcancelled : c.cancelled <;>
      simp [call, map, ControlCall.map, setInterrupt, hcancelled]
  | clearInterrupt => rfl
  | cancel => cases hhook : c.hook <;> simp [call, map, ControlCall.map, cancel, hhook]

/-! ### Calls one after another -/

lemma ran_append (c : ScanControl H) (before rest : List (ControlCall H)) :
    c.ran (before ++ rest) = c.ran before ++ (c.afterCalls before).ran rest := by
  induction before generalizing c with
  | nil => rfl
  | cons x before ih =>
    rw [List.cons_append, ran, ran, ih, List.append_assoc]
    rfl

/-- A control is cancelled after some calls if it was before or one of them cancels it. -/
lemma cancelled_afterCalls (c : ScanControl H) (calls : List (ControlCall H)) :
    (c.afterCalls calls).cancelled = (c.cancelled || calls.any (·.isCancel)) := by
  induction calls generalizing c with
  | nil => simp [afterCalls]
  | cons x calls ih =>
    rw [List.any_cons, ← Bool.or_assoc, ← cancelled_call]
    exact ih _

lemma cancelled_new_iff (calls : List (ControlCall H)) :
    (({} : ScanControl H).afterCalls calls).cancelled = true ↔ .cancel ∈ calls := by
  rw [cancelled_afterCalls, Bool.false_or, List.any_eq_true]
  simp only [isCancel_iff, exists_eq_right]

/-- Hooks may be renamed, and the renamed ones run. -/
lemma ran_map (f : H → K) (c : ScanControl H) (calls : List (ControlCall H)) :
    (c.map f).ran (calls.map (·.map f)) = (c.ran calls).map f := by
  induction calls generalizing c with
  | nil => rfl
  | cons x calls ih => rw [List.map_cons, ran, ran, List.map_append, call_map, ih]

/-- A hook that runs is there before or installed by one of the calls. -/
lemma mem_ran {c : ScanControl H} {calls : List (ControlCall H)} {h : H} (hran : h ∈ c.ran calls) :
    c.hook = some h ∨ .setInterrupt h ∈ calls := by
  induction calls generalizing c with
  | nil => cases hran
  | cons x calls ih =>
    -- What runs later stood in the control after the call, or is installed later.
    rcases List.mem_append.1 hran with hnow | hlater
    · rcases mem_call.1 hnow with ⟨-, hhook⟩ | ⟨rfl, -⟩
      · exact Or.inl hhook
      · exact Or.inr List.mem_cons_self
    · rcases ih hlater with hhook | hmem
      · rcases hook_call.1 hhook with rfl | ⟨-, hhook⟩
        · exact Or.inr List.mem_cons_self
        · exact Or.inl hhook
      · exact Or.inr (List.mem_cons_of_mem x hmem)

/-- Nothing runs while nobody cancels. -/
lemma ran_eq_nil {c : ScanControl H} {calls : List (ControlCall H)} (hc : c.cancelled = false)
    (hnone : .cancel ∉ calls) : c.ran calls = [] := by
  induction calls generalizing c with
  | nil => rfl
  | cons x calls ih =>
    obtain ⟨hx, hrest⟩ := not_or.1 (List.mem_cons.not.1 hnone)
    have hnow : (c.call x).2 = [] := by
      refine List.eq_nil_iff_forall_not_mem.2 fun h hmem => ?_
      rcases mem_call.1 hmem with ⟨rfl, -⟩ | ⟨-, hyes⟩
      · exact hx rfl
      · exact Bool.false_ne_true (hc.symm.trans hyes)
    have hnext : (c.call x).1.cancelled = false := by
      rw [cancelled_call, hc, Bool.false_or]
      exact Bool.eq_false_iff.2 fun hcancel => hx (isCancel_iff.1 hcancel).symm
    rw [ran, hnow, List.nil_append]
    exact ih hnext hrest

/-- **The runs of a hook that is not installed again**: one for each cancellation as long as it
stays, if it is there. The hooks looked at are those that satisfy `p`. -/
lemma countP_ran (c : ScanControl H) (p : H → Bool) {calls : List (ControlCall H)}
    (hnew : ∀ h, .setInterrupt h ∈ calls → p h = false) :
    (c.ran calls).countP p
      = bif c.hook.any p then cancelsWhileInstalled calls else 0 := by
  induction calls generalizing c with
  | nil => simp [ran, cancelsWhileInstalled]
  | cons x calls ih =>
    have hrest := fun c => ih c fun h hmem => hnew h (List.mem_cons_of_mem x hmem)
    rw [ran, List.countP_append, hrest, cancelsWhileInstalled_cons]
    cases x with
    | setTotal n => simp [call, setTotal, endsHook, isCancel]
    | record n => simp [call, record, endsHook, isCancel]
    | setInterrupt h =>
      have hother : p h = false := hnew h List.mem_cons_self
      cases hcancelled : c.cancelled <;> simp [call, setInterrupt, hcancelled, hother, endsHook]
    | clearInterrupt => simp [call, clearInterrupt, endsHook]
    | cancel =>
      cases hhook : c.hook with
      | none => simp [call, cancel, hhook]
      | some h =>
        cases hp : p h <;>
          simp [call, cancel, hhook, hp, endsHook, isCancel, Nat.add_comm]

/-! ### The runs of an installation -/

/-- Before it is installed a hook does not run. -/
lemma runs_of_length_le {i : Nat} {calls : List (ControlCall H)} (hi : calls.length ≤ i) :
    runs i calls = 0 :=
  countP_ran {} (fun p : Nat × H => p.1 == i) (fst_ne_of_mem_numbered 0 calls (Or.inr (by omega)))

/-- **The runs of an installation**: one if the control is cancelled by then, and one for each
cancellation while the hook stays. -/
lemma runs_of_installed (before rest : List (ControlCall H)) (h : H) :
    runs before.length (before ++ .setInterrupt h :: rest)
      = (if (({} : ScanControl H).afterCalls before).cancelled then 1 else 0)
        + cancelsWhileInstalled rest := by
  have hcancelled : (({} : ScanControl (Nat × H)).afterCalls (numbered 0 before)).cancelled
      = (({} : ScanControl H).afterCalls before).cancelled := by
    rw [cancelled_afterCalls, cancelled_afterCalls, any_isCancel_numbered]
  have hearly : runs before.length before = 0 := runs_of_length_le (Nat.le_refl _)
  have hlater := fun c : ScanControl (Nat × H) => c.countP_ran (fun p => p.1 == before.length)
    (fst_ne_of_mem_numbered (0 + before.length + 1) rest (Or.inl (by omega)))
  rw [runs] at hearly
  rw [runs, numbered_append, numbered_cons, ran_append, List.countP_append, hearly, ran,
    List.countP_append, hlater, cancelsWhileInstalled_numbered, ← hcancelled]
  cases hbefore : (({} : ScanControl (Nat × H)).afterCalls (numbered 0 before)).cancelled <;>
    simp [call, setInterrupt, ControlCall.map, hbefore]

lemma runs_of_getElem? {calls : List (ControlCall H)} {i : Nat} {h : H}
    (hget : calls[i]? = some (.setInterrupt h)) :
    runs i calls = (if (({} : ScanControl H).afterCalls (calls.take i)).cancelled then 1 else 0)
      + cancelsWhileInstalled (calls.drop (i + 1)) := by
  obtain ⟨hlt, hget⟩ := List.getElem?_eq_some_iff.1 hget
  have hsplit : calls = calls.take i ++ .setInterrupt h :: calls.drop (i + 1) := by
    rw [← hget, List.getElem_cons_drop, List.take_append_drop]
  have hlength : (calls.take i).length = i := List.length_take_of_le (Nat.le_of_lt hlt)
  have hruns := runs_of_installed (calls.take i) (calls.drop (i + 1)) h
  rwa [← hsplit, hlength] at hruns

/-- **What has been removed does not run**: the runs of a hook do not grow after a call that ends
it. -/
lemma runs_of_ended {i : Nat} {before rest : List (ControlCall H)} {x : ControlCall H}
    (hx : x.endsHook = true) (hi : i < before.length) :
    runs i (before ++ x :: rest) = runs i before := by
  have hlater := fun c : ScanControl (Nat × H) => c.countP_ran (fun p => p.1 == i)
    (fst_ne_of_mem_numbered (0 + before.length) (x :: rest) (Or.inl (by omega)))
  have hends : cancelsWhileInstalled (x :: rest) = 0 := by
    rw [cancelsWhileInstalled_cons, if_pos hx]
  simp only [cancelsWhileInstalled_numbered, hends, Bool.cond_self] at hlater
  rw [runs, numbered_append, ran_append, List.countP_append, hlater]
  rfl

end ScanControl

/-! ### The whole -/

open ControlCall ScanControl

/-- What holds of calls made to a new control, in whatever order. -/
structure HooksCounted {H : Type} (calls : List (ControlCall H)) : Prop where
  /-- The hooks run are those with numbers, without the numbers. -/
  unnumbered : (ran {} (numbered 0 calls)).map Prod.snd = ran {} calls
  /-- A hook that runs has been installed by the call of its number. -/
  installed : ∀ p ∈ ran {} (numbered 0 calls), calls[p.1]? = some (.setInterrupt p.2)
  /-- An installed hook runs once if the control is cancelled by then, and once for each
  cancellation until it is removed or replaced. -/
  counted : ∀ i h, calls[i]? = some (.setInterrupt h) →
    runs i calls = (if (({} : ScanControl H).afterCalls (calls.take i)).cancelled then 1 else 0)
      + cancelsWhileInstalled (calls.drop (i + 1))
  /-- So a hook runs if a cancellation comes before it, or after it while it stays. -/
  unmissed : ∀ i h, calls[i]? = some (.setInterrupt h) →
    (.cancel ∈ calls.take i ∨ .cancel ∈ (calls.drop (i + 1)).takeWhile (!·.endsHook)) →
      0 < runs i calls
  /-- Without a cancellation nothing runs. -/
  uncancelled : .cancel ∉ calls → ran {} calls = []
  /-- After a call that removes hooks none runs that was installed before. -/
  cleared : ∀ before rest, calls = before ++ .clearInterrupt :: rest →
    ∀ i < before.length, runs i calls = runs i before
  /-- A control is cancelled if some call has cancelled it. -/
  cancelled : (({} : ScanControl H).afterCalls calls).cancelled = true ↔ .cancel ∈ calls
  /-- It stays so whatever calls follow. -/
  stays : ∀ more, (({} : ScanControl H).afterCalls calls).cancelled = true →
    (({} : ScanControl H).afterCalls (calls ++ more)).cancelled = true

/-- **How often hooks run.** Whatever calls are made to a control and in whatever order, each hook
runs once if the control is cancelled when it is installed, and once for each cancellation while it
is installed; so none is missed, none runs unless the control is cancelled, none runs after hooks
have been removed, and a control once cancelled stays so. -/
theorem hooks_counted {H : Type} (calls : List (ControlCall H)) : HooksCounted calls := by
  refine ⟨?_, ?_, fun i h => runs_of_getElem?, ?_, ?_, ?_, cancelled_new_iff calls, ?_⟩
  · have hmap := ran_map Prod.snd ({} : ScanControl (Nat × H)) (numbered 0 calls)
    rw [map_numbered] at hmap
    exact hmap.symm
  · intro p hp
    rcases mem_ran hp with hhook | hmem
    · cases hhook
    · exact (mem_numbered hmem).2
  · intro i h hget hsome
    rw [runs_of_getElem? hget]
    rcases hsome with hbefore | hwhile
    · rw [if_pos ((cancelled_new_iff _).2 hbefore)]
      omega
    · have hpos : 0 < cancelsWhileInstalled (calls.drop (i + 1)) :=
        List.countP_pos_iff.2 ⟨_, hwhile, rfl⟩
      omega
  · exact fun hnone => ran_eq_nil rfl hnone
  · rintro before rest rfl i hi
    exact runs_of_ended rfl hi
  · intro more hyes
    exact (cancelled_new_iff _).2 (List.mem_append_left more ((cancelled_new_iff calls).1 hyes))

/-- Calls by which a hook is installed, run by two cancellations and removed before a third, then
installed again on the cancelled control, and replaced by another. -/
def sampleCalls : List (ControlCall Nat) :=
  [.setInterrupt 1, .cancel, .cancel, .clearInterrupt, .cancel, .setInterrupt 1, .setInterrupt 2,
    .cancel, .clearInterrupt, .cancel]

/-- The runs of the three installations: two, one and two. -/
theorem installed_again_counted :
    runs 0 sampleCalls = 2 ∧ runs 5 sampleCalls = 1 ∧ runs 6 sampleCalls = 2 := by
  have hcounted := hooks_counted sampleCalls
  exact ⟨hcounted.counted 0 1 rfl, hcounted.counted 5 1 rfl, hcounted.counted 6 2 rfl⟩

end SilentScan
