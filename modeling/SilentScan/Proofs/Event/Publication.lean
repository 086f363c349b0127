/-
Publications on a bus whose listeners use it.

A listener that is told of an event may register others, remove some and publish events of its own
before it is done. What happens is written down in order: registrations, removals, and for every
publication its beginning, those who are told and its return. However the publications are nested,
each tells just those who were registered when it began, in their order and once, and then returns.

* `BusEntry`, `Bus.replay`: the record, and the bus as it stood after some of it;
* `BusCourse.step`, `BusCourse.run`: a run that is recorded;
* `BusCourse.run_state`: the record does not touch the run;
* `BusCourse.Kept`, `Kept.step`: what holds between the record and the work still to be done;
* `Recorded`, `publications_recorded`: what the record of a run tells.
-/
import Mathlib.Data.List.Duplicate
import Mathlib.Tactic.Common
import SilentScan.Event.Bus

namespace SilentScan

/-- What is recorded of a bus. Publications have numbers. -/
inductive BusEntry (L E : Type) where
  /-- A listener has been registered under an id. -/
  | registered (id : Nat) (l : L)
  /-- A registration was to be removed; it was there or not. -/
  | unregistered (id : Nat) (found : Bool)
  /-- A publication has begun. -/
  | published (number : Nat) (e : E)
  /-- A listener has been told, because of a publication. -/
  | told (number id : Nat) (l : L) (e : E)
  /-- A publication has returned. -/
  | returned (number : Nat)

namespace BusEntry

variable {L E : Type}

/-- Whether somebody is told because of a publication, or it returns. -/
def ofPublication (number : Nat) : BusEntry L E → Bool
  | .told k _ _ _ | .returned k => k == number
  | _ => false

/-- The number of the publication. -/
def number? : BusEntry L E → Option Nat
  | .published k _ | .told k _ _ _ | .returned k => some k
  | _ => none

/-- The id under which a listener has been registered. -/
def newId? : BusEntry L E → Option Nat
  | .registered id _ => some id
  | _ => none

/-- The listener told because of a publication. -/
def listener? (number : Nat) : BusEntry L E → Option L
  | .told k _ l _ => if k = number then some l else none
  | _ => none

/-- That an entry tells what the bus did, as it stood. -/
def Agrees (b : Bus L) : BusEntry L E → Prop
  | .registered id l => id = (b.register l).1
  | .unregistered id found => found = (b.unregister id).1
  | _ => True

end BusEntry

namespace Bus

variable {L E : Type}

/-- The bus after what an entry tells. -/
def after (b : Bus L) : BusEntry L E → Bus L
  | .registered _ l => (b.register l).2
  | .unregistered id _ => (b.unregister id).2
  | _ => b

/-- The bus after what some entries tell. -/
def replay (b : Bus L) (entries : List (BusEntry L E)) : Bus L :=
  entries.foldl after b

/-- That entries tell what the bus did, one after another. -/
def Fits : Bus L → List (BusEntry L E) → Prop
  | _, [] => True
  | b, entry :: rest => entry.Agrees b ∧ (b.after entry).Fits rest

/-- The entries of a publication to all who are registered. -/
def publication (b : Bus L) (number : Nat) (e : E) : List (BusEntry L E) :=
  b.recipients.map (fun (id, l) => .told number id l e) ++ [.returned number]

/-- That no id stands twice, and that those given out next are new. -/
structure Sound (b : Bus L) : Prop where
  nodup : (b.listeners.map (·.1)).Nodup
  below : ∀ p ∈ b.listeners, p.1 < b.nextId

end Bus

/-! ### Runs that are recorded -/

/-- Work still to be done: telling a listener because of a publication, or going on with a reaction,
perhaps after a publication of its own. -/
inductive BusTask (L E S : Type) where
  | deliver (number id : Nat) (l : L) (e : E)
  | resume (after : Option Nat) (r : Reaction L E S)

namespace BusTask

variable {L E S : Type}

/-- The work without the record. -/
def work : BusTask L E S → Work L E S
  | .deliver _ id l e => .deliver id l e
  | .resume _ r => .resume r

/-- Work with the number of the publication that it is done for, and of the one that returns. -/
def of (number : Nat) (after : Option Nat) : Work L E S → BusTask L E S
  | .deliver id l e => .deliver number id l e
  | .resume r => .resume after r

/-- What a publication still waits for. -/
def due : BusTask L E S → List (BusEntry L E)
  | .deliver k id l e => [.told k id l e]
  | .resume after _ => after.toList.map .returned

end BusTask

/-- A bus with the state that listeners work on, the record, and the number of publications. -/
structure BusCourse (L E S : Type) where
  state : BusState L S
  entries : List (BusEntry L E) := []
  publications : Nat := 0

namespace BusCourse

variable {L E S : Type}

/-- What is done with the bus first when a reaction goes on. -/
def deed (t : BusCourse L E S) : Reaction L E S → List (BusEntry L E)
  | .register l _ => [.registered (t.state.bus.register l).1 l]
  | .unregister id _ => [.unregistered id (t.state.bus.unregister id).1]
  | .publish e _ => [.published t.publications e]
  | _ => []

/-- What is recorded of a piece of work. -/
def noted (t : BusCourse L E S) : BusTask L E S → List (BusEntry L E)
  | .deliver k id l e => [.told k id l e]
  | .resume after r => after.toList.map .returned ++ t.deed r

/-- The number of the publication that a piece of work begins. -/
def begun? (t : BusCourse L E S) : BusTask L E S → Option Nat
  | .resume _ (.publish _ _) => some t.publications
  | _ => none

/-- Does one piece of work and records it. -/
def step (react : L → E → Reaction L E S) (t : BusCourse L E S) (task : BusTask L E S) :
    BusCourse L E S × List (BusTask L E S) :=
  let (state, more) := t.state.step react task.work
  ({ state, entries := t.entries ++ t.noted task
     publications := t.publications + (t.begun? task).toList.length },
    more.map (BusTask.of t.publications (t.begun? task)))

/-- Does all the work, the first piece first, and records it. -/
def run (react : L → E → Reaction L E S) :
    (steps : Nat) → BusCourse L E S → List (BusTask L E S) → Option (BusCourse L E S)
  | _, t, [] => some t
  | 0, _, _ :: _ => none
  | steps + 1, t, task :: rest =>
    let (t, more) := t.step react task
    run react steps t (more ++ rest)

variable (react : L → E → Reaction L E S)

lemma map_work_of (number : Nat) (after : Option Nat) (more : List (Work L E S)) :
    (more.map (BusTask.of number after)).map BusTask.work = more := by
  rw [List.map_map]
  refine (List.map_congr_left fun w _ => ?_).trans (List.map_id more)
  cases w <;> rfl

/-- **The record does not touch the run.** -/
lemma run_state (steps : Nat) (t : BusCourse L E S) (tasks : List (BusTask L E S)) :
    (t.run react steps tasks).map (·.state)
      = t.state.run react steps (tasks.map BusTask.work) := by
  induction steps generalizing t tasks with
  | zero => cases tasks <;> rfl
  | succ steps ih =>
    cases tasks with
    | nil => rfl
    | cons task rest =>
      simp only [run, step, List.map_cons, BusState.run, ih, List.map_append, map_work_of]

end BusCourse

/-! ### The bus over the record -/

namespace Bus

variable {L E : Type} {b : Bus L}

lemma replay_append (b : Bus L) (entries more : List (BusEntry L E)) :
    b.replay (entries ++ more) = (b.replay entries).replay more :=
  List.foldl_append

lemma fits_append (b : Bus L) (entries more : List (BusEntry L E)) :
    b.Fits (entries ++ more) ↔ b.Fits entries ∧ (b.replay entries).Fits more := by
  induction entries generalizing b with
  | nil => exact (and_iff_right trivial).symm
  | cons entry entries ih =>
    rw [List.cons_append, Fits, Fits, ih, and_assoc]
    rfl

lemma nextId_le_after (b : Bus L) (entry : BusEntry L E) :
    b.nextId ≤ (b.after entry).nextId := by
  cases entry with
  | registered id l => exact Nat.le_succ _
  | _ => exact Nat.le_refl _

/-- An id that has been given out is given to no other listener. -/
lemma mem_after {entry : BusEntry L E} {id : Nat} {l : L} (hid : id < b.nextId)
    (h : (id, l) ∈ (b.after entry).listeners) : (id, l) ∈ b.listeners := by
  cases entry with
  | registered id' l' =>
    rcases List.mem_append.1 h with h | h
    · exact h
    · obtain rfl := congrArg Prod.fst (List.mem_singleton.1 h)
      exact absurd hid (Nat.lt_irrefl _)
  | unregistered id' found => exact (List.mem_filter.1 h).1
  | _ => exact h

lemma Sound.after (sound : b.Sound) (entry : BusEntry L E) : (b.after entry).Sound := by
  cases entry with
  | registered id l =>
    refine ⟨?_, fun p hp => ?_⟩
    · have hnew : b.nextId ∉ b.listeners.map (·.1) := fun hmem => by
        obtain ⟨p, hp, hid⟩ := List.mem_map.1 hmem
        exact absurd (hid ▸ sound.below p hp) (Nat.lt_irrefl _)
      simpa [Bus.after, register] using List.nodup_append.2
        ⟨sound.nodup, List.nodup_singleton _, fun i hi j hj => by
          rw [List.mem_singleton.1 hj]
          exact fun heq => hnew (heq ▸ hi)⟩
    · rcases List.mem_append.1 hp with hp | hp
      · exact Nat.lt_succ_of_lt (sound.below p hp)
      · rw [List.mem_singleton.1 hp]
        exact Nat.lt_succ_self _
  | unregistered id found =>
    exact ⟨sound.nodup.sublist (List.Sublist.map _ List.filter_sublist),
      fun p hp => sound.below p (List.mem_filter.1 hp).1⟩
  | _ => exact sound

lemma nextId_le_replay (b : Bus L) (entries : List (BusEntry L E)) :
    b.nextId ≤ (b.replay entries).nextId := by
  induction entries generalizing b with
  | nil => exact Nat.le_refl _
  | cons entry entries ih => exact Nat.le_trans (b.nextId_le_after entry) (ih _)

lemma mem_replay {entries : List (BusEntry L E)} {id : Nat} {l : L} (hid : id < b.nextId)
    (h : (id, l) ∈ (b.replay entries).listeners) : (id, l) ∈ b.listeners := by
  induction entries generalizing b with
  | nil => exact h
  | cons entry entries ih =>
    exact mem_after hid (ih (Nat.lt_of_lt_of_le hid (b.nextId_le_after entry)) h)

lemma Sound.replay (sound : b.Sound) (entries : List (BusEntry L E)) :
    (b.replay entries).Sound := by
  induction entries generalizing b with
  | nil => exact sound
  | cons entry entries ih => exact ih (sound.after entry)

/-- Ids that are given out ascend from the next one of the bus on. -/
lemma Fits.newIds {entries : List (BusEntry L E)} (fits : b.Fits entries) :
    (entries.filterMap BusEntry.newId?).Pairwise (· < ·)
      ∧ ∀ id ∈ entries.filterMap BusEntry.newId?, b.nextId ≤ id := by
  induction entries generalizing b with
  | nil => exact ⟨List.Pairwise.nil, fun _ h => absurd h List.not_mem_nil⟩
  | cons entry entries ih =>
    obtain ⟨hagrees, fits⟩ := fits
    obtain ⟨hascend, habove⟩ := ih fits
    cases entry with
    | registered id l =>
      obtain rfl : id = b.nextId := hagrees
      refine ⟨List.pairwise_cons.2 ⟨fun id hid => habove id hid, hascend⟩, fun id hid => ?_⟩
      rcases List.mem_cons.1 hid with rfl | hid
      · exact Nat.le_refl _
      · exact Nat.le_trans (Nat.le_succ _) (habove id hid)
    | _ => exact ⟨hascend, habove⟩

end Bus

/-! ### What a step does -/

namespace BusEntry

variable {L E : Type} {entry : BusEntry L E}

lemma number?_of_ofPublication {k : Nat} (h : entry.ofPublication k = true) :
    entry.number? = some k := by
  cases entry <;> simp_all [ofPublication, number?]

end BusEntry

lemma Bus.mem_publication {L E : Type} {b : Bus L} {k : Nat} {e : E} {entry : BusEntry L E} :
    entry ∈ b.publication k e
      ↔ (∃ p ∈ b.listeners, entry = .told k p.1 p.2 e) ∨ entry = .returned k := by
  simp [publication, recipients, eq_comm]

lemma Bus.filter_publication {L E : Type} (b : Bus L) (k : Nat) (e : E) :
    (b.publication k e).filter (·.ofPublication k) = b.publication k e := by
  refine List.filter_eq_self.2 fun entry hentry => ?_
  rcases Bus.mem_publication.1 hentry with ⟨p, -, rfl⟩ | rfl <;> simp [BusEntry.ofPublication]

namespace BusCourse

variable {L E S : Type} (react : L → E → Reaction L E S)

/-- The work of a publication is to tell all who are registered, and to return. -/
lemma due_deliveries (s : BusState L S) (number : Nat) (e : E) (next : Reaction L E S) :
    ((s.deliveries e ++ [Work.resume next]).map
        (BusTask.of number (some number))).flatMap BusTask.due = s.bus.publication number e := by
  rw [BusState.deliveries, Bus.publication, List.map_append, List.flatMap_append]
  congr 1
  induction s.bus.recipients with
  | nil => rfl
  | cons p rest ih => exact congrArg (.told number p.1 p.2 e :: ·) ih

/-- What is due does nothing to the bus. -/
lemma replay_due (b : Bus L) (task : BusTask L E S) :
    b.Fits task.due ∧ b.replay task.due = b := by
  cases task with
  | deliver k id l e => exact ⟨⟨trivial, trivial⟩, rfl⟩
  | resume after r =>
    cases after with
    | none => exact ⟨trivial, rfl⟩
    | some k => exact ⟨⟨trivial, trivial⟩, rfl⟩

lemma published_not_mem_due {k : Nat} {e : E} {task : BusTask L E S} :
    .published k e ∉ task.due := by
  cases task <;> simp [BusTask.due]

/-- What a step records beyond what was due, and what is due because of it, with the number of the
publications then: either nothing that has to do with a publication, or the beginning of one and all
that it waits for. -/
inductive Adds (t : BusCourse L E S) : (recorded due : List (BusEntry L E)) → Nat → Prop
  | quiet (recorded : List (BusEntry L E)) (h : ∀ entry ∈ recorded, entry.number? = none) :
    t.Adds recorded [] t.publications
  | publication (e : E) : t.Adds [.published t.publications e]
      (t.state.bus.publication t.publications e) (t.publications + 1)

/-- **What a step does**: what was due is recorded first, and the bus does what is recorded. -/
lemma step_adds (t : BusCourse L E S) (task : BusTask L E S) :
    ∃ recorded,
      (t.step react task).1.entries = t.entries ++ (task.due ++ recorded)
        ∧ t.Adds recorded ((t.step react task).2.flatMap BusTask.due)
            (t.step react task).1.publications
        ∧ t.state.bus.Fits recorded
        ∧ (t.step react task).1.state.bus = t.state.bus.replay recorded := by
  cases task with
  | deliver k id l e => exact ⟨[], rfl, .quiet [] (by simp), trivial, rfl⟩
  | resume after r =>
    refine ⟨t.deed r, rfl, ?_, ?_, ?_⟩
    · cases r with
      | publish e next =>
        have hdue : (t.step react (.resume after (.publish e next))).2.flatMap BusTask.due
            = t.state.bus.publication t.publications e := due_deliveries _ _ _ _
        rw [hdue]
        exact .publication e
      | _ => exact .quiet _ (by simp [deed, BusEntry.number?])
    · cases r <;> simp [deed, Bus.Fits, BusEntry.Agrees]
    · cases r <;> rfl

/-- What is added has to do with no publication but a new one. -/
lemma Adds.number {t : BusCourse L E S} {recorded due : List (BusEntry L E)} {n : Nat}
    (adds : t.Adds recorded due n) : t.publications ≤ n
      ∧ ∀ entry ∈ recorded ++ due, ∀ k ∈ entry.number?, t.publications ≤ k ∧ k < n := by
  cases adds with
  | quiet _ h =>
    refine ⟨Nat.le_refl _, fun entry hentry k hk => ?_⟩
    rw [List.append_nil] at hentry
    rw [h entry hentry] at hk
    cases hk
  | publication e =>
    refine ⟨Nat.le_succ _, fun entry hentry k hk => ?_⟩
    have hnumber : entry.number? = some t.publications := by
      rcases List.mem_cons.1 hentry with rfl | hentry
      · rfl
      · rcases Bus.mem_publication.1 hentry with ⟨p, -, rfl⟩ | rfl <;> rfl
    obtain rfl := Option.some.inj (hnumber.symm.trans hk)
    exact ⟨Nat.le_refl _, Nat.lt_succ_self _⟩

/-- Nobody is told but because of a publication that begins. -/
lemma Adds.begun {t : BusCourse L E S} {recorded due : List (BusEntry L E)} {n k id : Nat} {l : L}
    {e : E} (adds : t.Adds recorded due n) (h : .told k id l e ∈ recorded ++ due) :
    .published k e ∈ recorded := by
  cases adds with
  | quiet _ hquiet =>
    rw [List.append_nil] at h
    cases hquiet _ h
  | publication e' =>
    rcases List.mem_cons.1 h with heq | h
    · cases heq
    · rcases Bus.mem_publication.1 h with ⟨p, -, heq⟩ | heq
      · cases heq
        exact List.mem_singleton_self _
      · cases heq

/-- A publication that begins is the newest one, and all of it is due. -/
lemma Adds.of_published {t : BusCourse L E S} {recorded due : List (BusEntry L E)} {n k : Nat}
    {e : E} (adds : t.Adds recorded due n) (h : .published k e ∈ recorded) :
    k = t.publications ∧ recorded = [.published k e] ∧ due = t.state.bus.publication k e := by
  cases adds with
  | quiet _ hquiet => cases hquiet _ h
  | publication e' =>
    cases List.mem_singleton.1 h
    exact ⟨rfl, rfl, rfl⟩

/-- What holds between the record and the work still to be done: the record tells what the bus did,
nobody is told but because of a publication that has begun, and for each of these the record,
together with what is due, has all who were registered when it began, and its return. -/
structure Kept (b : Bus L) (t : BusCourse L E S) (tasks : List (BusTask L E S)) : Prop where
  bus : t.state.bus = b.replay t.entries
  fits : b.Fits t.entries
  below : ∀ entry ∈ t.entries ++ tasks.flatMap BusTask.due, ∀ k ∈ entry.number?,
    k < t.publications
  begun : ∀ k id l e, .told k id l e ∈ t.entries ++ tasks.flatMap BusTask.due →
    .published k e ∈ t.entries
  told : ∀ before k e rest, t.entries = before ++ .published k e :: rest →
    (∀ entry ∈ before, entry.ofPublication k = false)
      ∧ (rest ++ tasks.flatMap BusTask.due).filter (·.ofPublication k)
        = (b.replay before).publication k e

lemma Kept.start (s : BusState L S) (r : Reaction L E S) :
    Kept s.bus { state := s } [.resume none r] where
  bus := rfl
  fits := trivial
  below entry hentry := absurd hentry (by simp [BusTask.due])
  begun k id l e h := absurd h (by simp [BusTask.due])
  told before k e rest h := by simp at h

/-- An entry that is not among the last ones stands among the first ones. -/
lemma split_of_not_mem {α : Type} {first last before rest : List α} {a : α}
    (h : first ++ last = before ++ a :: rest) (hnot : a ∉ last) :
    ∃ middle, first = before ++ a :: middle ∧ rest = middle ++ last := by
  rcases List.append_eq_append_iff.1 h with ⟨between, rfl, hlast⟩ | ⟨between, rfl, hrest⟩
  · exact absurd (hlast ▸ List.mem_append_right _ List.mem_cons_self) hnot
  · cases between with
    | nil =>
      rw [List.nil_append] at hrest
      exact absurd (hrest ▸ List.mem_cons_self) hnot
    | cons c between =>
      obtain ⟨rfl, rfl⟩ := List.cons.inj hrest
      exact ⟨between, rfl, rfl⟩

/-- An entry that is not among the first ones stands behind them. -/
lemma split_last {α : Type} {first before rest : List α} {a : α}
    (h : first ++ [a] = before ++ a :: rest) (hnot : a ∉ first) : before = first ∧ rest = [] := by
  rcases List.append_eq_append_iff.1 h with ⟨between, rfl, hlast⟩ | ⟨between, rfl, hrest⟩
  · cases between with
    | nil => exact ⟨List.append_nil _, (List.cons.inj hlast).2.symm⟩
    | cons c between => simp at hlast
  · cases between with
    | nil => exact ⟨(List.append_nil _).symm, (List.cons.inj hrest).2⟩
    | cons c between =>
      obtain ⟨rfl, -⟩ := List.cons.inj hrest
      exact absurd (List.mem_append_right _ List.mem_cons_self) hnot

/-- What stands in a record or is due has nothing to do with the next publication. -/
lemma Kept.ofPublication_next {b : Bus L} {t : BusCourse L E S} {tasks : List (BusTask L E S)}
    (kept : Kept b t tasks) {entry : BusEntry L E}
    (h : entry ∈ t.entries ++ tasks.flatMap BusTask.due) :
    entry.ofPublication t.publications = false := by
  rw [Bool.eq_false_iff]
  intro hof
  exact Nat.lt_irrefl _ (kept.below entry h _ (BusEntry.number?_of_ofPublication hof))

/-- What is added has nothing to do with a publication that has begun before. -/
lemma Adds.ofPublication_older {t : BusCourse L E S} {recorded due : List (BusEntry L E)}
    {n k : Nat} (adds : t.Adds recorded due n) (hk : k < t.publications) {entry : BusEntry L E}
    (h : entry ∈ recorded ++ due) : entry.ofPublication k = false := by
  rw [Bool.eq_false_iff]
  intro hof
  exact Nat.not_le_of_lt hk (adds.number.2 entry h k (BusEntry.number?_of_ofPublication hof)).1

/-- A publication that has just begun: nothing has been recorded of it, and all of it is due. -/
lemma Kept.told_new {b : Bus L} {t : BusCourse L E S} {task : BusTask L E S}
    {rest : List (BusTask L E S)} (kept : Kept b t (task :: rest)) {e : E}
    {before after : List (BusEntry L E)}
    (h : t.entries ++ (task.due ++ [.published t.publications e])
      = before ++ .published t.publications e :: after) :
    (∀ entry ∈ before, entry.ofPublication t.publications = false)
      ∧ (after ++ (t.state.bus.publication t.publications e ++ rest.flatMap BusTask.due)).filter
          (·.ofPublication t.publications) = (b.replay before).publication t.publications e := by
  have hmem : ∀ entry, entry ∈ t.entries ++ task.due ∨ entry ∈ rest.flatMap BusTask.due →
      entry ∈ t.entries ++ (task :: rest).flatMap BusTask.due := by
    intro entry hentry
    rw [List.flatMap_cons, ← List.append_assoc]
    exact List.mem_append.2 hentry
  have hfirst : .published t.publications e ∉ t.entries ++ task.due := fun hpublished =>
    Nat.lt_irrefl _ (kept.below _ (hmem _ (Or.inl hpublished)) _ rfl)
  rw [← List.append_assoc] at h
  obtain ⟨rfl, rfl⟩ := split_last h hfirst
  have hrest : (rest.flatMap BusTask.due).filter (·.ofPublication t.publications) = [] :=
    List.filter_eq_nil_iff.2 fun entry hentry => by
      simp [kept.ofPublication_next (hmem entry (Or.inr hentry))]
  refine ⟨fun entry hentry => kept.ofPublication_next (hmem entry (Or.inl hentry)), ?_⟩
  rw [List.nil_append, List.filter_append, hrest, Bus.filter_publication, List.append_nil,
    Bus.replay_append, ← kept.bus, (replay_due t.state.bus task).2]

/-- A publication that has begun before: what is added has nothing to do with it. -/
lemma Kept.told_old {b : Bus L} {t : BusCourse L E S} {task : BusTask L E S}
    {rest : List (BusTask L E S)} (kept : Kept b t (task :: rest))
    {recorded due : List (BusEntry L E)} {n k : Nat} {e : E} (adds : t.Adds recorded due n)
    (hold : .published k e ∉ recorded) {before after : List (BusEntry L E)}
    (h : t.entries ++ (task.due ++ recorded) = before ++ .published k e :: after) :
    (∀ entry ∈ before, entry.ofPublication k = false)
      ∧ (after ++ (due ++ rest.flatMap BusTask.due)).filter (·.ofPublication k)
        = (b.replay before).publication k e := by
  have hnot : .published k e ∉ task.due ++ recorded := fun hmem =>
    (List.mem_append.1 hmem).elim published_not_mem_due hold
  obtain ⟨middle, hbefore, rfl⟩ := split_of_not_mem h hnot
  obtain ⟨hunheard, htold⟩ := kept.told before k e middle hbefore
  have hk : k < t.publications := kept.below (.published k e)
    (List.mem_append_left _ (hbefore ▸ List.mem_append_right _ List.mem_cons_self)) k rfl
  have hrecorded : recorded.filter (·.ofPublication k) = [] :=
    List.filter_eq_nil_iff.2 fun entry hentry => by
      simp [adds.ofPublication_older hk (List.mem_append_left _ hentry)]
  have hdue : due.filter (·.ofPublication k) = [] :=
    List.filter_eq_nil_iff.2 fun entry hentry => by
      simp [adds.ofPublication_older hk (List.mem_append_right _ hentry)]
  refine ⟨hunheard, ?_⟩
  rw [← htold, List.flatMap_cons]
  simp only [List.filter_append, hrecorded, hdue, List.nil_append, List.append_assoc]

/-- An entry after a step stood in the record or was due before, or is new. -/
lemma mem_before_or_new {α : Type} {a : α} {old due recorded more rest : List α}
    (h : a ∈ (old ++ (due ++ recorded)) ++ (more ++ rest)) :
    a ∈ old ++ (due ++ rest) ∨ a ∈ recorded ++ more := by
  simp only [List.mem_append] at h ⊢
  tauto

/-- **Every step keeps it.** -/
lemma Kept.step {b : Bus L} {t : BusCourse L E S} {task : BusTask L E S}
    {rest : List (BusTask L E S)} (kept : Kept b t (task :: rest)) :
    Kept b (t.step react task).1 ((t.step react task).2 ++ rest) := by
  obtain ⟨recorded, hentries, hadds, hfits, hbus⟩ := step_adds react t task
  obtain ⟨hmore, hnumber⟩ := hadds.number
  obtain ⟨hdue, hreplay⟩ := replay_due (t.state.bus) task
  refine ⟨?_, ?_, fun entry hentry k hk => ?_, fun k id l e h => ?_, fun before k e after h => ?_⟩
  · rw [hbus, hentries, Bus.replay_append, ← kept.bus, Bus.replay_append, hreplay]
  · rw [hentries, Bus.fits_append, ← kept.bus, Bus.fits_append, hreplay]
    exact ⟨kept.fits, hdue, hfits⟩
  · rw [hentries, List.flatMap_append] at hentry
    rcases mem_before_or_new hentry with hold | hnew
    · exact Nat.lt_of_lt_of_le (kept.below entry (by rwa [List.flatMap_cons]) k hk) hmore
    · exact (hnumber entry hnew k hk).2
  · rw [hentries, List.flatMap_append] at h
    rw [hentries]
    rcases mem_before_or_new h with hold | hnew
    · exact List.mem_append_left _ (kept.begun k id l e (by rwa [List.flatMap_cons]))
    · exact List.mem_append_right _ (List.mem_append_right _ (hadds.begun hnew))
  · rw [hentries] at h
    rw [List.flatMap_append]
    by_cases hnew : .published k e ∈ recorded
    · obtain ⟨rfl, rfl, hall⟩ := hadds.of_published hnew
      rw [hall]
      exact kept.told_new h
    · exact kept.told_old hadds hnew h

/-- **A run keeps it** to its end, where nothing is due. -/
lemma Kept.run {b : Bus L} {steps : Nat} {t t' : BusCourse L E S} {tasks : List (BusTask L E S)}
    (kept : Kept b t tasks) (h : t.run react steps tasks = some t') : Kept b t' [] := by
  induction steps generalizing t tasks with
  | zero =>
    cases tasks with
    | nil => exact Option.some.inj h ▸ kept
    | cons task rest => cases h
  | succ steps ih =>
    cases tasks with
    | nil => exact Option.some.inj h ▸ kept
    | cons task rest => exact ih (kept.step react) h

end BusCourse

/-! ### What the record of a run tells -/

/-- Two different entries of a list stand in one order or the other. -/
lemma split_two {α : Type} {before rest before' rest' : List α} {a c : α} (hne : a ≠ c)
    (h : before ++ a :: rest = before' ++ c :: rest') :
    (∃ middle, before' = before ++ a :: middle ∧ rest = middle ++ c :: rest')
      ∨ ∃ middle, before = before' ++ c :: middle ∧ rest' = middle ++ a :: rest := by
  rcases List.append_eq_append_iff.1 h with ⟨between, rfl, hrest⟩ | ⟨between, rfl, hrest⟩
  · cases between with
    | nil => exact absurd (List.cons.inj hrest).1 hne
    | cons d between =>
      obtain ⟨rfl, rfl⟩ := List.cons.inj hrest
      exact Or.inl ⟨between, rfl, rfl⟩
  · cases between with
    | nil => exact absurd (List.cons.inj hrest).1.symm hne
    | cons d between =>
      obtain ⟨rfl, rfl⟩ := List.cons.inj hrest
      exact Or.inr ⟨between, rfl, rfl⟩

/-- What stands under two ids stands there twice. -/
lemma duplicate_of_two_ids {L : Type} {listeners : List (Nat × L)} {i j : Nat} {l : L}
    (hne : i ≠ j) (hi : (i, l) ∈ listeners) (hj : (j, l) ∈ listeners) :
    (listeners.map (·.2)).Duplicate l := by
  induction listeners with
  | nil => cases hi
  | cons p rest ih =>
    rcases List.mem_cons.1 hi with rfl | hi'
    · rcases List.mem_cons.1 hj with heq | hj'
      · exact absurd (congrArg Prod.fst heq).symm hne
      · exact (List.mem_map_of_mem hj' : l ∈ rest.map (·.2)).duplicate_cons_self
    · rcases List.mem_cons.1 hj with rfl | hj'
      · exact (List.mem_map_of_mem hi' : l ∈ rest.map (·.2)).duplicate_cons_self
      · exact (ih hi' hj').duplicate_cons _

namespace Bus

variable {L E : Type}

/-- What the record of a complete run on a bus tells. -/
structure Recorded (b : Bus L) (entries : List (BusEntry L E)) : Prop where
  /-- A publication tells all who are registered when it begins, in their order and once for each
  registration, then it returns; nobody else is told because of it. -/
  told : ∀ before k e rest, entries = before ++ .published k e :: rest →
    rest.filter (·.ofPublication k)
        = (b.replay before).recipients.map (fun (id, l) => .told k id l e) ++ [.returned k]
      ∧ (∀ entry ∈ before, entry.ofPublication k = false)
      ∧ ((b.replay before).recipients.map (·.1)).Nodup
  /-- Nobody is told but because of a publication that has begun. -/
  begun : ∀ before k id l e rest, entries = before ++ .told k id l e :: rest →
    .published k e ∈ before
  /-- A registration that is removed was there, all others stay, and it is told of no publication
  that begins later. -/
  removed : ∀ before id found rest, entries = before ++ .unregistered id found :: rest →
    (found = true ↔ ∃ l, (id, l) ∈ (b.replay before).listeners)
      ∧ (b.replay (before ++ [.unregistered id found])).listeners
        = (b.replay before).listeners.filter (·.1 != id)
      ∧ (found = true → ∀ k e, .published k e ∈ rest → ∀ l e', .told k id l e' ∉ entries)
  /-- A registration that is added comes last, and is told only of publications that begin later. -/
  added : ∀ before id l rest, entries = before ++ .registered id l :: rest →
    (b.replay (before ++ [.registered id l])).listeners = (b.replay before).listeners ++ [(id, l)]
      ∧ ∀ k l' e, .told k id l' e ∈ entries → l' = l ∧ .published k e ∈ rest
  /-- Ids are not used again. -/
  ids : (entries.filterMap BusEntry.newId?).Pairwise (· < ·)
    ∧ ∀ id ∈ entries.filterMap BusEntry.newId?, b.nextId ≤ id
  /-- A listener is told as often as it is registered, so twice if it is registered twice. -/
  often : ∀ before k e rest, entries = before ++ .published k e :: rest →
    entries.filterMap (·.listener? k) = (b.replay before).listeners.map (·.2)
      ∧ ∀ i j l, i ≠ j → (i, l) ∈ (b.replay before).listeners →
        (j, l) ∈ (b.replay before).listeners →
        (entries.filterMap (·.listener? k)).Duplicate l

end Bus

namespace BusCourse.Kept

variable {L E S : Type} {b : Bus L} {t : BusCourse L E S}

/-- All that is recorded of a publication. -/
lemma publication (kept : Kept b t []) {before rest : List (BusEntry L E)} {k : Nat} {e : E}
    (h : t.entries = before ++ .published k e :: rest) :
    t.entries.filter (·.ofPublication k) = (b.replay before).publication k e := by
  obtain ⟨hunheard, htold⟩ := kept.told before k e rest h
  have hnone : before.filter (·.ofPublication k) = [] :=
    List.filter_eq_nil_iff.2 fun entry hentry => by simp [hunheard entry hentry]
  rw [List.flatMap_nil, List.append_nil] at htold
  rw [h, List.filter_append, hnone, List.nil_append, ← htold]
  rfl

/-- Who is told of a publication was registered when it began. -/
lemma registered_of_told (kept : Kept b t []) {before rest : List (BusEntry L E)} {k id : Nat}
    {l : L} {e e' : E} (h : t.entries = before ++ .published k e :: rest)
    (hmem : .told k id l e' ∈ t.entries) : (id, l) ∈ (b.replay before).listeners := by
  have hof : .told k id l e' ∈ t.entries.filter (·.ofPublication k) :=
    List.mem_filter.2 ⟨hmem, by simp [BusEntry.ofPublication]⟩
  rw [kept.publication h] at hof
  rcases Bus.mem_publication.1 hof with ⟨p, hp, heq⟩ | heq
  · cases heq
    exact hp
  · cases heq

/-- The listeners told of a publication. -/
lemma listeners_told (kept : Kept b t []) {before rest : List (BusEntry L E)} {k : Nat} {e : E}
    (h : t.entries = before ++ .published k e :: rest) :
    t.entries.filterMap (·.listener? k) = (b.replay before).listeners.map (·.2) := by
  have hfilter : ∀ entries : List (BusEntry L E), entries.filterMap (·.listener? k)
      = (entries.filter (·.ofPublication k)).filterMap (·.listener? k) := by
    intro entries
    rw [List.filterMap_filter]
    refine List.filterMap_congr fun entry _ => ?_
    cases entry <;> simp [BusEntry.listener?, BusEntry.ofPublication]
  rw [hfilter, kept.publication h, Bus.publication, Bus.recipients]
  induction (b.replay before).listeners with
  | nil => rfl
  | cons p rest ih =>
    rw [List.map_cons, List.cons_append, List.filterMap_cons, List.map_cons, ih]
    simp [BusEntry.listener?]

/-- A publication that tells somebody has begun before. -/
lemma begun_before (kept : Kept b t []) {before rest : List (BusEntry L E)} {k id : Nat} {l : L}
    {e : E} (h : t.entries = before ++ .told k id l e :: rest) : .published k e ∈ before := by
  have hmem : .told k id l e ∈ t.entries ++ ([] : List (BusTask L E S)).flatMap BusTask.due :=
    List.mem_append_left _ (h ▸ List.mem_append_right _ List.mem_cons_self)
  obtain ⟨before', rest', h'⟩ := List.append_of_mem (kept.begun k id l e hmem)
  rcases split_two (by simp) (h.symm.trans h') with ⟨middle, rfl, -⟩ | ⟨middle, rfl, -⟩
  · -- Nobody is told of a publication before it begins.
    have hunheard := (kept.told _ k e rest' h').1 (.told k id l e)
      (List.mem_append_right _ List.mem_cons_self)
    simp [BusEntry.ofPublication] at hunheard
  · exact List.mem_append_right _ List.mem_cons_self

/-- What the entry of a registration or a removal tells is what the bus did. -/
lemma agrees (kept : Kept b t []) {before rest : List (BusEntry L E)} {entry : BusEntry L E}
    (h : t.entries = before ++ entry :: rest) : entry.Agrees (b.replay before) := by
  have hfits := kept.fits
  rw [h, Bus.fits_append] at hfits
  exact hfits.2.1

/-- A registration that is removed is told of no publication that begins later. -/
lemma not_told_of_removed (kept : Kept b t []) (sound : b.Sound)
    {before rest : List (BusEntry L E)} {id : Nat} {l : L}
    (h : t.entries = before ++ .unregistered id true :: rest)
    (hthere : (id, l) ∈ (b.replay before).listeners) {k : Nat} {e : E}
    (hlater : .published k e ∈ rest) (l' : L) (e' : E) : .told k id l' e' ∉ t.entries := by
  intro htold
  obtain ⟨middle, rest', rfl⟩ := List.append_of_mem hlater
  have hsplit : t.entries
      = (before ++ .unregistered id true :: middle) ++ .published k e :: rest' := by
    rw [h, List.append_assoc, List.cons_append]
  have hmem := kept.registered_of_told hsplit htold
  rw [Bus.replay_append] at hmem
  have hid : id < ((b.replay before).after (.unregistered id true : BusEntry L E)).nextId :=
    (sound.replay before).below (id, l) hthere
  have hafter := Bus.mem_replay hid hmem
  simpa using (List.mem_filter.1 hafter).2

/-- A registration that is added is told only of publications that begin later. -/
lemma told_of_added (kept : Kept b t []) (sound : b.Sound) {before rest : List (BusEntry L E)}
    {id : Nat} {l : L} (h : t.entries = before ++ .registered id l :: rest)
    {k : Nat} {l' : L} {e : E} (htold : .told k id l' e ∈ t.entries) :
    l' = l ∧ .published k e ∈ rest := by
  obtain rfl : id = (b.replay before).nextId := kept.agrees h
  obtain ⟨before', rest', h'⟩ := List.append_of_mem
    (kept.begun k _ l' e (List.mem_append_left _ htold))
  have hmem := kept.registered_of_told h' htold
  rcases split_two (by simp) (h.symm.trans h') with ⟨middle, rfl, rfl⟩ | ⟨middle, rfl, -⟩
  · rw [Bus.replay_append] at hmem
    have hafter := Bus.mem_replay (b := (b.replay before).after
      (.registered (b.replay before).nextId l : BusEntry L E)) (Nat.lt_succ_self _) hmem
    rcases List.mem_append.1 hafter with hold | hnew
    · exact absurd ((sound.replay before).below _ hold) (Nat.lt_irrefl _)
    · exact ⟨congrArg Prod.snd (List.mem_singleton.1 hnew),
        List.mem_append_right _ List.mem_cons_self⟩
  · -- The publication began before: the id was not given out then.
    have hbelow := (sound.replay before').below _ hmem
    rw [Bus.replay_append] at hbelow
    exact absurd (Nat.lt_of_lt_of_le hbelow (Bus.nextId_le_replay _ _)) (Nat.lt_irrefl _)

/-- **What the record of a complete run tells.** -/
lemma recorded (kept : Kept b t []) (sound : b.Sound) : b.Recorded t.entries where
  told before k e rest h := by
    obtain ⟨hunheard, htold⟩ := kept.told before k e rest h
    rw [List.flatMap_nil, List.append_nil] at htold
    exact ⟨htold, hunheard, (sound.replay before).nodup⟩
  begun before k id l e rest h := kept.begun_before h
  removed before id found rest h := by
    have hfound : found = ((b.replay before).unregister id).1 := kept.agrees h
    have hthere : found = true ↔ ∃ l, (id, l) ∈ (b.replay before).listeners := by
      rw [hfound, Bus.unregister]
      simp
    refine ⟨hthere, ?_, fun hremoved k e hlater l' e' => ?_⟩
    · rw [Bus.replay_append]
      rfl
    · obtain ⟨l, hl⟩ := hthere.1 hremoved
      subst hremoved
      exact kept.not_told_of_removed sound h hl hlater l' e'
  added before id l rest h := by
    refine ⟨?_, fun k l' e htold => kept.told_of_added sound h htold⟩
    obtain rfl : id = (b.replay before).nextId := kept.agrees h
    rw [Bus.replay_append]
    rfl
  ids := kept.fits.newIds
  often before k e rest h := by
    have htold := kept.listeners_told h
    refine ⟨htold, fun i j l hne hi hj => ?_⟩
    rw [htold]
    exact duplicate_of_two_ids hne hi hj

end BusCourse.Kept

/-- **Publications on a bus whose listeners use it.** Take any run that ends, from any bus on which
ids are in order, whatever is done with it first and however listeners react. Its record leads from
the bus at the start to that at the end, on which ids are in order again, and tells of every
publication, at whatever depth, that just those registered at its beginning are told. -/
theorem publications_recorded {L E S : Type} (react : L → E → Reaction L E S) {s s' : BusState L S}
    {steps : Nat} {r : Reaction L E S} (sound : s.bus.Sound)
    (h : s.run react steps [.resume r] = some s') :
    ∃ (entries : List (BusEntry L E)) (publications : Nat),
      BusCourse.run react steps { state := s } [.resume none r]
          = some { state := s', entries, publications }
        ∧ s'.bus = s.bus.replay entries ∧ s'.bus.Sound ∧ s.bus.Recorded entries := by
  have hstate := BusCourse.run_state react steps { state := s } [.resume none r]
  rw [List.map_singleton, BusTask.work, h, Option.map_eq_some_iff] at hstate
  obtain ⟨t, ht, rfl⟩ := hstate
  have kept : BusCourse.Kept s.bus t [] := (BusCourse.Kept.start s r).run react ht
  exact ⟨t.entries, t.publications, ht, kept.bus, kept.bus ▸ sound.replay t.entries,
    kept.recorded sound⟩

/-- A bus without registrations. -/
lemma Bus.sound_empty {L : Type} : ({} : Bus L).Sound :=
  ⟨List.nodup_nil, fun _ hp => absurd hp List.not_mem_nil⟩

/-- Two listeners, one of them registered twice, and an event. -/
def sampleUse : Reaction Nat Nat Unit :=
  .register 0 fun _ => .register 1 fun _ => .register 1 fun _ => .publish 1 .done

/-- At the first event the first listener removes the second one, registers a third one and
publishes another event. -/
def sampleReaction (l e : Nat) : Reaction Nat Nat Unit :=
  if l = 0 ∧ e = 1 then .unregister 1 fun _ => .register 2 fun _ => .publish 2 .done else .done

/-- A listener changes the registrations and publishes an event while it is told of another one. -/
theorem registrations_changed_while_told :
    ({} : Bus Nat).Sound
      ∧ BusState.run sampleReaction 40 { bus := {}, state := () } [.resume sampleUse]
        = some { bus := { listeners := [(0, 0), (2, 1), (3, 2)], nextId := 4 }, state := () }
      ∧ ∃ (entries : List (BusEntry Nat Nat)) (publications : Nat),
        BusCourse.run sampleReaction 40 { state := { bus := {}, state := () } }
            [.resume none sampleUse]
          = some { state := { bus := { listeners := [(0, 0), (2, 1), (3, 2)], nextId := 4 },
                              state := () }, entries, publications }
        ∧ { listeners := [(0, 0), (2, 1), (3, 2)], nextId := 4 } = ({} : Bus Nat).replay entries
        ∧ ({ listeners := [(0, 0), (2, 1), (3, 2)], nextId := 4 } : Bus Nat).Sound
        ∧ ({} : Bus Nat).Recorded entries :=
  ⟨Bus.sound_empty, rfl, publications_recorded sampleReaction Bus.sound_empty rfl⟩

/-- The listener that is removed is still told of the first event, the one that is added only of the
second one. -/
example : (BusCourse.run sampleReaction 40 { state := { bus := {}, state := () } }
      [.resume none sampleUse]).map (fun t => t.entries.filterMap fun
        | .told number id _ e => some (number, id, e)
        | _ => none)
    = some [(0, 0, 1), (1, 0, 2), (1, 2, 2), (1, 3, 2), (0, 1, 1), (0, 2, 1)] := rfl

end SilentScan
