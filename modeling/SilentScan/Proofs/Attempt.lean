/-
Steps that may fail.

Records are read field by field, and keys are made of other keys, in steps each of which may fail.
What comes to a result has come through all of its steps, and a list is dealt with if each of its
items is.

* `exists_of_bind_eq_ok`, `exists_of_map_eq_ok`: the first step of what succeeds;
* `mapM_eq_pure`: a step for each item of a list;
* `mapM_map_eq_self`: items that are read back one by one.
-/
import Mathlib.Tactic.Common

namespace SilentScan

variable {ε α β : Type}

/-- What succeeds step by step has a first step that succeeds. -/
lemma exists_of_bind_eq_ok {x : Except ε α} {f : α → Except ε β} {b : β} (h : x >>= f = .ok b) :
    ∃ a, x = .ok a ∧ f a = .ok b := by
  cases x with
  | error e => cases h
  | ok a => exact ⟨a, rfl, h⟩

/-- A result that is made of another one has that one before it. -/
lemma exists_of_map_eq_ok {x : Except ε α} {f : α → β} {b : β} (h : x.map f = .ok b) :
    ∃ a, x = .ok a ∧ f a = b := by
  cases x with
  | error e => cases h
  | ok a => exact ⟨a, rfl, Except.ok.inj h⟩

section Lists

variable {m : Type → Type} [Monad m] [LawfulMonad m]

/-- A list is run through if every item is. -/
lemma mapM_eq_pure {f : α → m β} {g : α → β} {l : List α} (h : ∀ a ∈ l, f a = pure (g a)) :
    l.mapM f = pure (l.map g) := by
  induction l with
  | nil => rfl
  | cons a l ih =>
    obtain ⟨ha, hl⟩ := List.forall_mem_cons.1 h
    rw [List.mapM_cons, ha, ih hl, pure_bind, pure_bind, List.map_cons]

/-- What the items have been written as is read back if that of each one is. -/
lemma mapM_map_eq_self {f : β → m α} {g : α → β} {l : List α} (h : ∀ a ∈ l, f (g a) = pure a) :
    (l.map g).mapM f = pure l := by
  have hself : l.mapM (f ∘ g) = pure (l.map id) := mapM_eq_pure h
  rw [List.mapM_map, hself, List.map_id]

end Lists

end SilentScan
