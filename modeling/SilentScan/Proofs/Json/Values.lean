/-
Values, all the way down.

* `Json.ind`: what holds of a value once it holds of its parts holds of every value;
* `Json.Sound`: that all numbers inside a value are ones that can be read;
* `Json.nesting`: how deep arrays and objects nest;
* `Json.ascending_sortFields`, `Json.sortFields_of_ascending`: fields in order;
* `Json.lookup_sortFields`: of fields of one name the last one is kept.
-/
import Mathlib.Data.String.Basic
import Mathlib.Tactic.Common
import SilentScan.Json.Value

namespace SilentScan

/-- That a number is one that can be read: whole within 64 bits, or finite. -/
def Number.Sound : Number → Prop
  | .whole n => -0x8000_0000_0000_0000 ≤ n ∧ n ≤ 0xFFFF_FFFF_FFFF_FFFF
  | .float d => d.isFinite = true

namespace Json

/-- The induction over values. -/
@[elab_as_elim]
theorem ind {P : Json → Prop} (null : P .null) (bool : ∀ b, P (.bool b))
    (number : ∀ n, P (.number n)) (string : ∀ s, P (.string s))
    (array : ∀ items : List Json, (∀ v ∈ items, P v) → P (.array items))
    (object : ∀ fields : List (String × Json), (∀ f ∈ fields, P f.2) → P (.object fields))
    (v : Json) : P v :=
  @Json.rec P (fun items => ∀ v ∈ items, P v) (fun fields => ∀ f ∈ fields, P f.2) (fun f => P f.2)
    null bool number string array object
    (fun _ hv => absurd hv List.not_mem_nil)
    (fun _ _ hhead htail => List.forall_mem_cons.2 ⟨hhead, htail⟩)
    (fun _ hf => absurd hf List.not_mem_nil)
    (fun _ _ hhead htail => List.forall_mem_cons.2 ⟨hhead, htail⟩)
    (fun _ _ hvalue => hvalue) v

/-! ### Numbers inside a value -/

mutual
/-- That all numbers inside a value are ones that can be read. -/
def Sound : Json → Prop
  | .number n => n.Sound
  | .array items => SoundItems items
  | .object fields => SoundFields fields
  | _ => True

/-- `Sound` for the items of an array. -/
def SoundItems : List Json → Prop
  | [] => True
  | v :: rest => Sound v ∧ SoundItems rest

/-- `Sound` for the values of an object's fields. -/
def SoundFields : List (String × Json) → Prop
  | [] => True
  | (_, v) :: rest => Sound v ∧ SoundFields rest
end

lemma soundItems_iff {items : List Json} : SoundItems items ↔ ∀ v ∈ items, Sound v := by
  induction items with
  | nil => simp [SoundItems]
  | cons v items ih => rw [SoundItems, ih, List.forall_mem_cons]

lemma soundFields_iff {fields : List (String × Json)} :
    SoundFields fields ↔ ∀ f ∈ fields, Sound f.2 := by
  induction fields with
  | nil => simp [SoundFields]
  | cons f fields ih => rw [SoundFields, ih, List.forall_mem_cons]

lemma sound_array {items : List Json} : Sound (.array items) ↔ ∀ v ∈ items, Sound v := by
  rw [Sound, soundItems_iff]

lemma sound_object {fields : List (String × Json)} :
    Sound (.object fields) ↔ ∀ f ∈ fields, Sound f.2 := by
  rw [Sound, soundFields_iff]

/-! ### Depth -/

mutual
/-- How deep arrays and objects nest. -/
def nesting : Json → Nat
  | .array items => nestingItems items + 1
  | .object fields => nestingFields fields + 1
  | _ => 0

/-- How deep the items of an array nest. -/
def nestingItems : List Json → Nat
  | [] => 0
  | v :: rest => max (nesting v) (nestingItems rest)

/-- How deep the values of an object's fields nest. -/
def nestingFields : List (String × Json) → Nat
  | [] => 0
  | (_, v) :: rest => max (nesting v) (nestingFields rest)
end

lemma nestingItems_le {items : List Json} {n : Nat} :
    nestingItems items ≤ n ↔ ∀ v ∈ items, nesting v ≤ n := by
  induction items with
  | nil => simp [nestingItems]
  | cons v items ih => rw [nestingItems, Nat.max_le, ih, List.forall_mem_cons]

lemma nestingFields_le {fields : List (String × Json)} {n : Nat} :
    nestingFields fields ≤ n ↔ ∀ f ∈ fields, nesting f.2 ≤ n := by
  induction fields with
  | nil => simp [nestingFields]
  | cons f fields ih => rw [nestingFields, Nat.max_le, ih, List.forall_mem_cons]

/-! ### Order -/

lemma orderedItems_iff {items : List Json} : OrderedItems items ↔ ∀ v ∈ items, Ordered v := by
  induction items with
  | nil => simp [OrderedItems]
  | cons v items ih => rw [OrderedItems, ih, List.forall_mem_cons]

lemma orderedFields_iff {fields : List (String × Json)} :
    OrderedFields fields ↔ ∀ f ∈ fields, Ordered f.2 := by
  induction fields with
  | nil => simp [OrderedFields]
  | cons f fields ih => rw [OrderedFields, ih, List.forall_mem_cons]

lemma ordered_array {items : List Json} : Ordered (.array items) ↔ ∀ v ∈ items, Ordered v := by
  rw [Ordered, orderedItems_iff]

lemma ordered_object {fields : List (String × Json)} :
    Ordered (.object fields)
      ↔ Ascending none (fields.map (·.1)) ∧ ∀ f ∈ fields, Ordered f.2 := by
  rw [Ordered, orderedFields_iff]

lemma Ascending.weaken {bound : Option String} {keys : List String} (h : Ascending bound keys) :
    Ascending none keys := by
  cases keys with
  | nil => exact True.intro
  | cons k keys => exact ⟨by simp, h.2⟩

/-- A field put in its place leaves the others, but for one with the same key. -/
lemma mem_putField {key : String} {value : Json} {fields : List (String × Json)}
    {f : String × Json} (h : f ∈ putField key value fields) : f = (key, value) ∨ f ∈ fields := by
  induction fields with
  | nil => simpa [putField] using h
  | cons g fields ih =>
    obtain ⟨k, v⟩ := g
    rw [putField] at h
    split at h
    · exact List.mem_cons.1 h
    · split at h
      · exact (List.mem_cons.1 h).imp_right (List.mem_cons_of_mem _)
      · rcases List.mem_cons.1 h with rfl | h
        · exact .inr List.mem_cons_self
        · exact (ih h).imp_right (List.mem_cons_of_mem _)

/-- A field put in its place keeps the order. -/
lemma ascending_putField {bound : Option String} {key : String} (value : Json)
    {fields : List (String × Json)} (hkey : ∀ b ∈ bound, b < key)
    (h : Ascending bound (fields.map (·.1))) :
    Ascending bound ((putField key value fields).map (·.1)) := by
  induction fields generalizing bound with
  | nil => exact ⟨hkey, True.intro⟩
  | cons g fields ih =>
    obtain ⟨k, v⟩ := g
    rw [putField]
    split
    · exact ⟨hkey, by simpa using ‹key < k›, h.2⟩
    · split
      · subst k
        exact h
      · have hless : k < key := lt_of_le_of_ne (not_lt.1 ‹_›) (Ne.symm ‹_›)
        exact ⟨h.1, ih (by simpa using hless) h.2⟩

/-- A field with a key above all others comes last. -/
lemma putField_of_above {key : String} {value : Json} {fields : List (String × Json)}
    (h : ∀ f ∈ fields, f.1 < key) : putField key value fields = fields ++ [(key, value)] := by
  induction fields with
  | nil => rfl
  | cons g fields ih =>
    obtain ⟨hg, hfields⟩ := List.forall_mem_cons.1 h
    rw [putField, if_neg (not_lt.2 hg.le), if_neg hg.ne', ih hfields, List.cons_append]

lemma mem_sortFields {fields : List (String × Json)} {f : String × Json}
    (h : f ∈ sortFields fields) : f ∈ fields := by
  have hfold : ∀ acc, f ∈ fields.foldl (fun acc g => putField g.1 g.2 acc) acc →
      f ∈ acc ∨ f ∈ fields := by
    clear h
    induction fields with
    | nil => exact fun acc h => .inl h
    | cons g fields ih =>
      intro acc h
      rcases ih _ h with hput | hrest
      · rcases mem_putField hput with rfl | hacc
        · exact .inr List.mem_cons_self
        · exact .inl hacc
      · exact .inr (List.mem_cons_of_mem _ hrest)
  exact (hfold [] h).resolve_left List.not_mem_nil

lemma lookup_append (key : String) (fields fields' : List (String × Json)) :
    lookup key (fields ++ fields') = (lookup key fields).or (lookup key fields') := by
  induction fields with
  | nil => rfl
  | cons f fields ih =>
    rw [List.cons_append, lookup, lookup]
    split
    · rfl
    · exact ih

lemma lookup_putField (key k : String) (v : Json) (fields : List (String × Json)) :
    lookup key (putField k v fields) = if k = key then some v else lookup key fields := by
  induction fields with
  | nil => rfl
  | cons f fields ih =>
    rw [putField]
    split
    · rfl
    · split
      · subst k
        simp only [lookup]
        split <;> rfl
      · rw [lookup, lookup, ih]
        split
        · rename_i hne hkey
          rw [if_neg (hkey ▸ hne)]
        · rfl

/-- Of two fields with one key the later is looked up after sorting. -/
lemma lookup_sortFields (key : String) (fields : List (String × Json)) :
    lookup key (sortFields fields) = lookup key fields.reverse := by
  have hfold : ∀ acc, lookup key (fields.foldl (fun acc g => putField g.1 g.2 acc) acc)
      = (lookup key fields.reverse).or (lookup key acc) := by
    induction fields with
    | nil => exact fun acc => rfl
    | cons f fields ih =>
      intro acc
      rw [List.foldl_cons, ih, lookup_putField, List.reverse_cons, lookup_append, Option.or_assoc]
      simp only [lookup]
      split <;> rfl
  exact (hfold []).trans (Option.or_none)

/-- **Sorted fields** are in order. -/
lemma ascending_sortFields (fields : List (String × Json)) :
    Ascending none ((sortFields fields).map (·.1)) := by
  have hfold : ∀ acc : List (String × Json), Ascending none (acc.map (·.1)) →
      Ascending none ((fields.foldl (fun acc g => putField g.1 g.2 acc) acc).map (·.1)) := by
    induction fields with
    | nil => exact fun acc h => h
    | cons g fields ih => exact fun acc h => ih _ (ascending_putField g.2 (by simp) h)
  exact hfold [] True.intro

/-- Whatever comes after the bound is above it. -/
lemma Ascending.above {b : String} {keys : List String} (h : Ascending (some b) keys) :
    ∀ k ∈ keys, b < k := by
  induction keys generalizing b with
  | nil => simp
  | cons k keys ih =>
    have hk : b < k := h.1 b rfl
    exact List.forall_mem_cons.2 ⟨hk, fun l hl => hk.trans (ih h.2 l hl)⟩

/-- **Fields in order** are as sorting leaves them. -/
lemma sortFields_of_ascending {fields : List (String × Json)}
    (h : Ascending none (fields.map (·.1))) : sortFields fields = fields := by
  have hfold : ∀ acc : List (String × Json), (∀ f ∈ acc, ∀ g ∈ fields, f.1 < g.1) →
      fields.foldl (fun acc g => putField g.1 g.2 acc) acc = acc ++ fields := by
    induction fields with
    | nil => exact fun acc _ => (List.append_nil acc).symm
    | cons g fields ih =>
      intro acc hacc
      have hafter : ∀ f ∈ fields, g.1 < f.1 := fun f hf =>
        h.2.above f.1 (List.mem_map_of_mem hf)
      rw [List.foldl_cons, putField_of_above fun f hf => hacc f hf g List.mem_cons_self,
        ih h.2.weaken, List.append_assoc, List.singleton_append]
      intro f hf e he
      rcases List.mem_append.1 hf with hf | hf
      · exact hacc f hf e (List.mem_cons_of_mem _ he)
      · obtain rfl := List.mem_singleton.1 hf
        exact hafter e he
  exact hfold [] (by simp)

end Json
end SilentScan
