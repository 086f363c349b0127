/-
Records as they are read.

A record is put together from what its decoders make of the drafts of its fields. So what every
decoder yields, whenever the numbers in its draft can be read, is all that has to be known of the
fields, and the record yields what follows from it, whether it is spelled as an object or as an
array.

* `Decoder.Yields`: what a decoder makes of drafts, with the decoders of single values;
* `RecordReader.Keeps`: what the parts of a reader keep;
* `RecordReader.Keeps.yields`: what a record yields then.
-/
import SilentScan.Json.Decode
import SilentScan.Proofs.Attempt
import SilentScan.Proofs.Json.Reading

namespace SilentScan

/-- That whatever a decoder makes of a draft whose numbers can be read is of some kind. -/
def Decoder.Yields {α : Type} (read : Decoder α) (good : α → Prop) : Prop :=
  ∀ depth d a, d.Sound → read depth d = .ok a → good a

namespace Decoder

variable {α : Type} {read : Decoder α} {good : α → Prop}

lemma Yields.mono {good' : α → Prop} (h : read.Yields good) (hgood : ∀ a, good a → good' a) :
    read.Yields good' :=
  fun depth d a hd ha => hgood a (h depth d a hd ha)

lemma yields_any (read : Decoder α) : read.Yields fun _ => True :=
  fun _ _ _ _ _ => True.intro

lemma yields_whole (name : String) (low high : Int) :
    (whole name low high).Yields fun n => low ≤ n ∧ n ≤ high := by
  intro depth d n _ hn
  unfold whole at hn
  split at hn
  · split at hn
    · cases hn
      assumption
    · cases hn
  · cases hn

lemma yields_i64 : i64.Yields fun n => Number.Sound (.whole n) :=
  (yields_whole _ _ _).mono fun n hn => ⟨hn.1, hn.2.trans (by decide)⟩

lemma yields_u32 : u32.Yields fun n => Number.Sound (.whole n) := by
  intro depth d n hd hn
  obtain ⟨i, hread, rfl⟩ := exists_of_map_eq_ok hn
  have hrange := yields_whole _ _ _ depth d i hd hread
  simp only [Number.Sound]
  omega

/-- A whole number within 64 bits is rounded to a finite one. -/
lemma isFinite_ofInt {n : Int} (hn : Number.Sound (.whole n)) :
    (Double.ofInt n).isFinite = true := by
  have hsize : n.natAbs ≤ 0xFFFF_FFFF_FFFF_FFFF := by
    have := hn.1
    have := hn.2
    omega
  have hlimit : n.natAbs + 2 ^ 970 < 2 ^ 1024 :=
    (Nat.add_le_add_right hsize _).trans_lt (by decide +kernel)
  refine Double.isFinite_ofRatio _ Nat.one_pos ?_
  rw [Nat.cast_one, div_one]
  exact Double.natCast_lt_bound hlimit

lemma yields_f64 : f64.Yields fun x => x.isFinite = true := by
  intro depth d x hd hx
  unfold f64 at hx
  split at hx
  · cases hx
    exact hd _ rfl
  · cases hx
    exact isFinite_ofInt (hd _ rfl)
  · cases hx

lemma yields_json : json.Yields Json.Sound := by
  intro depth d v hd hv
  rw [json] at hv
  split at hv
  · cases hv
    exact (Draft.value?_spec hd ‹_›).sound
  · cases hv

lemma Yields.optional (h : read.Yields good) : (optional read).Yields fun o => ∀ a ∈ o, good a := by
  intro depth d o hd ho
  unfold Decoder.optional at ho
  split at ho
  · cases ho
    simp
  · obtain ⟨a, hread, rfl⟩ := exists_of_map_eq_ok ho
    rintro b hb
    obtain rfl := Option.some.inj hb
    exact h depth d a hd hread

end Decoder

/-! ### The parts of records -/

section Parts

variable {α : Type} {read : Decoder α} {good : α → Prop} (h : read.Yields good)
include h

/-- A field that has been filled. -/
lemma Decoder.Yields.setOnce {field : String} {slot slot' : Option α} {depth : Nat} {d : Draft}
    (hd : d.Sound) (hset : setOnce field slot read depth d = .ok slot') : ∀ a ∈ slot', good a := by
  cases slot with
  | some b => cases hset
  | none =>
    obtain ⟨a, hread, rfl⟩ := exists_of_map_eq_ok hset
    rintro b hb
    obtain rfl := Option.some.inj hb
    exact h depth d a hd hread

/-- An item that may be missing. -/
lemma Decoder.Yields.next? {depth : Nat} {items items' : Items} {o : Option α}
    (hitems : ∀ d ∈ items.rest, d.Sound) (hnext : items.next? read depth = .ok (o, items')) :
    (∀ d ∈ items'.rest, d.Sound) ∧ ∀ a ∈ o, good a := by
  rw [Items.next?] at hnext
  split at hnext
  · split at hnext
    · cases hnext
      exact ⟨hitems, by simp⟩
    · cases hnext
  · rename_i d rest hrest
    rw [hrest] at hitems
    obtain ⟨hd, hitems⟩ := List.forall_mem_cons.1 hitems
    obtain ⟨a, ha, hnext⟩ := exists_of_bind_eq_ok hnext
    cases hnext
    refine ⟨hitems, ?_⟩
    rintro b hb
    obtain rfl := Option.some.inj hb
    exact h depth d a hd ha

/-- An item that has to be there. -/
lemma Decoder.Yields.next {depth index : Nat} {record : String} {items items' : Items} {a : α}
    (hitems : ∀ d ∈ items.rest, d.Sound)
    (hnext : items.next read depth record index = .ok (a, items')) :
    (∀ d ∈ items'.rest, d.Sound) ∧ good a := by
  obtain ⟨⟨o, rest⟩, hfound, hnext⟩ := exists_of_bind_eq_ok hnext
  cases o with
  | none => cases hnext
  | some b =>
    cases hnext
    obtain ⟨hrest, hgood⟩ := h.next? hitems hfound
    exact ⟨hrest, hgood _ rfl⟩

end Parts

/-- A field that had to be there. -/
lemma of_required {α : Type} (good : α → Prop) {field : String} {slot : Option α} {a : α}
    (hslot : ∀ a ∈ slot, good a) (h : required field slot = .ok a) : good a := by
  cases slot with
  | none => cases h
  | some b =>
    cases h
    exact hslot _ rfl

/-- A field that stands for another value where it is missing. -/
lemma getD_of_forall {α : Type} (good : α → Prop) {slot : Option α} {b : α}
    (hslot : ∀ a ∈ slot, good a) (hb : good b) : good (slot.getD b) := by
  cases slot with
  | none => exact hb
  | some a => exact hslot a rfl

/-! ### Records -/

/-- That the parts of a reader keep a property of what has been met so far, from which what the
record yields follows. -/
structure RecordReader.Keeps {α : Type} (r : RecordReader α) (inv : r.Partial → Prop)
    (good : α → Prop) : Prop where
  start : inv r.start
  field : ∀ p q key depth d, inv p → d.Sound → r.field p key depth d = .ok q → inv q
  finish : ∀ p a, inv p → r.finish p = .ok a → good a
  items : ∀ depth items items' a, (∀ d ∈ items.rest, d.Sound) →
    r.items depth items = .ok (a, items') → good a

namespace RecordReader

variable {α : Type} {r : RecordReader α} {inv : r.Partial → Prop} {good : α → Prop}

lemma Keeps.readFields (h : r.Keeps inv good) {depth : Nat}
    {fields : List (Option String × Draft)} (hfields : ∀ f ∈ fields, f.2.Sound)
    {p q : r.Partial} (hp : inv p) (hread : r.readFields depth p fields = .ok q) : inv q := by
  induction fields generalizing p with
  | nil =>
    cases hread
    exact hp
  | cons f fields ih =>
    obtain ⟨k, d⟩ := f
    obtain ⟨hd, hrest⟩ := List.forall_mem_cons.1 hfields
    cases k with
    | none => cases hread
    | some k =>
      obtain ⟨p', hfield, hread⟩ := exists_of_bind_eq_ok hread
      exact ih hrest (h.field p p' k depth d hp hd hfield) hread

/-- **What a record yields.** -/
theorem Keeps.yields (h : r.Keeps inv good) (source : Source) : (r.decoder source).Yields good := by
  intro depth d a hd ha
  unfold RecordReader.decoder at ha
  split at ha
  · cases depth with
    | zero => cases ha
    | succ depth =>
      have hfields := Draft.soundFields_iff.1 hd
      obtain ⟨q, hq, ha⟩ := exists_of_bind_eq_ok ha
      split at ha
      · exact h.finish q a (h.readFields hfields h.start hq) ha
      · cases ha
  · cases depth with
    | zero => cases ha
    | succ depth =>
      have hitems := Draft.soundItems_iff.1 hd
      obtain ⟨⟨b, rest⟩, hfound, ha⟩ := exists_of_bind_eq_ok ha
      obtain ⟨-, -, ha⟩ := exists_of_bind_eq_ok ha
      cases ha
      exact h.items _ _ rest _ hitems hfound
  · cases ha

end RecordReader

/-- A record straight from a text. -/
lemma Decoder.Yields.readText {α : Type} {read : Source → Decoder α} {good : α → Prop}
    (h : ∀ source, (read source).Yields good) {text : String} {a : α}
    (ha : readText read text = .ok a) : good a := by
  simp only [SilentScan.readText] at ha
  obtain ⟨b, hb, ha⟩ := exists_of_bind_eq_ok ha
  split at ha
  · cases ha
    exact h .text _ _ _ ((Draft.sound_read _).1 _) hb
  · cases ha

/-- A record from a value. -/
lemma Decoder.Yields.readJson {α : Type} {read : Source → Decoder α} {good : α → Prop}
    (h : ∀ source, (read source).Yields good) {v : Json} (hv : v.Sound) {a : α}
    (ha : readJson read v = .ok a) : good a :=
  h .value _ _ _ (Draft.sound_ofValue hv) ha

end SilentScan
