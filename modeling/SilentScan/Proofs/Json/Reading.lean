/-
Values as they are read.

What a text spells is in order: the fields of objects ascend, the numbers fit, and arrays and
objects do not nest too deep. Such a value is the value of its own draft, so that reading it once
more, as part of a record, changes nothing.

* `sound_read`: the numbers in a draft that has been read;
* `Draft.ind`: what holds of a draft once it holds of its parts holds of every draft;
* `value?_spec`, `value?_mono`, `parse_spec`: the values that are read;
* `value?_ofValue`: a value in order is the value of its draft.
-/
import SilentScan.Proofs.Json.Values
import SilentScan.Proofs.Number.Decimal

namespace SilentScan

/-! ### Numbers that are read -/

namespace Draft

lemma isFinite_neg (d : Double) : d.neg.isFinite = d.isFinite := by
  have hmagnitude : d.neg.magnitude = d.magnitude := by
    have hlt : d.magnitude < Double.signBit := Nat.mod_lt _ (by decide)
    generalize hm : d.magnitude = m at hlt
    simp only [Double.neg, Double.magnitude, UInt64.toNat_ofNat'] at hm ⊢
    simp only [Double.signBit] at hm hlt ⊢
    split <;> omega
  rw [Double.isFinite, Double.isFinite, Double.exponentField_eq, Double.exponentField_eq,
    hmagnitude]

/-- Digits before the point do not lead beyond a word. -/
lemma value_pushWhole_le (cs : List Char) {s : Significand} (hs : s.value ≤ wordMax) :
    (cs.foldl Significand.pushWhole s).value ≤ wordMax := by
  induction cs generalizing s with
  | nil => exact hs
  | cons c cs ih =>
    refine ih ?_
    simp only [Significand.pushWhole]
    split
    · exact hs
    · rename_i hfits
      simp only [Bool.or_eq_true, gt_iff_lt, decide_eq_true_eq, not_or, not_lt] at hfits
      exact hfits.2

/-- Nor do digits after it. -/
lemma value_pushFraction_le (cs : List Char) {s : Significand} (hs : s.value ≤ wordMax) :
    (cs.foldl Significand.pushFraction s).value ≤ wordMax := by
  induction cs generalizing s with
  | nil => exact hs
  | cons c cs ih =>
    refine ih ?_
    simp only [Significand.pushFraction]
    split
    · exact hs
    · rename_i hfits
      simp only [Bool.or_eq_true, gt_iff_lt, decide_eq_true_eq, not_or, not_lt] at hfits
      exact hfits.2

lemma sound_float {negative : Bool} {s : Significand} (hs : s.value ≤ wordMax) {written : Int}
    {n : Number} (h : float negative s written = some n) : n.Sound := by
  have hsigned : ∀ d : Double, d.isFinite = true →
      Number.Sound (.float (if negative then d.neg else d)) := by
    intro d hd
    split
    · exact (isFinite_neg d).trans hd
    · exact hd
  have hzero : (Double.zero false).isFinite = true := by decide
  simp only [float] at h
  split at h
  · split at h
    · cases h
      exact hsigned _ hzero
    · cases h
  · split at h
    · cases h
      exact hsigned _ hzero
    · obtain ⟨d, hd, rfl⟩ := Option.map_eq_some_iff.1 h
      exact hsigned d (isFinite_of_scaled hs hd)

lemma sound_wholeNumber {negative : Bool} {s : Significand} (hs : s.value ≤ wordMax) {n : Number}
    (h : wholeNumber negative s = some n) : n.Sound := by
  rw [wholeNumber] at h
  rw [wordMax] at hs
  split at h
  · exact sound_float hs h
  · split at h
    · split at h
      · cases h
        simp only [Number.Sound]
        omega
      · exact sound_float hs h
    · cases h
      simp only [Number.Sound]
      omega

/-! ### Drafts that are read -/

mutual
/-- That all numbers inside a draft are ones that can be read. -/
def Sound : Draft → Prop
  | .number n => ∀ m ∈ n, m.Sound
  | .array items _ => SoundItems items
  | .object fields _ => SoundFields fields
  | _ => True

/-- `Sound` for items. -/
def SoundItems : List Draft → Prop
  | [] => True
  | d :: rest => Sound d ∧ SoundItems rest

/-- `Sound` for the values of fields. -/
def SoundFields : List (Option String × Draft) → Prop
  | [] => True
  | (_, d) :: rest => Sound d ∧ SoundFields rest
end

lemma sound_readAfterDigits {negative : Bool} {s : Significand} (hs : s.value ≤ wordMax)
    {plain : Option Number} (hplain : ∀ n ∈ plain, n.Sound) (cs : List Char) :
    (readAfterDigits negative s plain cs).1.Sound := by
  have hexponent : ∀ cs, (readExponent negative s cs).1.Sound := by
    intro cs
    simp only [readExponent]
    repeat' split
    all_goals first
      | exact True.intro
      | exact fun n hn => sound_float hs hn
  unfold readAfterDigits
  split
  · exact hexponent _
  · exact hexponent _
  · exact hplain

/-- **Numbers that are read** can be read. -/
lemma sound_readNumber (negative : Bool) (cs : List Char) : (readNumber negative cs).1.Sound := by
  have hzero : (⟨0, 0, false⟩ : Significand).value ≤ wordMax := Nat.zero_le _
  rw [readNumber]
  dsimp only
  split
  · exact True.intro
  · have hwhole := value_pushWhole_le (cs.takeWhile Char.isDigit) hzero
    split
    · split
      · exact True.intro
      · have hfraction := fun ds => value_pushFraction_le ds
          (s := { (cs.takeWhile Char.isDigit).foldl Significand.pushWhole ⟨0, 0, false⟩
            with full := false }) hwhole
        exact sound_readAfterDigits (hfraction _) (fun n hn => sound_float (hfraction _) hn) _
    · exact sound_readAfterDigits hwhole (fun n hn => sound_wholeNumber hwhole hn) _

lemma sound_readWord (word : List Char) {value : Draft} (h : value.Sound) (cs : List Char) :
    (readWord word value cs).1.Sound := by
  rw [readWord]
  split
  · exact h
  · exact True.intro

/-- What is read holds such numbers only, whether it is complete or not. -/
lemma sound_read (fuel : Nat) :
    (∀ cs, (readValue fuel cs).1.Sound) ∧ (∀ cs, SoundItems (readItems fuel cs).1)
      ∧ ∀ cs, SoundFields (readFields fuel cs).1 := by
  induction fuel with
  | zero =>
    refine ⟨fun cs => ?_, fun cs => ?_, fun cs => ?_⟩
    · exact True.intro
    · exact ⟨True.intro, True.intro⟩
    · exact True.intro
  | succ fuel ih =>
    obtain ⟨hvalue, hitems, hfields⟩ := ih
    refine ⟨fun cs => ?_, fun cs => ?_, fun cs => ?_⟩
    · unfold readValue
      dsimp only
      repeat' split
      all_goals first
        | exact True.intro
        | exact sound_readWord _ (by exact True.intro) _
        | exact sound_readNumber _ _
        | exact hitems _
        | exact hfields _
    · unfold readItems
      dsimp only
      repeat' split
      all_goals first
        | exact ⟨hvalue _, True.intro⟩
        | exact ⟨hvalue _, hitems _⟩
    · unfold readFields
      dsimp only
      repeat' split
      all_goals first
        | exact True.intro
        | exact ⟨hvalue _, True.intro⟩
        | exact ⟨hvalue _, hfields _⟩
        | exact ⟨True.intro, True.intro⟩

end Draft

/-! ### Values that are read -/

/-- That a value is one that can be read where arrays and objects may nest to a given depth. -/
structure Json.Readable (depth : Nat) (v : Json) : Prop where
  sound : v.Sound
  ordered : v.Ordered
  nesting : v.nesting ≤ depth

namespace Draft

/-- The induction over drafts. -/
@[elab_as_elim]
theorem ind {P : Draft → Prop} (null : P .null) (bool : ∀ b, P (.bool b))
    (number : ∀ n, P (.number n)) (string : ∀ s, P (.string s))
    (array : ∀ (items : List Draft) (closed : Bool), (∀ d ∈ items, P d) → P (.array items closed))
    (object : ∀ (fields : List (Option String × Draft)) (closed : Bool),
      (∀ f ∈ fields, P f.2) → P (.object fields closed))
    (fault : P .fault) (d : Draft) : P d :=
  @Draft.rec P (fun items => ∀ d ∈ items, P d) (fun fields => ∀ f ∈ fields, P f.2) (fun f => P f.2)
    null bool number string array object fault
    (fun _ hd => absurd hd List.not_mem_nil)
    (fun _ _ hhead htail => List.forall_mem_cons.2 ⟨hhead, htail⟩)
    (fun _ hf => absurd hf List.not_mem_nil)
    (fun _ _ hhead htail => List.forall_mem_cons.2 ⟨hhead, htail⟩)
    (fun _ _ hvalue => hvalue) d

/-- The values of items have what the value of each item has. -/
lemma forall_items? {P : Json → Prop} {depth : Nat} {items : List Draft} {vs : List Json}
    (h : items? depth items = some vs)
    (hitems : ∀ d ∈ items, ∀ v, d.value? depth = some v → P v) : ∀ v ∈ vs, P v := by
  induction items generalizing vs with
  | nil =>
    cases h
    simp
  | cons d items ih =>
    obtain ⟨hd, hitems⟩ := List.forall_mem_cons.1 hitems
    rw [items?] at h
    split at h
    · rename_i v us hv hus
      cases h
      exact List.forall_mem_cons.2 ⟨hd v hv, ih hus hitems⟩
    · cases h

/-- The values of fields have what the value of each field has. -/
lemma forall_fields? {P : Json → Prop} {depth : Nat} {fields : List (Option String × Draft)}
    {fs : List (String × Json)} (h : fields? depth fields = some fs)
    (hfields : ∀ f ∈ fields, ∀ v, f.2.value? depth = some v → P v) : ∀ f ∈ fs, P f.2 := by
  induction fields generalizing fs with
  | nil =>
    cases h
    simp
  | cons f fields ih =>
    obtain ⟨k, d⟩ := f
    obtain ⟨hf, hrest⟩ := List.forall_mem_cons.1 hfields
    cases k with
    | none => simp [fields?] at h
    | some k =>
      rw [fields?] at h
      split at h
      · rename_i v us hv hus
        cases h
        exact List.forall_mem_cons.2 ⟨hf v hv, ih hus hrest⟩
      · cases h

/-- Items have the values that each of them has. -/
lemma forall₂_of_items? {depth : Nat} {items : List Draft} {vs : List Json}
    (h : items? depth items = some vs) :
    List.Forall₂ (fun d v => d.value? depth = some v) items vs := by
  induction items generalizing vs with
  | nil =>
    cases h
    exact .nil
  | cons d items ih =>
    rw [items?] at h
    split at h
    · rename_i v us hv hus
      cases h
      exact .cons hv (ih hus)
    · cases h

lemma soundItems_iff {items : List Draft} : SoundItems items ↔ ∀ d ∈ items, Sound d := by
  induction items with
  | nil => simp [SoundItems]
  | cons d items ih => rw [SoundItems, ih, List.forall_mem_cons]

lemma soundFields_iff {fields : List (Option String × Draft)} :
    SoundFields fields ↔ ∀ f ∈ fields, Sound f.2 := by
  induction fields with
  | nil => simp [SoundFields]
  | cons f fields ih => rw [SoundFields, ih, List.forall_mem_cons]

lemma items?_mono {depth depth' : Nat} {items : List Draft} {vs : List Json}
    (hitems : ∀ d ∈ items, ∀ v, d.value? depth = some v → d.value? depth' = some v)
    (h : items? depth items = some vs) : items? depth' items = some vs := by
  induction items generalizing vs with
  | nil => exact h
  | cons d items ih =>
    obtain ⟨hd, hitems⟩ := List.forall_mem_cons.1 hitems
    rw [items?] at h
    split at h
    · rename_i v us hv hus
      rw [items?, hd v hv, ih hitems hus]
      exact h
    · cases h

lemma fields?_mono {depth depth' : Nat} {fields : List (Option String × Draft)}
    {fs : List (String × Json)}
    (hfields : ∀ f ∈ fields, ∀ v, f.2.value? depth = some v → f.2.value? depth' = some v)
    (h : fields? depth fields = some fs) : fields? depth' fields = some fs := by
  induction fields generalizing fs with
  | nil => exact h
  | cons f fields ih =>
    obtain ⟨k, d⟩ := f
    obtain ⟨hf, hrest⟩ := List.forall_mem_cons.1 hfields
    cases k with
    | none => simp [fields?] at h
    | some k =>
      rw [fields?] at h
      split at h
      · rename_i v us hv hus
        rw [fields?, hf v hv, ih hrest hus]
        exact h
      · cases h

/-- A draft that has a value keeps it where more nesting is allowed for. -/
lemma value?_mono {d : Draft} {depth depth' : Nat} (hdepth : depth ≤ depth') {v : Json}
    (h : d.value? depth = some v) : d.value? depth' = some v := by
  induction d using Draft.ind generalizing depth depth' v with
  | array items closed ih =>
    cases depth with
    | zero => cases h
    | succ depth =>
      obtain ⟨depth', rfl⟩ := Nat.exists_eq_succ_of_ne_zero (show depth' ≠ 0 by omega)
      rw [value?] at h ⊢
      cases hitems : items? depth items with
      | none => simp [hitems] at h
      | some vs =>
        rw [hitems] at h
        rw [items?_mono (fun d hd v => ih d hd (Nat.le_of_succ_le_succ hdepth)) hitems]
        exact h
  | object fields closed ih =>
    cases depth with
    | zero => cases h
    | succ depth =>
      obtain ⟨depth', rfl⟩ := Nat.exists_eq_succ_of_ne_zero (show depth' ≠ 0 by omega)
      rw [value?] at h ⊢
      cases hfields : fields? depth fields with
      | none => simp [hfields] at h
      | some fs =>
        rw [hfields] at h
        rw [fields?_mono (fun f hf v => ih f hf (Nat.le_of_succ_le_succ hdepth)) hfields]
        exact h
  | _ => exact h

/-- **The value of a draft** is one that can be read, if the numbers in the draft are. -/
theorem value?_spec {d : Draft} (hd : d.Sound) {depth : Nat} {v : Json}
    (h : d.value? depth = some v) : v.Readable depth := by
  induction d using Draft.ind generalizing depth v with
  | number n =>
    obtain ⟨m, hm, rfl⟩ := Option.map_eq_some_iff.1 h
    exact ⟨hd m hm, True.intro, Nat.zero_le _⟩
  | string s =>
    obtain ⟨t, ht, rfl⟩ := Option.map_eq_some_iff.1 h
    exact ⟨True.intro, True.intro, Nat.zero_le _⟩
  | array items closed ih =>
    cases depth with
    | zero => cases h
    | succ depth =>
      have hsound := soundItems_iff.1 hd
      rw [value?] at h
      split at h
      · rename_i vs hvs
        split at h
        · cases h
          have hitems := forall_items? hvs fun d hd v hv => ih d hd (hsound d hd) hv
          exact ⟨Json.sound_array.2 fun v hv => (hitems v hv).sound,
            Json.ordered_array.2 fun v hv => (hitems v hv).ordered,
            Nat.succ_le_succ (Json.nestingItems_le.2 fun v hv => (hitems v hv).nesting)⟩
        · cases h
      · cases h
  | object fields closed ih =>
    cases depth with
    | zero => cases h
    | succ depth =>
      have hsound := soundFields_iff.1 hd
      rw [value?] at h
      split at h
      · rename_i fs hfs
        split at h
        · cases h
          have hfields := forall_fields? hfs fun f hf v hv => ih f hf (hsound f hf) hv
          have hsorted : ∀ f ∈ Json.sortFields fs, f.2.Readable depth :=
            fun f hf => hfields f (Json.mem_sortFields hf)
          exact ⟨Json.sound_object.2 fun f hf => (hsorted f hf).sound,
            Json.ordered_object.2
              ⟨Json.ascending_sortFields fs, fun f hf => (hsorted f hf).ordered⟩,
            Nat.succ_le_succ (Json.nestingFields_le.2 fun f hf => (hsorted f hf).nesting)⟩
        · cases h
      · cases h
  | fault => cases h
  | _ =>
    cases h
    exact ⟨True.intro, True.intro, Nat.zero_le _⟩

end Draft

/-- **What a text spells** can be read. -/
theorem Json.parse_spec {text : String} {v : Json} (h : parse text = some v) :
    v.Readable Draft.depthLimit := by
  simp only [parse] at h
  split at h
  · exact Draft.value?_spec ((Draft.sound_read _).1 _) h
  · cases h

namespace Draft

lemma items?_ofItems {depth : Nat} {items : List Json}
    (h : ∀ v ∈ items, (ofValue v).value? depth = some v) :
    items? depth (ofItems items) = some items := by
  induction items with
  | nil => rfl
  | cons v items ih =>
    obtain ⟨hv, hitems⟩ := List.forall_mem_cons.1 h
    simp [ofItems, items?, hv, ih hitems]

lemma fields?_ofFields {depth : Nat} {fields : List (String × Json)}
    (h : ∀ f ∈ fields, (ofValue f.2).value? depth = some f.2) :
    fields? depth (ofFields fields) = some fields := by
  induction fields with
  | nil => rfl
  | cons f fields ih =>
    obtain ⟨k, v⟩ := f
    obtain ⟨hv, hfields⟩ := List.forall_mem_cons.1 h
    simp [ofFields, fields?, hv, ih hfields]

/-- **A value in order** is the value of its draft. -/
theorem value?_ofValue {v : Json} (hv : v.Ordered) {depth : Nat} (h : v.nesting ≤ depth) :
    (ofValue v).value? depth = some v := by
  induction v using Json.ind generalizing depth with
  | array items ih =>
    obtain ⟨depth, rfl⟩ := Nat.exists_eq_succ_of_ne_zero (Nat.ne_of_gt (Nat.zero_lt_of_lt h))
    have hordered := Json.ordered_array.1 hv
    have hnesting := Json.nestingItems_le.1 (Nat.le_of_succ_le_succ h)
    have hitems := items?_ofItems fun v hv => ih v hv (hordered v hv) (hnesting v hv)
    simp [ofValue, value?, hitems]
  | object fields ih =>
    obtain ⟨depth, rfl⟩ := Nat.exists_eq_succ_of_ne_zero (Nat.ne_of_gt (Nat.zero_lt_of_lt h))
    obtain ⟨hascending, hordered⟩ := Json.ordered_object.1 hv
    have hnesting := Json.nestingFields_le.1 (Nat.le_of_succ_le_succ h)
    have hfields := fields?_ofFields fun f hf => ih f hf (hordered f hf) (hnesting f hf)
    simp [ofValue, value?, hfields, Json.ofFields, Json.sortFields_of_ascending hascending]
  | _ => rfl

lemma soundItems_ofItems {items : List Json} (h : ∀ v ∈ items, (ofValue v).Sound) :
    SoundItems (ofItems items) := by
  induction items with
  | nil => exact True.intro
  | cons v items ih =>
    obtain ⟨hv, hitems⟩ := List.forall_mem_cons.1 h
    exact ⟨hv, ih hitems⟩

lemma soundFields_ofFields {fields : List (String × Json)}
    (h : ∀ f ∈ fields, (ofValue f.2).Sound) : SoundFields (ofFields fields) := by
  induction fields with
  | nil => exact True.intro
  | cons f fields ih =>
    obtain ⟨hf, hfields⟩ := List.forall_mem_cons.1 h
    exact ⟨hf, ih hfields⟩

/-- The draft of a value holds the numbers of the value. -/
lemma sound_ofValue {v : Json} (hv : v.Sound) : (ofValue v).Sound := by
  induction v using Json.ind with
  | number n =>
    rintro m hm
    obtain rfl := Option.some.inj hm
    exact hv
  | array items ih =>
    have hsound := Json.sound_array.1 hv
    exact soundItems_ofItems fun u hu => ih u hu (hsound u hu)
  | object fields ih =>
    have hsound := Json.sound_object.1 hv
    exact soundFields_ofFields fun f hf => ih f hf (hsound f hf)
  | _ => exact True.intro

end Draft
end SilentScan
