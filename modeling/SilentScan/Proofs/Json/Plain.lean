/-
Values without floating numbers.

A floating number is printed as the shortest decimal that reads back, which may be read as another
one. All else that a value is built from comes back as it was. So a value whose numbers are whole,
and whose objects are in order, is read back from its text unless it nests too deep, and a record is
read from the text of such values just as it is read from the values themselves.

* `Json.Whole`, `Json.Plain`: values without floating numbers that can be read at a depth;
* `Draft.ofPrinted_of_whole`: nothing is lost in the text of such a value;
* `Json.parse_text`, `parse_record`: the value of a text, and of the text of a record;
* `parse_of_eq_text`, `parse_of_eq_fields`: the value of a text that is known to be one's own;
* `readText_text`, `readText_record`: how a value, and a record, is read straight from its own text.
-/
import SilentScan.Proofs.Json.Printing
import SilentScan.Proofs.Json.Records

namespace SilentScan

namespace Json

/-! ### Whole numbers only -/

mutual
/-- That no number inside a value is a floating one. -/
def Whole : Json → Prop
  | .number (.float _) => False
  | .array items => WholeItems items
  | .object fields => WholeFields fields
  | _ => True

/-- `Whole` for the items of an array. -/
def WholeItems : List Json → Prop
  | [] => True
  | v :: rest => Whole v ∧ WholeItems rest

/-- `Whole` for the values of an object's fields. -/
def WholeFields : List (String × Json) → Prop
  | [] => True
  | (_, v) :: rest => Whole v ∧ WholeFields rest
end

lemma whole_array {items : List Json} : Whole (.array items) ↔ ∀ v ∈ items, Whole v := by
  rw [Whole]
  induction items with
  | nil => simp [WholeItems]
  | cons v items ih => rw [WholeItems, ih, List.forall_mem_cons]

lemma whole_object {fields : List (String × Json)} :
    Whole (.object fields) ↔ ∀ f ∈ fields, Whole f.2 := by
  rw [Whole]
  induction fields with
  | nil => simp [WholeFields]
  | cons f fields ih => rw [WholeFields, ih, List.forall_mem_cons]

/-- That a value has no floating numbers and can be read where arrays and objects may nest to a
given depth. -/
structure Plain (depth : Nat) (v : Json) : Prop extends Readable depth v where
  whole : v.Whole

lemma plain_null (depth : Nat) : Json.null.Plain depth :=
  ⟨⟨True.intro, True.intro, Nat.zero_le _⟩, True.intro⟩

lemma plain_string (depth : Nat) (s : String) : (Json.string s).Plain depth :=
  ⟨⟨True.intro, True.intro, Nat.zero_le _⟩, True.intro⟩

lemma plain_int (depth : Nat) {n : Int}
    (hn : -0x8000_0000_0000_0000 ≤ n ∧ n ≤ 0xFFFF_FFFF_FFFF_FFFF) : (Json.int n).Plain depth :=
  ⟨⟨hn, True.intro, Nat.zero_le _⟩, True.intro⟩

lemma plain_u32 (depth : Nat) {n : Nat} (hn : n < 0x1_0000_0000) : (Json.int n).Plain depth :=
  plain_int depth ⟨by omega, by omega⟩

lemma plain_array {depth : Nat} {items : List Json} (h : ∀ v ∈ items, v.Plain depth) :
    (Json.array items).Plain (depth + 1) where
  sound := sound_array.2 fun v hv => (h v hv).sound
  ordered := ordered_array.2 fun v hv => (h v hv).ordered
  nesting := Nat.succ_le_succ (nestingItems_le.2 fun v hv => (h v hv).nesting)
  whole := whole_array.2 fun v hv => (h v hv).whole

/-- Whether keys ascend is decided key by key. -/
instance decidableAscending : ∀ (bound : Option String) (keys : List String),
    Decidable (Ascending bound keys)
  | _, [] => inferInstanceAs (Decidable True)
  | bound, k :: rest =>
    have := decidableAscending (some k) rest
    inferInstanceAs (Decidable ((∀ b ∈ bound, b < k) ∧ Ascending (some k) rest))

lemma plain_object {depth : Nat} {fields : List (String × Json)}
    (hkeys : Ascending none (fields.map (·.1))) (h : ∀ f ∈ fields, f.2.Plain depth) :
    (Json.object fields).Plain (depth + 1) where
  sound := sound_object.2 fun f hf => (h f hf).sound
  ordered := ordered_object.2 ⟨hkeys, fun f hf => (h f hf).ordered⟩
  nesting := Nat.succ_le_succ (nestingFields_le.2 fun f hf => (h f hf).nesting)
  whole := whole_object.2 fun f hf => (h f hf).whole

end Json

namespace Draft

lemma ofItems_eq (items : List Json) : ofItems items = items.map ofValue := by
  induction items with
  | nil => rfl
  | cons v items ih => rw [ofItems, ih, List.map_cons]

lemma ofFields_eq (fields : List (String × Json)) :
    ofFields fields = fields.map fun f => (some f.1, ofValue f.2) := by
  induction fields with
  | nil => rfl
  | cons f fields ih => rw [ofFields, ih, List.map_cons]

lemma ofPrintedFields_eq (fields : List (String × Json)) :
    ofPrintedFields fields = fields.map fun f => (some f.1, ofPrinted f.2) := by
  induction fields with
  | nil => rfl
  | cons f fields ih => rw [ofPrintedFields, ih, List.map_cons]

/-- **Nothing is lost** in the text of a value without floating numbers. -/
theorem ofPrinted_of_whole {v : Json} (hsound : v.Sound) (hwhole : v.Whole) :
    ofPrinted v = ofValue v := by
  induction v using Json.ind with
  | number n =>
    cases n with
    | whole n => rw [ofPrinted, reread_whole hsound, ofValue]
    | float d => exact hwhole.elim
  | array items ih =>
    have hsound := Json.sound_array.1 hsound
    have hwhole := Json.whole_array.1 hwhole
    rw [ofPrinted, ofValue, ofPrintedItems_eq, ofItems_eq,
      List.map_congr_left fun v hv => ih v hv (hsound v hv) (hwhole v hv)]
  | object fields ih =>
    have hsound := Json.sound_object.1 hsound
    have hwhole := Json.whole_object.1 hwhole
    rw [ofPrinted, ofValue, ofPrintedFields_eq, ofFields_eq,
      List.map_congr_left fun f hf =>
        congrArg (some f.1, ·) (ih f hf (hsound f hf) (hwhole f hf))]
  | _ => rfl

end Draft

/-! ### Values and records from texts -/

namespace Json

variable {v : Json}

lemma Plain.value? {depth : Nat} (hv : v.Plain depth) : (Draft.ofValue v).value? depth = some v :=
  Draft.value?_ofValue hv.ordered hv.nesting

lemma Plain.decode {depth : Nat} (hv : v.Plain depth) :
    Decoder.json depth (Draft.ofValue v) = .ok v := by
  rw [Decoder.json, hv.value?]

lemma read_text (hsound : v.Sound) (hwhole : v.Whole) :
    Draft.read v.text.toList = (Draft.ofValue v, []) := by
  have hread := Draft.readsBack v (2 * (print v).length + 2) [] (by omega) Draft.ends_nil
  rw [List.append_nil, Draft.ofPrinted_of_whole hsound hwhole] at hread
  rw [Draft.read, text, String.toList_ofList]
  exact hread

/-- **The text of a plain value** is read as the value. -/
theorem parse_text (hv : v.Plain Draft.depthLimit) : parse v.text = some v := by
  rw [parse_eq_parseWithin, parseWithin_text, Draft.ofPrinted_of_whole hv.sound hv.whole]
  exact hv.value?

/-- A text that is the one of a plain value is read as the value. -/
lemma parse_of_eq_text {text : String} (h : text = v.text) (hv : v.Plain Draft.depthLimit) :
    parse text = some v := by
  rw [h, parse_text hv]

variable {fields : List (String × Json)}

/-- The same for an object, if its keys ascend and its fields are plain. -/
lemma parse_of_eq_fields {text : String} (h : text = (Json.object fields).text)
    (hkeys : Ascending none (fields.map (·.1))) (hfields : ∀ f ∈ fields, f.2.Plain 126) :
    parse text = some (.object fields) :=
  parse_of_eq_text h (plain_object hkeys hfields)

lemma sound_record {depth : Nat} (hfields : ∀ f ∈ fields, f.2.Plain depth) :
    (Json.object fields).Sound :=
  sound_object.2 fun f hf => (hfields f hf).sound

lemma whole_record {depth : Nat} (hfields : ∀ f ∈ fields, f.2.Plain depth) :
    (Json.object fields).Whole :=
  whole_object.2 fun f hf => (hfields f hf).whole

/-- The text of a record is read as the object of its fields. -/
lemma parse_record (hfields : ∀ f ∈ fields, f.2.Plain 126) :
    parse (Json.object fields).text = some (.ofFields fields) := by
  have hvalues := Draft.fields?_ofFields fun f hf => (hfields f hf).value?
  rw [parse_eq_parseWithin, parseWithin_text,
    Draft.ofPrinted_of_whole (sound_record hfields) (whole_record hfields)]
  simp [Draft.ofValue, Draft.value?, hvalues, Draft.depthLimit]

/-- Whatever is read straight from the text of a value is read from its draft. -/
lemma readText_text {α : Type} (read : Source → Decoder α) (hsound : v.Sound) (hwhole : v.Whole) :
    readText read v.text = read .text Draft.depthLimit (Draft.ofValue v) := by
  rw [readText, read_text hsound hwhole]
  cases h : read .text Draft.depthLimit (Draft.ofValue v) <;>
    simp [h, bind, Except.bind, pure, Except.pure, Draft.skipBlanks]

/-- A record straight from its text. -/
lemma readText_record {α : Type} (read : Source → Decoder α)
    (hfields : ∀ f ∈ fields, f.2.Plain 126) :
    readText read (Json.object fields).text
      = read .text Draft.depthLimit (.object (Draft.ofFields fields) true) :=
  readText_text read (sound_record hfields) (whole_record hfields)

end Json
end SilentScan
