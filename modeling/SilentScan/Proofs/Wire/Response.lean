/-
Responses as the other server writes them.

The other server may write the fields of a response in any order, leave some of them out and add
others. As the names of the fields are different, each of them goes to a slot of its own, so that
what is read depends on the values of the known fields alone; all others are passed over.

* `slot_foldl`, `RecordReader.readFields_ofFields`: fields that go to slots of their own;
* `ErrorObject.SpelledBy`, `Response.ofFields`: what errors and responses are read as;
* `Response.Addressed`, `classify_of_addressed`: objects that answer the request with a number, and
  that they are taken for the response.
-/
import Mathlib.Data.List.Nodup
import SilentScan.Proofs.Wire.Roundtrip

namespace SilentScan

/-! ### Fields that go to slots of their own -/

namespace Json

variable {key : String} {fields : List (String × Json)}

lemma mem_of_lookup {v : Json} (h : lookup key fields = some v) : (key, v) ∈ fields := by
  induction fields with
  | nil => cases h
  | cons f fields ih =>
    obtain ⟨k, w⟩ := f
    rw [lookup] at h
    split at h
    · rename_i hkey
      rw [hkey, Option.some.inj h]
      exact List.mem_cons_self
    · exact List.mem_cons_of_mem _ (ih h)

lemma lookup_eq_none (h : key ∉ fields.map (·.1)) : lookup key fields = none := by
  by_contra hsome
  obtain ⟨v, hv⟩ := Option.ne_none_iff_exists'.1 hsome
  exact h (List.mem_map_of_mem (mem_of_lookup hv))

lemma mem_keys_iff : key ∈ fields.map (·.1) ↔ lookup key fields ≠ none := by
  refine ⟨fun hmem hnone => ?_, fun hsome => not_not.1 (mt lookup_eq_none hsome)⟩
  induction fields with
  | nil => cases hmem
  | cons f fields ih =>
    rw [lookup] at hnone
    split at hnone
    · cases hnone
    · rename_i hne
      exact ih ((List.mem_cons.1 hmem).resolve_left (Ne.symm hne)) hnone

lemma lookup_of_mem (hkeys : (fields.map (·.1)).Nodup) {f : String × Json} (hf : f ∈ fields) :
    lookup f.1 fields = some f.2 := by
  induction fields with
  | nil => cases hf
  | cons g fields ih =>
    obtain ⟨k, v⟩ := g
    obtain ⟨hk, hkeys⟩ := List.nodup_cons.1 hkeys
    obtain rfl | hmem := List.mem_cons.1 hf
    · simp [lookup]
    · have hne : k ≠ f.1 := fun heq => hk (List.mem_map.2 ⟨f, hmem, heq.symm⟩)
      rw [lookup, if_neg hne, ih hkeys hmem]

/-- The keys of fields in ascending order are different. -/
lemma Ascending.nodup {bound : Option String} {keys : List String} (h : Ascending bound keys) :
    keys.Nodup := by
  induction keys generalizing bound with
  | nil => exact List.nodup_nil
  | cons k keys ih =>
    exact List.nodup_cons.2 ⟨fun hk => lt_irrefl k (h.2.above k hk), ih h.2⟩

end Json

section Slots

variable {P β : Type} {put : P → String × Json → P} (slot : P → Option β) (value : Json → β)
  {key : String}

/-- What stands in a slot after some fields: the value of the field that goes there, or what stood
there before. -/
lemma slot_foldl
    (hput : ∀ p f, slot (put p f) = if f.1 = key then some (value f.2) else slot p)
    {fields : List (String × Json)} (hkeys : (fields.map (·.1)).Nodup) (p : P) :
    slot (fields.foldl put p) = ((Json.lookup key fields).map value).or (slot p) := by
  induction fields generalizing p with
  | nil => rfl
  | cons f fields ih =>
    obtain ⟨k, v⟩ := f
    obtain ⟨hk, hkeys⟩ := List.nodup_cons.1 hkeys
    rw [List.foldl_cons, ih hkeys, hput, Json.lookup]
    by_cases heq : k = key
    · subst heq
      simp [Json.lookup_eq_none hk]
    · simp [heq]

/-- Before its field has come a slot is empty. -/
lemma slot_foldl_of_fresh
    (hput : ∀ p f, slot (put p f) = if f.1 = key then some (value f.2) else slot p)
    {before after : List (String × Json)} {f : String × Json}
    (hkeys : ((before ++ f :: after).map (·.1)).Nodup) {p : P} (hp : slot p = none)
    (hkey : f.1 = key) : slot (before.foldl put p) = none := by
  rw [List.map_append, List.map_cons, List.nodup_middle, List.nodup_cons, List.mem_append,
    not_or] at hkeys
  obtain ⟨⟨hfresh, -⟩, hnodup⟩ := hkeys
  rw [slot_foldl slot value hput (List.nodup_append.1 hnodup).1, ← hkey,
    Json.lookup_eq_none hfresh, hp]
  rfl

/-- Fields are taken in one after another as long as each of them can be. -/
lemma RecordReader.readFields_ofFields {α : Type} {r : RecordReader α} {depth : Nat}
    {put : r.Partial → String × Json → r.Partial} {fields : List (String × Json)} {p : r.Partial}
    (hfields : ∀ before f after, fields = before ++ f :: after →
      r.field (before.foldl put p) f.1 depth (Draft.ofValue f.2)
        = .ok (put (before.foldl put p) f)) :
    r.readFields depth p (Draft.ofFields fields) = .ok (fields.foldl put p) := by
  induction fields generalizing p with
  | nil => rfl
  | cons f fields ih =>
    obtain ⟨k, v⟩ := f
    have hfirst := hfields [] (k, v) fields rfl
    rw [List.foldl_nil] at hfirst
    rw [Draft.ofFields, readFields, hfirst]
    refine ih fun before f after hsplit => ?_
    exact hfields ((k, v) :: before) f after (by rw [hsplit, List.cons_append])

end Slots

/-- A field that is not looked at can be passed over. -/
lemma Decoder.ignored_ofValue (depth : Nat) (v : Json) :
    Decoder.ignored depth (Draft.ofValue v) = .ok () := by
  cases v <;> rfl

/-- A value that can be read where arrays and objects may nest to a given depth. -/
lemma Json.Readable.decode {depth : Nat} {v : Json} (hv : v.Readable depth) :
    Decoder.json depth (Draft.ofValue v) = .ok v := by
  rw [Decoder.json, Draft.value?_ofValue hv.ordered hv.nesting]

/-- The values of the fields of an object that can be read. -/
lemma Json.Readable.fields {depth : Nat} {fields : List (String × Json)}
    (h : (Json.object fields).Readable (depth + 1)) :
    (fields.map (·.1)).Nodup ∧ ∀ f ∈ fields, f.2.Readable depth := by
  obtain ⟨hascending, hordered⟩ := Json.ordered_object.1 h.ordered
  have hsound := Json.sound_object.1 h.sound
  have hnesting := Json.nestingFields_le.1 (Nat.le_of_succ_le_succ h.nesting)
  exact ⟨hascending.nodup, fun f hf => ⟨hsound f hf, hordered f hf, hnesting f hf⟩⟩

/-- The whole number that a value is; a value of another kind stands for none. -/
def Json.asWhole : Json → Int
  | .number (.whole n) => n
  | _ => 0

/-- The text that a value is; a value of another kind stands for none. -/
def Json.asText : Json → String
  | .string s => s
  | _ => ""

/-! ### Errors -/

namespace ErrorObject

/-- That fields spell an error: they have its code, within 64 bits, and its message. -/
structure SpelledBy (e : ErrorObject) (fields : List (String × Json)) : Prop where
  code : Json.lookup "code" fields = some (.int e.code)
  message : Json.lookup "message" fields = some (.string e.message)
  range : -0x8000_0000_0000_0000 ≤ e.code ∧ e.code ≤ 0x7FFF_FFFF_FFFF_FFFF

/-- What a field of an error adds. -/
def Partial.put (p : Partial) (f : String × Json) : Partial :=
  match f.1 with
  | "code" => { p with code := some f.2.asWhole }
  | "message" => { p with message := some f.2.asText }
  | _ => p

lemma code_put (p : Partial) (f : String × Json) :
    (p.put f).code = if f.1 = "code" then some f.2.asWhole else p.code := by
  unfold Partial.put
  split <;> simp_all

lemma message_put (p : Partial) (f : String × Json) :
    (p.put f).message = if f.1 = "message" then some f.2.asText else p.message := by
  unfold Partial.put
  split <;> simp_all

section Read

variable {e : ErrorObject} {fields : List (String × Json)} (spelled : e.SpelledBy fields)
include spelled

/-- A field of an error is read into its slot, if nothing stands there yet. -/
lemma field_of_spelled {p : Partial} {f : String × Json} (depth : Nat)
    (hlookup : Json.lookup f.1 fields = some f.2) (hcode : f.1 = "code" → p.code = none)
    (hmessage : f.1 = "message" → p.message = none) :
    (readerAs "ErrorObject").field p f.1 depth (Draft.ofValue f.2) = .ok (p.put f) := by
  by_cases hc : f.1 = "code"
  · have hvalue : f.2 = .int e.code := Option.some.inj (hlookup.symm.trans (hc ▸ spelled.code))
    have hslot : setOnce "code" none Decoder.i64 depth (Draft.ofValue (.int e.code))
        = .ok (some e.code) := setOnce_none (Decoder.i64_ofValue depth spelled.range)
    simp only [readerAs, hc, hcode hc, hvalue, Partial.put]
    rw [hslot]
    rfl
  by_cases hm : f.1 = "message"
  · have hvalue : f.2 = .string e.message :=
      Option.some.inj (hlookup.symm.trans (hm ▸ spelled.message))
    have hslot : setOnce "message" none Decoder.string depth (Draft.ofValue (.string e.message))
        = .ok (some e.message) := setOnce_none (Decoder.string_ofValue depth e.message)
    simp only [readerAs, hm, hmessage hm, hvalue, Partial.put]
    rw [hslot]
    rfl
  · simp [readerAs, Partial.put, Decoder.ignored_ofValue, Functor.map, Except.map]

lemma readFields_of_spelled (depth : Nat) (hkeys : (fields.map (·.1)).Nodup) :
    (readerAs "ErrorObject").readFields depth ({} : Partial) (Draft.ofFields fields)
      = .ok (fields.foldl Partial.put {}) := by
  refine RecordReader.readFields_ofFields fun before f after hsplit => ?_
  have hlookup := Json.lookup_of_mem hkeys (f := f) (by simp [hsplit])
  rw [hsplit] at hkeys
  exact field_of_spelled spelled depth hlookup
    (slot_foldl_of_fresh Partial.code Json.asWhole code_put hkeys rfl)
    (slot_foldl_of_fresh Partial.message Json.asText message_put hkeys rfl)

/-- **An error** is read from an object that spells it, whatever other fields there are. -/
lemma decoder_object (source : Source) (depth : Nat) (hkeys : (fields.map (·.1)).Nodup) :
    decoder source (depth + 1) (Draft.ofValue (.object fields)) = .ok e := by
  have hcode := slot_foldl Partial.code Json.asWhole code_put hkeys ({} : Partial)
  have hmessage := slot_foldl Partial.message Json.asText message_put hkeys ({} : Partial)
  rw [spelled.code] at hcode
  rw [spelled.message] at hmessage
  rw [decoder, Draft.ofValue, RecordReader.decoder_object]
  change ((readerAs "ErrorObject").readFields depth ({} : Partial) (Draft.ofFields fields)).bind _
    = _
  rw [readFields_of_spelled spelled depth hkeys]
  simp [readerAs, Except.bind, hcode, hmessage, required, bind, Json.asWhole, Json.asText,
    Json.int, pure, Except.pure]

end Read

end ErrorObject

/-! ### Responses -/

namespace Response

/-- That fields have an error: an object that spells it; or that they have none, unless it is
null. -/
def HasError (fields : List (String × Json)) : Option ErrorObject → Prop
  | some e => ∃ inner, Json.lookup "error" fields = some (.object inner) ∧ e.SpelledBy inner
  | none => Json.lookup "error" fields = none ∨ Json.lookup "error" fields = some .null

/-- The response that fields spell, given its error. -/
def ofFields (error : Option ErrorObject) (fields : List (String × Json)) : Response where
  version := ((Json.lookup "jsonrpc" fields).map Json.asText).getD frameVersion
  result := (Json.lookup "result" fields).getD .null
  error := error
  id := (Json.lookup "id" fields).getD .null

/-- What a field of a response adds, given the error of the response. -/
def Partial.put (error : Option ErrorObject) (p : Partial) (f : String × Json) : Partial :=
  match f.1 with
  | "jsonrpc" => { p with version := some f.2.asText }
  | "result" => { p with result := some f.2 }
  | "error" => { p with error := some error }
  | "id" => { p with id := some f.2 }
  | _ => p

section Put

variable (error : Option ErrorObject) (p : Partial) (f : String × Json)

lemma version_put : (p.put error f).version
    = if f.1 = "jsonrpc" then some f.2.asText else p.version := by
  unfold Partial.put
  split <;> simp_all

lemma result_put : (p.put error f).result = if f.1 = "result" then some f.2 else p.result := by
  unfold Partial.put
  split <;> simp_all

lemma error_put : (p.put error f).error = if f.1 = "error" then some error else p.error := by
  unfold Partial.put
  split <;> simp_all

lemma id_put : (p.put error f).id = if f.1 = "id" then some f.2 else p.id := by
  unfold Partial.put
  split <;> simp_all

end Put

variable {error : Option ErrorObject} {fields : List (String × Json)}
  (herror : HasError fields error) (hread : (Json.object fields).Readable Draft.depthLimit)
include herror hread

/-- The value of the error field is read as the error. -/
lemma decode_error {w : Json} (hw : Json.lookup "error" fields = some w) :
    Decoder.optional (ErrorObject.decoder .value) 126 (Draft.ofValue w) = .ok error := by
  cases error with
  | none =>
    obtain hnone | hnull := herror
    · rw [hw] at hnone
      cases hnone
    · rw [hw] at hnull
      obtain rfl := Option.some.inj hnull
      rfl
  | some e =>
    obtain ⟨inner, hinner, spelled⟩ := herror
    obtain rfl := Option.some.inj (hw.symm.trans hinner)
    have hreadable := hread.fields.2 _ (Json.mem_of_lookup hw)
    exact Decoder.optional_of_ok Draft.noConfusion
      (ErrorObject.decoder_object spelled .value 125 hreadable.fields.1)

/-- A field of a response is read into its slot, if nothing stands there yet. -/
lemma field_of_readable {p : Partial} {f : String × Json}
    (hlookup : Json.lookup f.1 fields = some f.2)
    (hversion : ∀ w, Json.lookup "jsonrpc" fields = some w → ∃ s, w = .string s)
    (hv : f.1 = "jsonrpc" → p.version = none) (hr : f.1 = "result" → p.result = none)
    (he : f.1 = "error" → p.error = none) (hi : f.1 = "id" → p.id = none) :
    (readerFrom .value).field p f.1 126 (Draft.ofValue f.2) = .ok (p.put error f) := by
  have hvalue (key : String) : setOnce key none Decoder.json 126 (Draft.ofValue f.2)
      = .ok (some f.2) := setOnce_none (hread.fields.2 f (Json.mem_of_lookup hlookup)).decode
  by_cases hkey : f.1 = "jsonrpc"
  · obtain ⟨s, hs⟩ := hversion f.2 (hkey ▸ hlookup)
    have hslot : setOnce "jsonrpc" none Decoder.string 126 (Draft.ofValue (.string s))
        = .ok (some s) := setOnce_none (Decoder.string_ofValue 126 s)
    simp only [readerFrom, hkey, hv hkey, hs, Partial.put]
    rw [hslot]
    rfl
  by_cases hkey : f.1 = "result"
  · simp only [readerFrom, hkey, hr hkey, Partial.put]
    rw [hvalue]
    rfl
  by_cases hkey : f.1 = "error"
  · have hslot : setOnce "error" none (Decoder.optional (ErrorObject.decoder .value)) 126
        (Draft.ofValue f.2) = .ok (some error) :=
      setOnce_none (decode_error herror hread (hkey ▸ hlookup))
    simp only [readerFrom, hkey, he hkey, Partial.put]
    rw [hslot]
    rfl
  by_cases hkey : f.1 = "id"
  · simp only [readerFrom, hkey, hi hkey, Partial.put]
    rw [hvalue]
    rfl
  · simp [readerFrom, Partial.put, Decoder.ignored_ofValue, Functor.map, Except.map]

lemma readFields_of_readable
    (hversion : ∀ w, Json.lookup "jsonrpc" fields = some w → ∃ s, w = .string s) :
    (readerFrom .value).readFields 126 ({} : Partial) (Draft.ofFields fields)
      = .ok (fields.foldl (Partial.put error) {}) := by
  have hkeys := hread.fields.1
  refine RecordReader.readFields_ofFields fun before f after hsplit => ?_
  have hlookup := Json.lookup_of_mem hkeys (f := f) (by simp [hsplit])
  rw [hsplit] at hkeys
  exact field_of_readable herror hread hlookup hversion
    (slot_foldl_of_fresh Partial.version Json.asText (version_put error) hkeys rfl)
    (slot_foldl_of_fresh Partial.result (fun v => v) (result_put error) hkeys rfl)
    (slot_foldl_of_fresh Partial.error (fun _ => error) (error_put error) hkeys rfl)
    (slot_foldl_of_fresh Partial.id (fun v => v) (id_put error) hkeys rfl)

/-- **A response** is read from an object that spells it, whatever other fields there are. -/
lemma decoder_object (hversion : ∀ w, Json.lookup "jsonrpc" fields = some w → ∃ s, w = .string s) :
    readJson decoder (.object fields) = .ok (ofFields error fields) := by
  have hkeys := hread.fields.1
  rw [readJson, Draft.ofValue, decoder, RecordReader.decoder_limit]
  change ((readerFrom .value).readFields 126 ({} : Partial) (Draft.ofFields fields)).bind _ = _
  rw [readFields_of_readable herror hread hversion]
  have hv := slot_foldl Partial.version Json.asText (version_put error) hkeys ({} : Partial)
  have hr := slot_foldl Partial.result (fun v => v) (result_put error) hkeys ({} : Partial)
  have he := slot_foldl Partial.error (fun _ => error) (error_put error) hkeys ({} : Partial)
  have hi := slot_foldl Partial.id (fun v => v) (id_put error) hkeys ({} : Partial)
  have hgiven : (fields.foldl (Partial.put error) {}).error.getD none = error := by
    rw [he]
    cases error with
    | none => cases Json.lookup "error" fields <;> rfl
    | some e =>
      obtain ⟨inner, hinner, -⟩ := herror
      rw [hinner]
      rfl
  simp [readerFrom, Except.bind, ofFields, hv, hr, hgiven, hi, pure, Except.pure]

end Response

/-- That an object answers the request with a number, with an error or without: it carries the
number, as a number or as a text that spells it; its version, if it has one, is a text; and it does
not look like a notification, which has a method and no error. -/
structure Response.Addressed (n : Nat) (error : Option ErrorObject)
    (fields : List (String × Json)) : Prop where
  id : ∃ id, Json.lookup "id" fields = some id
    ∧ (id = .int n ∨ ∃ s, id = .string s ∧ Natural.read? 0x1_0000_0000_0000_0000 s = some n)
  version : ∀ w, Json.lookup "jsonrpc" fields = some w → ∃ s, w = .string s
  error : HasError fields error
  method : Json.lookup "method" fields ≠ none → Json.lookup "error" fields ≠ none

/-- **An object that answers a request is taken for the response to it.** -/
theorem Response.classify_of_addressed {line : String} {n : Nat} {error : Option ErrorObject}
    {fields : List (String × Json)} (hline : Json.parse line = some (.object fields))
    (addressed : Addressed n error fields) :
    Frame.classify line = .ok (.response (ofFields error fields))
      ∧ (ofFields error fields).numericId = some n := by
  constructor
  · have hresponse : ((fields.map (·.1)).contains "method"
        && !(fields.map (·.1)).contains "error") = false := by
      simp only [Bool.and_eq_false_imp, List.contains_iff_mem, Bool.not_eq_false',
        Json.mem_keys_iff]
      exact addressed.method
    have hread := decoder_object addressed.error (Json.parse_spec hline) addressed.version
    simp only [Frame.classify, hline, hresponse, hread]
    rfl
  · obtain ⟨id, hid, hnumber | ⟨s, hs, hspelled⟩⟩ := addressed.id
    · simp [numericId, ofFields, hid, hnumber, Json.int]
    · simp [numericId, ofFields, hid, hs, hspelled]

end SilentScan
