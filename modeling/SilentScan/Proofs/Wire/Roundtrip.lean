/-
Frames and records that are read back.

A record is written with its fields in their declared order, and those that have their default
value may be left out. It is read from the text as it stands, or from the value that the text
spells, where the fields are in order of their keys. Either way it comes back as it was, as long as
the values inside have no floating numbers and do not nest too deep.

* `Request.readText_line`, `Response.classify_line`, `Notification.classify_line`: frames;
* `Natural.read?_toString`, `Response.numericId_of_echo`: the number of a request;
* `TxEntry.readBack`, `BlockTip.readBack`, `LabelSet.readBack`: other records;
* `written_reads_back`: all of it.
-/
import SilentScan.Chain.Tip
import SilentScan.Payment.Entry
import SilentScan.Payment.Labels
import SilentScan.Proofs.Attempt
import SilentScan.Proofs.Json.Plain
import SilentScan.Wire.Frame

namespace SilentScan

/-! ### Parts of records -/

namespace Decoder

variable (depth : Nat)

@[simp] lemma string_ofValue (s : String) : string depth (Draft.ofValue (.string s)) = .ok s :=
  rfl

lemma whole_ofValue (name : String) {low high n : Int} (hn : low ≤ n ∧ n ≤ high) :
    whole name low high depth (Draft.ofValue (.int n)) = .ok n :=
  if_pos hn

lemma i32_ofValue {n : Int} (hn : -0x8000_0000 ≤ n ∧ n ≤ 0x7FFF_FFFF) :
    i32 depth (Draft.ofValue (.int n)) = .ok n :=
  whole_ofValue depth _ hn

lemma i64_ofValue {n : Int} (hn : -0x8000_0000_0000_0000 ≤ n ∧ n ≤ 0x7FFF_FFFF_FFFF_FFFF) :
    i64 depth (Draft.ofValue (.int n)) = .ok n :=
  whole_ofValue depth _ hn

lemma u32_ofValue {n : Nat} (hn : n < 0x1_0000_0000) :
    u32 depth (Draft.ofValue (.int n)) = .ok n := by
  rw [u32, whole_ofValue depth _ ⟨by omega, by omega⟩]
  rfl

lemma optional_of_ok {α : Type} {read : Decoder α} {depth : Nat} {d : Draft} {a : α}
    (hd : d ≠ .null) (h : read depth d = .ok a) : optional read depth d = .ok (some a) := by
  unfold Decoder.optional
  split
  · exact absurd rfl hd
  · rw [h]
    rfl

end Decoder

lemma setOnce_none {α : Type} {field : String} {read : Decoder α} {depth : Nat} {d : Draft} {a : α}
    (h : read depth d = .ok a) : setOnce field none read depth d = .ok (some a) := by
  rw [setOnce, h]
  rfl

lemma Decoder.list_ofValue {α : Type} {read : Decoder α} {depth : Nat} {f : α → Json} {l : List α}
    (h : ∀ a ∈ l, read depth (Draft.ofValue (f a)) = .ok a) :
    list read (depth + 1) (Draft.ofValue (.array (l.map f))) = .ok l := by
  have hitems : (Draft.ofItems (l.map f)).mapM (read depth) = .ok l := by
    rw [Draft.ofItems_eq, List.map_map]
    exact mapM_map_eq_self h
  rw [Draft.ofValue, Decoder.list, hitems]
  rfl

/-- A record spelled as an object is read field by field. -/
lemma RecordReader.decoder_object {α : Type} (r : RecordReader α) (source : Source) (depth : Nat)
    (fields : List (Option String × Draft)) :
    r.decoder source (depth + 1) (.object fields true)
      = (r.readFields depth r.start fields).bind r.finish :=
  rfl

lemma RecordReader.decoder_limit {α : Type} (r : RecordReader α) (source : Source)
    (fields : List (Option String × Draft)) :
    r.decoder source Draft.depthLimit (.object fields true)
      = (r.readFields 126 r.start fields).bind r.finish :=
  rfl

/-! ### Frames -/

namespace Request

variable {q : Request} (hid : q.id.Plain 126) (hparams : q.params.Plain 126)
include hid hparams

/-- **A request** is read back from its line. -/
lemma readText_line : readText decoder q.line = .ok q := by
  have hfields : ∀ f ∈ [("jsonrpc", Json.string q.version), ("id", q.id),
      ("method", .string q.method), ("params", q.params)], f.2.Plain 126 := by
    simp [Json.plain_string, hid, hparams]
  rw [line, toRecord, Json.readText_record _ hfields, decoder, RecordReader.decoder_limit]
  simp [Draft.ofFields, RecordReader.readFields, reader, setOnce_none, hid.decode, hparams.decode,
    required, bind, Except.bind, pure, Except.pure]

end Request

/-- The draft of an error gives the error. -/
lemma ErrorObject.decoder_ofValue {e : ErrorObject} (source : Source) (depth : Nat)
    (hcode : -0x8000_0000_0000_0000 ≤ e.code ∧ e.code ≤ 0x7FFF_FFFF_FFFF_FFFF) :
    decoder source (depth + 1) (Draft.ofValue e.toJson) = .ok e := by
  have hread : Decoder.i64 depth (Draft.ofValue (.int e.code)) = .ok e.code :=
    Decoder.i64_ofValue depth hcode
  rw [decoder, toJson, Draft.ofValue, RecordReader.decoder_object]
  simp [Draft.ofFields, RecordReader.readFields, readerAs, setOnce_none, hread, required, bind,
    Except.bind, pure, Except.pure]

lemma ErrorObject.plain_toJson {e : ErrorObject} (depth : Nat)
    (hcode : -0x8000_0000_0000_0000 ≤ e.code ∧ e.code ≤ 0x7FFF_FFFF_FFFF_FFFF) :
    e.toJson.Plain (depth + 1) := by
  have hint : (Json.int e.code).Plain depth :=
    Json.plain_int depth ⟨hcode.1, hcode.2.trans (by decide)⟩
  refine Json.plain_object ?_ (by simp [hint, Json.plain_string])
  simp +decide [Json.Ascending]

namespace Response

/-- A response as it is found in the value of its line. -/
lemma sortFields_record (version result error id : Json) :
    Json.sortFields [("jsonrpc", version), ("result", result), ("error", error), ("id", id)]
        = [("error", error), ("id", id), ("jsonrpc", version), ("result", result)]
      ∧ Json.sortFields [("jsonrpc", version), ("result", result), ("id", id)]
        = [("id", id), ("jsonrpc", version), ("result", result)] := by
  constructor <;>
    simp +decide only [Json.sortFields, List.foldl_cons, List.foldl_nil, Json.putField, if_true,
      if_false]

/-- **A response** is the frame that its line holds. -/
lemma classify_line {r : Response} (hresult : r.result.Plain 126) (hid : r.id.Plain 126)
    (hcode : ∀ e ∈ r.error,
      -0x8000_0000_0000_0000 ≤ e.code ∧ e.code ≤ 0x7FFF_FFFF_FFFF_FFFF) :
    Frame.classify r.line = .ok (.response r) := by
  obtain ⟨version, result, error, id⟩ := r
  cases error with
  | none =>
    have hfields : ∀ f ∈ [("jsonrpc", Json.string version), ("result", result), ("id", id)],
        f.2.Plain 126 := by
      simp [Json.plain_string, hid, hresult]
    have hparse := Json.parse_record hfields
    rw [Json.ofFields, (sortFields_record _ _ .null _).2] at hparse
    have hread : readJson decoder (.object [("id", id), ("jsonrpc", .string version),
        ("result", result)]) = .ok { version, result, id } := by
      rw [readJson, Draft.ofValue, decoder, RecordReader.decoder_limit]
      simp [Draft.ofFields, RecordReader.readFields, readerFrom, setOnce_none, hid.decode,
        hresult.decode, bind, Except.bind, pure, Except.pure]
    simp [Frame.classify, line, toRecord, hparse, hread, Except.mapError, Except.map]
  | some e =>
    have hcode := hcode e rfl
    have herror : Decoder.optional (ErrorObject.decoder .value) 126 (Draft.ofValue e.toJson)
        = .ok (some e) :=
      Decoder.optional_of_ok Draft.noConfusion (ErrorObject.decoder_ofValue .value 125 hcode)
    have hfields : ∀ f ∈ [("jsonrpc", Json.string version), ("result", result),
        ("error", e.toJson), ("id", id)], f.2.Plain 126 := by
      simp [Json.plain_string, hid, hresult, ErrorObject.plain_toJson 125 hcode]
    have hparse := Json.parse_record hfields
    rw [Json.ofFields, (sortFields_record _ _ _ _).1] at hparse
    have hread : readJson decoder (.object [("error", e.toJson), ("id", id),
        ("jsonrpc", .string version), ("result", result)])
          = .ok { version, result, error := some e, id } := by
      rw [readJson, Draft.ofValue, decoder, RecordReader.decoder_limit]
      simp [Draft.ofFields, RecordReader.readFields, readerFrom, setOnce_none, hid.decode,
        hresult.decode, herror, bind, Except.bind, pure, Except.pure]
    simp [Frame.classify, line, toRecord, hparse, hread, Except.mapError, Except.map]

end Response

namespace Notification

/-- **A notification** is the frame that its line holds. -/
lemma classify_line {n : Notification} (hparams : n.params.Plain 126) :
    Frame.classify n.line = .ok (.notification n) := by
  have hfields : ∀ f ∈ [("jsonrpc", Json.string n.version), ("method", .string n.method),
      ("params", n.params)], f.2.Plain 126 := by
    simp [Json.plain_string, hparams]
  have hsorted : Json.sortFields [("jsonrpc", Json.string n.version), ("method", .string n.method),
      ("params", n.params)] = [("jsonrpc", .string n.version), ("method", .string n.method),
      ("params", n.params)] :=
    Json.sortFields_of_ascending (by simp +decide [Json.Ascending])
  have hparse := Json.parse_record hfields
  rw [Json.ofFields, hsorted] at hparse
  have hread : readJson decoder (.object [("jsonrpc", .string n.version),
      ("method", .string n.method), ("params", n.params)]) = .ok n := by
    rw [readJson, Draft.ofValue, decoder, RecordReader.decoder_limit]
    simp [Draft.ofFields, RecordReader.readFields, reader, setOnce_none, hparams.decode, required,
      bind, Except.bind, pure, Except.pure]
  simp [Frame.classify, line, toRecord, hparse, hread, Except.mapError, Except.map]

end Notification

/-! ### The number of a request -/

namespace Natural

/-- Digits without a sign spell the number that they are the digits of. -/
lemma readChars?_digits {bound : Nat} {ds : List Char} (hds : Draft.Digits ds)
    (hbound : ofDigits ds < bound) : readChars? bound ds = some (ofDigits ds) := by
  have hplus : ∀ rest, ds = '+' :: rest → False := by
    rintro rest rfl
    have hplus := hds.2 '+' List.mem_cons_self
    exact absurd hplus (by decide)
  rw [readChars?, if_pos ⟨hds.1, List.all_eq_true.2 hds.2, hbound⟩]
  exact hplus

/-- **A number below the bound** is read from its digits. -/
lemma read?_toString {bound n : Nat} (hn : n < bound) : read? bound (toString n) = some n := by
  have hvalue : ofDigits (Nat.toDigits 10 n) = n := Nat.ofDigitChars_ten_toDigits
  rw [read?, Nat.toString_eq_ofList_toDigits, String.toList_ofList,
    readChars?_digits (Draft.digits_toDigits n) (by rwa [hvalue]), hvalue]

end Natural

/-- **The number of a request** is found in a response that carries it on, as a number or as a
text. -/
lemma Response.numericId_of_echo {n : Nat} (hn : n < 0x1_0000_0000_0000_0000) (method : String)
    (params : Json) {r : Response}
    (hid : r.id = (Request.numbered n method params).id ∨ r.id = .string (toString n)) :
    r.numericId = some n := by
  rcases hid with hid | hid
  · simp [numericId, hid, Request.numbered, Json.int]
  · rw [numericId, hid]
    exact Natural.read?_toString hn

/-! ### Other records -/

/-- That a record is read back from its text as it is written and from the value that the text
spells, and from the text of this value, too. -/
structure ReadBack {α : Type} (read : Source → Decoder α) (record value : Json) (a : α) : Prop where
  straight : readText read record.text = .ok a
  parsed : Json.parse record.text = some value
  through : readJson read value = .ok a
  again : readText read value.text = .ok a ∧ Json.parse value.text = some value

/-- A record is read back if its fields are read in their declared order and in that of their
keys. -/
lemma readBack_of_fields {α : Type} {r : RecordReader α} {fields : List (String × Json)} {a : α}
    (hplain : ∀ f ∈ fields, f.2.Plain 126)
    (hdeclared : (r.readFields 126 r.start (Draft.ofFields fields)).bind r.finish = .ok a)
    (hsorted : (r.readFields 126 r.start (Draft.ofFields (Json.sortFields fields))).bind r.finish
      = .ok a) :
    ReadBack r.decoder (.object fields) (.ofFields fields) a := by
  have hplain' : ∀ f ∈ Json.sortFields fields, f.2.Plain 126 := fun f hf =>
    hplain f (Json.mem_sortFields hf)
  refine ⟨?_, Json.parse_record hplain, ?_, ?_, ?_⟩
  · rw [Json.readText_record _ hplain, RecordReader.decoder_limit, hdeclared]
  · rw [readJson, Json.ofFields, Draft.ofValue, RecordReader.decoder_limit, hsorted]
  · rw [Json.ofFields, Json.readText_record _ hplain', RecordReader.decoder_limit, hsorted]
  · have hparse := Json.parse_record hplain'
    rwa [Json.ofFields, Json.sortFields_of_ascending (Json.ascending_sortFields fields)] at hparse

/-- That the numbers of an entry are of their types: a signed word of 32 bits for the height, and
unsigned ones for the others. -/
structure TxEntry.Fits (e : TxEntry) : Prop where
  height : -0x8000_0000 ≤ e.height ∧ e.height ≤ 0x7FFF_FFFF
  position : e.position < 0x1_0000_0000
  outputIndex : ∀ i ∈ e.outputIndex, i < 0x1_0000_0000

namespace TxEntry

/-- The fields of an entry in order of their keys. -/
lemma sortFields_fields (e : TxEntry) :
    Json.sortFields e.fields
      = [("height", .int e.height)]
        ++ (match e.outputIndex with
            | some i => [("output_index", .int i)]
            | none => [])
        ++ (if e.position = 0 then [] else [("position", .int e.position)])
        ++ [("tweak_key", .string e.tweakKey), ("tx_hash", .string e.txHash)] := by
  obtain ⟨height, position, txHash, tweakKey, outputIndex⟩ := e
  by_cases hzero : position = 0 <;> cases outputIndex <;>
    simp +decide only [fields, hzero, Json.sortFields, List.cons_append, List.nil_append,
      List.append_nil, List.foldl_cons, List.foldl_nil, Json.putField, if_true, if_false]

/-- **An entry** is read back, though a position of zero and a missing output index are left out. -/
lemma readBack {e : TxEntry} (fits : e.Fits) : ReadBack decoder e.toRecord e.toJson e := by
  have hheight := Decoder.i32_ofValue 126 fits.height
  have hposition := Decoder.u32_ofValue 126 fits.position
  have hindex : ∀ i ∈ e.outputIndex,
      Decoder.optional .u32 126 (Draft.ofValue (.int i)) = .ok (some i) := fun i hi =>
    Decoder.optional_of_ok Draft.noConfusion (Decoder.u32_ofValue 126 (fits.outputIndex i hi))
  have hplain : ∀ f ∈ e.fields, f.2.Plain 126 := by
    have hplainHeight : (Json.int e.height).Plain 126 :=
      Json.plain_int 126 ⟨by have := fits.height; omega, by have := fits.height; omega⟩
    have hplainPosition := Json.plain_u32 126 fits.position
    have hplainIndex : ∀ i ∈ e.outputIndex, (Json.int i).Plain 126 := fun i hi =>
      Json.plain_u32 126 (fits.outputIndex i hi)
    by_cases hzero : e.position = 0 <;> cases hout : e.outputIndex <;>
      simp_all [fields, Json.plain_string]
  obtain ⟨height, position, txHash, tweakKey, outputIndex⟩ := e
  dsimp only at hheight hposition hindex
  refine readBack_of_fields hplain ?_ ?_
  · by_cases hzero : position = 0 <;> cases outputIndex <;>
      simp_all [fields, Draft.ofFields, RecordReader.readFields, reader, setOnce_none, required,
        bind, Except.bind, pure, Except.pure]
  · rw [sortFields_fields]
    by_cases hzero : position = 0 <;> cases outputIndex <;>
      simp_all [fields, Draft.ofFields, RecordReader.readFields, reader, setOnce_none, required,
        bind, Except.bind, pure, Except.pure]

end TxEntry

/-- **A tip** is read back. -/
lemma BlockTip.readBack {t : BlockTip} (hheight : t.height < 0x1_0000_0000) :
    ReadBack decoder t.toJson t.toJson t := by
  have hread := Decoder.u32_ofValue 126 hheight
  have hsorted : Json.sortFields [("height", Json.int t.height), ("hex", .string t.hex)]
      = [("height", .int t.height), ("hex", .string t.hex)] :=
    Json.sortFields_of_ascending (by simp +decide [Json.Ascending])
  have hfields : (reader.readFields 126 reader.start
      (Draft.ofFields [("height", .int t.height), ("hex", .string t.hex)])).bind reader.finish
        = .ok t := by
    simp [Draft.ofFields, RecordReader.readFields, reader, setOnce_none, hread, required, bind,
      Except.bind, pure, Except.pure]
  have hback := readBack_of_fields (by simp [Json.plain_u32 126 hheight, Json.plain_string])
    hfields (by rwa [hsorted])
  rwa [Json.ofFields, hsorted] at hback

namespace LabelSet

lemma insertAscending_above {n : Nat} {l : List Nat} (h : ∀ m ∈ l, m < n) :
    insertAscending n l = l ++ [n] := by
  induction l with
  | nil => rfl
  | cons m l ih =>
    obtain ⟨hm, hl⟩ := List.forall_mem_cons.1 h
    rw [insertAscending, if_neg (by omega), if_neg (by omega), ih hl, List.cons_append]

/-- Labels that ascend beyond those of a set are put at its end. -/
lemma positive_foldl_insert {s : LabelSet} {ls : List Nat}
    (hls : (s.positive ++ ls).Pairwise (· < ·)) (hrange : ∀ l ∈ ls, 0 < l ∧ l < 0x1_0000_0000) :
    (ls.foldl insert s).positive = s.positive ++ ls := by
  induction ls generalizing s with
  | nil => rw [List.foldl_nil, List.append_nil]
  | cons l ls ih =>
    obtain ⟨hl, hrange⟩ := List.forall_mem_cons.1 hrange
    have habove : ∀ m ∈ s.positive, m < l := fun m hm =>
      (List.pairwise_append.1 hls).2.2 m hm l List.mem_cons_self
    have hinsert : (s.insert l).positive = s.positive ++ [l] := by
      rw [insert, dif_pos hl]
      exact insertAscending_above habove
    rw [List.foldl_cons, ih (by simpa [hinsert] using hls) hrange, hinsert, List.append_assoc,
      List.singleton_append]

/-- A set is the set of its labels. -/
lemma ofList_toList (s : LabelSet) : ofList s.toList = s := by
  have hpositive : (ofList s.toList).positive = s.positive :=
    positive_foldl_insert (s := change) s.ascending s.inRange
  cases s
  exact (LabelSet.mk.injEq ..).mpr hpositive

/-- **A label set** is read back. -/
lemma readBack (s : LabelSet) : ReadBack decoder s.toJson s.toJson s := by
  have hrange : ∀ l ∈ s.toList, l < 0x1_0000_0000 :=
    List.forall_mem_cons.2 ⟨by decide, fun l hl => (s.inRange l hl).2⟩
  have hplain : s.toJson.Plain 127 := by
    refine Json.plain_array fun v hv => ?_
    obtain ⟨l, hl, rfl⟩ := List.mem_map.1 hv
    exact Json.plain_u32 126 (hrange l hl)
  have hread (source : Source) : decoder source 127 (Draft.ofValue s.toJson) = .ok s := by
    rw [decoder, toJson, Decoder.list_ofValue fun l hl => Decoder.u32_ofValue 126 (hrange l hl)]
    exact congrArg Except.ok s.ofList_toList
  have htext : readText decoder s.toJson.text = .ok s := by
    rw [Json.readText_text _ hplain.sound hplain.whole, Draft.depthLimit, hread]
  exact ⟨htext, Json.parse_text hplain, hread .value, htext, Json.parse_text hplain⟩

end LabelSet

/-! ### All of it -/

/-- **What is written is read back.** Let values have no floating numbers and nest at most to the
depth that is left inside a frame, and let numbers be of their types. Then a response and a
notification are the frames that their lines hold, a request is read from its line, and a response
that carries on the number of a request, as a number or as a text, is found to have it. Entries,
tips and label sets are read back from their texts, straight or through the values that the texts
spell, and from the texts of those values. -/
theorem written_reads_back :
    (∀ r : Response, r.result.Plain 126 → r.id.Plain 126 →
      (∀ e ∈ r.error,
        -0x8000_0000_0000_0000 ≤ e.code ∧ e.code ≤ 0x7FFF_FFFF_FFFF_FFFF) →
      Frame.classify r.line = .ok (.response r))
    ∧ (∀ n : Notification, n.params.Plain 126 → Frame.classify n.line = .ok (.notification n))
    ∧ (∀ q : Request, q.id.Plain 126 → q.params.Plain 126 → readText Request.decoder q.line = .ok q)
    ∧ (∀ (n : Nat) (method : String) (params : Json) (r : Response),
        n < 0x1_0000_0000_0000_0000 →
        r.id = (Request.numbered n method params).id ∨ r.id = .string (toString n) →
        r.numericId = some n)
    ∧ (∀ e : TxEntry, e.Fits → ReadBack TxEntry.decoder e.toRecord e.toJson e)
    ∧ (∀ t : BlockTip, t.height < 0x1_0000_0000 → ReadBack BlockTip.decoder t.toJson t.toJson t)
    ∧ ∀ s : LabelSet, ReadBack LabelSet.decoder s.toJson s.toJson s :=
  ⟨fun _ hresult hid hcode => Response.classify_line hresult hid hcode,
    fun _ hparams => Notification.classify_line hparams,
    fun _ hid hparams => Request.readText_line hid hparams,
    fun _ method params _ hn hid => Response.numericId_of_echo hn method params hid,
    fun _ fits => TxEntry.readBack fits,
    fun _ hheight => BlockTip.readBack hheight,
    LabelSet.readBack⟩

/-- An error that answers request 7, the news of a scan, a call, and other records. -/
theorem refusal_and_others_read_back :
    (let answer := Response.failure (.int 7) ⟨-32601, "unknown method"⟩;
      Frame.classify answer.line = .ok (.response answer) ∧ answer.numericId = some 7)
    ∧ (let news : Notification := { method := "scan.done", params := .array [.string "wallet"] };
      Frame.classify news.line = .ok (.notification news))
    ∧ (let call := Request.numbered 7 "server.ping" (.array []);
      readText Request.decoder call.line = .ok call)
    ∧ (let entry : TxEntry := { height := -1, txHash := "aa", tweakKey := "02",
                                outputIndex := some 3 };
      ReadBack TxEntry.decoder entry.toRecord entry.toJson entry)
    ∧ (let tip : BlockTip := ⟨840000, "00"⟩;
      ReadBack BlockTip.decoder tip.toJson tip.toJson tip)
    ∧ (let labels := LabelSet.ofList [5, 2];
      ReadBack LabelSet.decoder labels.toJson labels.toJson labels) := by
  have hid : (Json.int 7).Plain 126 := Json.plain_u32 126 (by decide)
  obtain ⟨responses, notifications, requests, numbers, entries, tips, sets⟩ := written_reads_back
  refine ⟨⟨responses _ (Json.plain_null 126) hid ?_, numbers 7 "server.ping" (.array []) _ ?_ ?_⟩,
    notifications _ ?_, requests _ hid ?_, entries _ ⟨?_, ?_, ?_⟩, tips _ ?_, sets _⟩
  · rintro e ⟨⟩
    decide
  · decide
  · exact .inl rfl
  · exact Json.plain_array (by simp [Json.plain_string])
  · exact Json.plain_array (by simp)
  · decide
  · decide
  · rintro i ⟨⟩
    decide
  · decide

end SilentScan
