/-
Replies, line by line.

A line leads to a reply unless it is blank. The reply is printed, so it is a single line, and what
is printed can be read, as long as the numbers in it can: those of the id come from the request,
those of the result from this server or from the outside. A batch is dealt with value by value, and
so are lines of one value each, so both come to the same.

* `replyId_of_ne_array`: the id under which a value is answered;
* `sound_verdict`: the numbers in a verdict can be read;
* `Response.Sound.read`: how a reply is read;
* `Response.AnswersTo`: that a reply is the one to a value;
* `play_handleLines_of_items`: lines that spell one value each;
* `line_answered`: the replies to a line, and those to the items of a batch.
-/
import SilentScan.Proofs.Json.Excerpts
import SilentScan.Proofs.Json.Plain
import SilentScan.Proofs.Protocol.Answers
import SilentScan.Proofs.Protocol.Conversation

namespace SilentScan

/-! ### Ids -/

/-- Filling a field that is a value. -/
lemma setOnce_json {field : String} {slot slot' : Option Json} {depth : Nat} {d : Draft}
    (h : setOnce field slot Decoder.json depth d = .ok slot') :
    slot = none ∧ slot' = d.value? depth := by
  cases slot with
  | some u => cases h
  | none =>
    obtain ⟨v, hread, rfl⟩ := exists_of_map_eq_ok h
    rw [Decoder.json] at hread
    split at hread
    · rename_i u hvalue
      cases hread
      exact ⟨rfl, hvalue.symm⟩
    · cases hread

/-- The other fields of a request leave its id. -/
lemma id_field_of_ne {p q : Request.Partial} {key : String} {depth : Nat} {d : Draft}
    (hkey : key ≠ "id") (h : Request.reader.field p key depth d = .ok q) : q.id = p.id := by
  simp only [Request.reader] at h
  split at h
  · obtain ⟨slot, -, h⟩ := exists_of_bind_eq_ok h
    cases h
    rfl
  · exact absurd rfl hkey
  · obtain ⟨slot, -, h⟩ := exists_of_bind_eq_ok h
    cases h
    rfl
  · obtain ⟨slot, -, h⟩ := exists_of_bind_eq_ok h
    cases h
    rfl
  · obtain ⟨-, -, h⟩ := exists_of_bind_eq_ok h
    cases h
    rfl

lemma id_field_id {p q : Request.Partial} {depth : Nat} {d : Draft}
    (h : Request.reader.field p "id" depth d = .ok q) : p.id = none ∧ q.id = d.value? depth := by
  obtain ⟨slot, hslot, h⟩ := exists_of_bind_eq_ok h
  cases h
  exact setOnce_json hslot

/-- After all fields the id is that of the fields, unless it was there before. -/
lemma id_readFields {p q : Request.Partial} {depth : Nat} {fields : List (String × Json)}
    (hvalues : ∀ f ∈ fields, (Draft.ofValue f.2).value? depth = some f.2)
    (h : Request.reader.readFields depth p (Draft.ofFields fields) = .ok q) :
    q.id = p.id.or (Json.lookup "id" fields) := by
  induction fields generalizing p with
  | nil =>
    cases h
    exact (Option.or_none).symm
  | cons f fields ih =>
    obtain ⟨k, v⟩ := f
    obtain ⟨hv, hrest⟩ := List.forall_mem_cons.1 hvalues
    obtain ⟨p', hp, h⟩ := exists_of_bind_eq_ok h
    rw [ih hrest h, Json.lookup]
    split
    · subst k
      obtain ⟨hnone, hid⟩ := id_field_id hp
      rw [hid, hnone, hv]
      rfl
    · rw [id_field_of_ne ‹_› hp]

/-- **The id of a request** that is an object is the value of its field. -/
lemma id_ofObject {fields : List (String × Json)}
    (hv : (Json.object fields).Readable Draft.depthLimit) {request : Request}
    (h : readJson Request.decoder (.object fields) = .ok request) :
    request.id = (Json.lookup "id" fields).getD .null := by
  obtain ⟨-, hordered⟩ := Json.ordered_object.1 hv.ordered
  have hnesting := Json.nestingFields_le.1 (Nat.le_of_succ_le_succ hv.nesting)
  obtain ⟨q, hq, h⟩ := exists_of_bind_eq_ok h
  have hid := id_readFields
    (fun f hf => Draft.value?_ofValue (hordered f hf) (hnesting f hf)) hq
  obtain ⟨method, -, h⟩ := exists_of_bind_eq_ok h
  cases h
  exact congrArg (fun o => Option.getD o Json.null) hid

/-- What is kept while a request is read. -/
lemma keeps_request :
    Request.reader.Keeps (fun p => ∀ v ∈ p.id, v.Sound) (fun r => r.id.Sound) where
  start := by simp [Request.reader]
  field p q key depth d hp hd h := by
    by_cases hkey : key = "id"
    · subst hkey
      rw [(id_field_id h).2]
      exact fun v hv => (Draft.value?_spec hd hv).sound
    · rw [id_field_of_ne hkey h]
      exact hp
  finish p r hp h := by
    obtain ⟨method, -, h⟩ := exists_of_bind_eq_ok h
    cases h
    exact getD_of_forall Json.Sound hp True.intro
  items depth items items' r hitems h := by
    obtain ⟨⟨version, items⟩, hversion, h⟩ := exists_of_bind_eq_ok h
    obtain ⟨⟨id, items⟩, hid, h⟩ := exists_of_bind_eq_ok h
    obtain ⟨⟨method, items⟩, -, h⟩ := exists_of_bind_eq_ok h
    obtain ⟨⟨params, items⟩, -, h⟩ := exists_of_bind_eq_ok h
    cases h
    have hrest := ((Decoder.yields_any _).next? hitems hversion).1
    exact getD_of_forall Json.Sound (Decoder.yields_json.next? hrest hid).2 True.intro

lemma sound_lookup {key : String} {fields : List (String × Json)}
    (h : ∀ f ∈ fields, Json.Sound f.2) : ((Json.lookup key fields).getD .null).Sound := by
  induction fields with
  | nil => exact True.intro
  | cons f fields ih =>
    obtain ⟨k, v⟩ := f
    obtain ⟨hv, hfields⟩ := List.forall_mem_cons.1 h
    rw [Json.lookup]
    split
    · exact hv
    · exact ih hfields

/-- **The id under which a value is answered** is that of its field. A value that is no object has
none, but an array may spell a request by its items. -/
lemma replyId_of_ne_array {v : Json} (hv : v.Readable Draft.depthLimit) (h : ∀ vs, v ≠ .array vs) :
    replyId v = (v.get? "id").getD .null := by
  rw [replyId]
  split
  · rename_i request hrequest
    cases v with
    | object fields => exact id_ofObject hv hrequest
    | array vs => exact absurd rfl (h vs)
    | _ => cases hrequest
  · rfl

/-- The numbers inside an id can be read, if those inside the request can. -/
lemma sound_replyId {v : Json} (hv : v.Sound) : (replyId v).Sound := by
  rw [replyId]
  split
  · exact Decoder.Yields.readJson (fun source => keeps_request.yields source) hv ‹_›
  · cases v with
    | object fields => exact sound_lookup (Json.sound_object.1 hv)
    | _ => exact True.intro

/-! ### Results -/

/-- Terms that reckon with such answers only. -/
def soundTerms : Terms where
  asks _ := True
  told q r := ∃ m : Moment, m.Sound ∧ r = m.answer q
  does _ := True
  sees _ _ := True

/-- That the code of an error fits. -/
def RpcError.Fits (e : RpcError) : Prop :=
  Number.Sound (.whole e.code)

/-- Only an error that is passed on could fail to. -/
lemma RpcError.fits_of_ne {e : RpcError} (h : ∀ code message, e ≠ .backend code message) :
    e.Fits := by
  cases e with
  | backend code message => exact absurd rfl (h code message)
  | _ => simp [Fits, Number.Sound, code]

lemma RpcError.fits_ofChain (e : ChainError) : (RpcError.ofChain e).Fits := by
  cases e <;> exact fits_of_ne (by simp [ofChain])

lemma sound_forwardReply {m : Moment} (hm : m.Sound) (method : String) (params : Json) :
    Verdict Json.Sound RpcError.Fits (forwardReply (m.other method params)) := by
  cases h : m.other method params with
  | error e => exact RpcError.fits_of_ne (by simp)
  | ok r =>
    obtain ⟨hresult, hcode⟩ := hm.response method params r h
    rw [forwardReply]
    cases herror : r.error with
    | none => exact hresult
    | some e => exact hcode e herror

lemma suit_soundTerms : soundTerms.Suit Json.Sound RpcError.Fits where
  asks _ := True.intro
  does _ _ _ := True.intro
  scan _ _ _ _ := True.intro
  invalid _ := RpcError.fits_of_ne (by simp)
  unlinked _ := RpcError.fits_of_ne (by simp)
  unknown _ := RpcError.fits_of_ne (by simp)
  failed _ e _ := RpcError.fits_ofChain e
  forwarded method params r h := by
    obtain ⟨m, hm, rfl⟩ := h
    exact sound_forwardReply hm method params
  null := True.intro
  text _ := True.intro
  features network := by
    refine Json.sound_object.2 fun f hf => ?_
    have hmem := Json.mem_sortFields hf
    simp only [List.mem_cons, List.not_mem_nil, or_false] at hmem
    rcases hmem with rfl | rfl | rfl | rfl | rfl | rfl | rfl <;> exact True.intro
  tip t h := by
    obtain ⟨m, hm, ht⟩ := h
    exact hm.tip t ht.symm
  fee blocks mode fee h := by
    obtain ⟨m, hm, hfee⟩ := h
    cases fee with
    | none => exact (by decide +kernel : defaultFeeRate.isFinite = true)
    | some d => exact hm.fee blocks mode d hfee.symm
  relayFee d h := by
    obtain ⟨m, hm, hd⟩ := h
    exact hm.relayFee d hd.symm
  transaction txid verbose v h := by
    obtain ⟨m, hm, hv⟩ := h
    exact hm.transaction txid verbose v hv.symm

lemma suitSettling_soundTerms : soundTerms.SuitSettling RpcError.Fits where
  asks _ := True.intro
  look := True.intro
  invalid _ := RpcError.fits_of_ne (by simp)
  unlinked _ := RpcError.fits_of_ne (by simp)
  unsupported _ := RpcError.fits_of_ne (by simp)
  nonsense _ := RpcError.fits_of_ne (by simp)
  failed params e h := by
    obtain ⟨m, hm, he⟩ := h
    have hverdict := sound_forwardReply hm "server.version" params
    rw [← show (.error e : Except RpcError Json) = forwardReply _ from he] at hverdict
    exact hverdict

/-- **Verdicts** hold numbers that can be read. -/
lemma sound_verdict (setting : ServiceSetting) {w : Circumstances} (hw : ∀ n, (w n).Sound) (n : Nat)
    (s : Session) (v : Json) :
    Verdict Json.Sound RpcError.Fits ((verdictOn setting v).run.play w n s).value := by
  have cover : soundTerms.Cover w (fun _ => True) (fun _ => True) :=
    { told := fun n q => ⟨w n, hw n, rfl⟩
      strike := fun _ _ _ => ⟨True.intro, fun _ _ => True.intro⟩
      perform := fun _ _ _ _ => ⟨True.intro, True.intro, fun _ _ => True.intro⟩ }
  have hkeeps : (verdictOn setting v).Keeps soundTerms Json.Sound RpcError.Fits := by
    rw [verdictOn]
    split
    · exact keeps_dispatch suit_soundTerms suitSettling_soundTerms
        (fun _ _ _ => RpcError.fits_of_ne (by simp)) (fun _ _ => True.intro)
        (fun v => ⟨True.intro, True.intro, True.intro⟩) setting _ _
    · exact Handling.keeps_throw (RpcError.fits_of_ne (by simp))
  exact (Dialogue.Keeps.play cover hkeeps n True.intro).value

/-! ### Replies as they are read -/

/-- That a text is a single line and spells a value, if enough nesting is allowed for. -/
structure LineSpells (text : String) (v : Json) : Prop where
  unbroken : '\n' ∉ text.toList ∧ '\r' ∉ text.toList
  spelled : ∃ depth, Json.parseWithin depth text = some v

/-- That a value is a reply under an id: it repeats the id, and it carries either an error with a
null result, or a result and no error. -/
def Json.Answers : (reply id : Json) → Prop
  | .object fields, id =>
    lookup "id" fields = some id
      ∧ ((∃ code message, lookup "error" fields
            = some (.object [("code", .int code), ("message", .string message)])
          ∧ lookup "result" fields = some .null)
        ∨ (lookup "error" fields = none ∧ ∃ result, lookup "result" fields = some result))
  | _, _ => False

/-- That a reply holds numbers that can be read, and no result beside an error. -/
structure Response.Sound (r : Response) : Prop where
  id : r.id.Sound
  result : r.result.Sound
  error : ∀ e ∈ r.error, Number.Sound (.whole e.code) ∧ r.result = .null

lemma lineSpells_text {depth : Nat} {v u : Json} (h : (Draft.ofPrinted v).value? depth = some u) :
    LineSpells v.text u where
  unbroken := by
    have hvisible := Json.visible_print v
    rw [Json.text, String.toList_ofList]
    exact ⟨fun hc => absurd (hvisible _ hc) (by decide),
      fun hc => absurd (hvisible _ hc) (by decide)⟩
  spelled := ⟨depth, (Json.parseWithin_text depth v).trans h⟩

/-- The text of a value whose numbers can be read spells a value. -/
lemma exists_lineSpells {v : Json} (hv : v.Sound) : ∃ u, LineSpells v.text u := by
  obtain ⟨u, hu⟩ := Option.isSome_iff_exists.1 (Draft.isSome_value?_ofPrinted hv le_rfl)
  exact ⟨u, lineSpells_text hu⟩

/-- The text of an object spells the object of what its values are read as. -/
lemma lineSpells_object {depth : Nat} {fields us : List (String × Json)}
    (h : Draft.fields? depth (Draft.ofPrintedFields fields) = some us) :
    LineSpells (Json.object fields).text (.ofFields us) := by
  have hvalue : (Draft.ofPrinted (.object fields)).value? (depth + 1) = some (.ofFields us) := by
    rw [Draft.ofPrinted, Draft.value?, h]
    rfl
  exact lineSpells_text hvalue

/-- An error object is read as it was. -/
lemma value?_errorObject (e : ErrorObject) (he : Number.Sound (.whole e.code)) (depth : Nat) :
    (Draft.ofPrinted e.toJson).value? (depth + 1) = some e.toJson := by
  have hcode : (Draft.ofPrinted (.int e.code)).value? depth = some (.int e.code) := by
    rw [Json.int, Draft.ofPrinted, Draft.reread_whole he]
    rfl
  have hkeys : "code" < "message" := by decide
  have hsorted : Json.ofFields [("code", .int e.code), ("message", .string e.message)] = e.toJson :=
    congrArg Json.object
      (Json.sortFields_of_ascending ⟨by simp, by simpa using hkeys, True.intro⟩)
  change (Draft.ofPrinted (.object [("code", .int e.code), ("message", .string e.message)])).value?
    (depth + 1) = some e.toJson
  rw [← hsorted]
  simp [Draft.ofPrintedFields, Draft.fields?, Draft.ofPrinted, hcode, Draft.value?]

/-- **A reply** is read as one, under what its id is read as. -/
lemma Response.Sound.read {r : Response} (hr : r.Sound) :
    ∃ u id, LineSpells r.line u ∧ LineSpells r.id.text id ∧ u.Answers id := by
  obtain ⟨depth, hdepth⟩ : ∃ depth, depth = max r.id.nesting r.result.nesting := ⟨_, rfl⟩
  obtain ⟨id, hid⟩ : ∃ id, (Draft.ofPrinted r.id).value? (depth + 1) = some id :=
    Option.isSome_iff_exists.1 (Draft.isSome_value?_ofPrinted hr.id (by omega))
  obtain ⟨result, hresult⟩ :
      ∃ result, (Draft.ofPrinted r.result).value? (depth + 1) = some result :=
    Option.isSome_iff_exists.1 (Draft.isSome_value?_ofPrinted hr.result (by omega))
  have hversion : (Draft.ofPrinted (.string r.version)).value? (depth + 1)
      = some (.string r.version) := rfl
  cases herror : r.error with
  | none =>
    have hfields : Draft.fields? (depth + 1) (Draft.ofPrintedFields
        [("jsonrpc", .string r.version), ("result", r.result), ("id", r.id)])
          = some [("jsonrpc", .string r.version), ("result", result), ("id", id)] := by
      simp [Draft.ofPrintedFields, Draft.fields?, hversion, hresult, hid]
    have hline : LineSpells r.line
        (.ofFields [("jsonrpc", .string r.version), ("result", result), ("id", id)]) := by
      rw [Response.line, Response.toRecord, herror]
      exact lineSpells_object hfields
    refine ⟨_, id, hline, lineSpells_text hid, ?_⟩
    simp [Json.Answers, Json.ofFields, Json.lookup_sortFields, Json.lookup]
  | some e =>
    obtain ⟨hcode, hnull⟩ := hr.error e herror
    have hobject := value?_errorObject e hcode depth
    rw [hnull] at hresult
    cases hresult
    have hfields : Draft.fields? (depth + 1) (Draft.ofPrintedFields
        [("jsonrpc", .string r.version), ("result", r.result), ("error", e.toJson), ("id", r.id)])
          = some [("jsonrpc", .string r.version), ("result", .null), ("error", e.toJson),
            ("id", id)] := by
      simp only [hnull, Draft.ofPrintedFields, Draft.fields?, hversion, hobject, hid]
      rfl
    have hline : LineSpells r.line
        (.ofFields [("jsonrpc", .string r.version), ("result", .null), ("error", e.toJson),
          ("id", id)]) := by
      rw [Response.line, Response.toRecord, herror]
      exact lineSpells_object hfields
    refine ⟨_, id, hline, lineSpells_text hid, ?_⟩
    simp [Json.Answers, Json.ofFields, Json.lookup_sortFields, Json.lookup, ErrorObject.toJson]

/-- That a reply is the one to a value: it carries the id of the value, and either an error and a
null result, or no error. Its line is read as such. -/
structure Response.AnswersTo (r : Response) (v : Json) : Prop where
  id : r.id = (v.get? "id").getD .null
  outcome : (∃ e, r.error = some e ∧ r.result = .null) ∨ r.error = none
  read : ∃ u id, LineSpells r.line u ∧ LineSpells r.id.text id ∧ u.Answers id

/-! ### Replies to values -/

section Dealings

variable (setting : ServiceSetting) {w : Circumstances}

lemma Response.id_ofVerdict (id : Json) (r : Except RpcError Json) : (ofVerdict id r).id = id := by
  cases r <;> rfl

/-- Beside an error the result is null. -/
lemma Response.error_ofVerdict (id : Json) (r : Except RpcError Json) :
    (∃ e, (ofVerdict id r).error = some e ∧ (ofVerdict id r).result = .null)
      ∨ (ofVerdict id r).error = none := by
  cases r with
  | ok result => exact .inr rfl
  | error e => exact .inl ⟨_, rfl, rfl⟩

/-- A verdict that holds numbers that can be read leads to such a reply. -/
lemma sound_ofVerdict {id : Json} (hid : id.Sound) {r : Except RpcError Json}
    (hr : Verdict Json.Sound RpcError.Fits r) : (Response.ofVerdict id r).Sound := by
  cases r with
  | ok result => exact ⟨hid, hr, by simp [Response.ofVerdict, Response.success]⟩
  | error e =>
    refine ⟨hid, True.intro, ?_⟩
    rintro e' he
    obtain rfl := Option.some.inj he
    exact ⟨hr, rfl⟩

/-- **Replies to values** hold numbers that can be read. -/
lemma sound_dealWith (hw : ∀ n, (w n).Sound) {vs : List Json}
    (hvs : ∀ v ∈ vs, v.Readable Draft.depthLimit) (n : Nat) (s : Session) :
    ∀ x ∈ dealWith setting w n s vs, x.reply.Sound := by
  induction vs generalizing n s with
  | nil => simp [dealWith]
  | cons v vs ih =>
    obtain ⟨hv, hvs⟩ := List.forall_mem_cons.1 hvs
    rw [dealWith]
    exact List.forall_mem_cons.2
      ⟨sound_ofVerdict (sound_replyId hv.sound) (sound_verdict setting hw n s v), ih hvs _ _⟩

/-- **A value that is no array** is answered under its own id. -/
lemma answersTo_ofVerdict (hw : ∀ n, (w n).Sound) {v : Json} (hv : v.Readable Draft.depthLimit)
    (h : ∀ vs, v ≠ .array vs) (n : Nat) (s : Session) :
    (Response.ofVerdict (replyId v) ((verdictOn setting v).run.play w n s).value).AnswersTo v where
  id := (Response.id_ofVerdict _ _).trans (replyId_of_ne_array hv h)
  outcome := Response.error_ofVerdict _ _
  read := (sound_ofVerdict (sound_replyId hv.sound) (sound_verdict setting hw n s v)).read

/-- Values none of which is an array are answered in their order, each under its own id. -/
lemma answersTo_dealWith (hw : ∀ n, (w n).Sound) {vs : List Json}
    (hvs : ∀ v ∈ vs, v.Readable Draft.depthLimit) (h : ∀ v ∈ vs, ∀ us, v ≠ .array us)
    (n : Nat) (s : Session) :
    List.Forall₂ (fun r v => r.AnswersTo v) ((dealWith setting w n s vs).map Dealing.reply) vs := by
  induction vs generalizing n s with
  | nil => exact .nil
  | cons v vs ih =>
    obtain ⟨hv, hvs⟩ := List.forall_mem_cons.1 hvs
    obtain ⟨hne, h⟩ := List.forall_mem_cons.1 h
    rw [dealWith]
    exact .cons (answersTo_ofVerdict setting hw hv hne n s) (ih hvs h _ _)

/-! ### Lines of one value -/

lemma valuesOf_of_ne_array {line : String} {v : Json} (h : Json.parse (Text.trim line) = some v)
    (hv : ∀ vs, v ≠ .array vs) : valuesOf line = [v] := by
  rw [valuesOf, h]
  cases v with
  | array vs => exact absurd rfl (hv vs)
  | _ => rfl

lemma lineReply_of_ne_array {line : String} {v : Json} (h : Json.parse (Text.trim line) = some v)
    (hv : ∀ vs, v ≠ .array vs) (x : Dealing) : lineReply line [x] = some x.reply.line := by
  rw [lineReply, if_neg (not_blank_of_parse h), h]
  cases v with
  | array vs => exact absurd rfl (hv vs)
  | _ => rfl

/-- Lines that spell a value each, none of them an array, are answered one by one. -/
lemma play_handleLines_of_items {lines : List String} {items : List Json}
    (h : List.Forall₂ (fun line v => Json.parse (Text.trim line) = some v) lines items)
    (hitems : ∀ v ∈ items, ∀ vs, v ≠ .array vs) (n : Nat) (s : Session) :
    (handleLines setting lines).play w n s
      = (gather n s (dealWith setting w n s items)).withValue
          ((dealWith setting w n s items).map fun x => some x.reply.line) := by
  induction h generalizing n s with
  | nil => rfl
  | cons hline _ ih =>
    obtain ⟨hv, hitems⟩ := List.forall_mem_cons.1 hitems
    rw [handleLines, Dialogue.play_bind]
    simp only [Dialogue.play_bind_pure, play_handleLine, valuesOf_of_ne_array hline hv, ih hitems,
      dealWith, gather, lineReply_of_ne_array hline hv, Course.andThen, Course.withValue,
      List.map_cons, List.append_nil]

/-! ### Replies to lines -/

/-- The values of a line can be read. -/
lemma readable_valuesOf (line : String) : ∀ v ∈ valuesOf line, v.Readable Draft.depthLimit := by
  rw [valuesOf]
  split
  · simp
  · rename_i items hparse
    have harray := Json.parse_spec hparse
    have hnesting := Json.nestingItems_le.1 (Nat.le_of_succ_le_succ harray.nesting)
    intro v hv
    exact ⟨Json.sound_array.1 harray.sound v hv, Json.ordered_array.1 harray.ordered v hv,
      (hnesting v hv).trans (Nat.le_succ _)⟩
  · rename_i v hparse
    simpa using Json.parse_spec hparse

/-- The record of such a reply. -/
lemma Response.Sound.toRecord {r : Response} (hr : r.Sound) : r.toRecord.Sound := by
  rw [Response.toRecord]
  cases herror : r.error with
  | none => exact ⟨True.intro, hr.result, hr.id, True.intro⟩
  | some e =>
    obtain ⟨hcode, -⟩ := hr.error e herror
    exact ⟨True.intro, hr.result, ⟨hcode, True.intro, True.intro⟩, hr.id, True.intro⟩

/-- The replies to a batch are read as an array of what they are read as one by one. -/
lemma lineSpells_batch {rs : List Response} (hrs : ∀ r ∈ rs, r.Sound) :
    ∃ us, LineSpells (Json.array (rs.map Response.toRecord)).text (.array us)
      ∧ List.Forall₂ (fun r u => LineSpells r.line u) rs us := by
  have hsound : ∀ v ∈ rs.map Response.toRecord, v.Sound :=
    List.forall_mem_map.2 fun r hr => (hrs r hr).toRecord
  obtain ⟨depth, hdepth⟩ : ∃ depth, depth = Json.nestingItems (rs.map Response.toRecord) := ⟨_, rfl⟩
  have hnesting := Json.nestingItems_le.1 hdepth.ge
  obtain ⟨us, hus⟩ := Option.isSome_iff_exists.1 (Draft.isSome_items? fun v hv =>
    Draft.isSome_value?_ofPrinted (hsound v hv) (hnesting v hv))
  have harray : (Draft.ofPrinted (.array (rs.map Response.toRecord))).value? (depth + 1)
      = some (.array us) := by
    rw [Draft.ofPrinted, Draft.value?, hus]
    rfl
  refine ⟨us, lineSpells_text harray, ?_⟩
  have hread := Draft.forall₂_of_items? hus
  rw [Draft.ofPrintedItems_eq, List.map_map, List.forall₂_map_left_iff] at hread
  exact hread.imp fun r u hu => lineSpells_text hu

/-- The reply to a line, by what the line spells. -/
lemma value_handleLine (n : Nat) (s : Session) (line : String) :
    ((handleLine setting line).play w n s).value
      = lineReply line (dealWith setting w n s (valuesOf line)) := by
  rw [play_handleLine]
  rfl

/-- The reply to a line that is answered is the text of a value whose numbers can be read. -/
lemma exists_sound_reply (hw : ∀ n, (w n).Sound) (n : Nat) (s : Session) {line : String}
    (hline : ¬ (Text.trim line).isEmpty = true) :
    ∃ v : Json, v.Sound ∧ ((handleLine setting line).play w n s).value = some v.text := by
  have hreplies := sound_dealWith setting hw (readable_valuesOf line) n s
  rw [value_handleLine, lineReply, if_neg hline]
  cases hparse : Json.parse (Text.trim line) with
  | none =>
    have hnull : Json.null.Sound := True.intro
    have hverdict : Verdict Json.Sound RpcError.Fits (.error (.parse FrameFault.notJson.message)) :=
      RpcError.fits_of_ne (by simp)
    exact ⟨_, (sound_ofVerdict hnull hverdict).toRecord, rfl⟩
  | some v =>
    cases v with
    | array items =>
      refine ⟨_, Json.sound_array.2 ?_, rfl⟩
      exact List.forall_mem_map.2 fun x hx => (hreplies x hx).toRecord
    | _ =>
      simp only [valuesOf, hparse, dealWith] at hreplies ⊢
      exact ⟨_, (hreplies _ List.mem_cons_self).toRecord, rfl⟩

/-- **Replies to lines.** In every state and circumstances a blank line gets no reply and every
other line one, which is a single line and spells a value. A value that is no array is answered
under its id, by an error beside a null result or by a result alone. A batch without nested ones is
answered by an array of one such reply for each item. There are lines that spell one item each, cut
out of the line of the batch, and the effects and the replies are those of any such lines in the
same order. All of this takes for granted that the numbers in answers from the outside can be read;
`Moment.sound_of_texts` shows that they can. -/
theorem line_answered (hw : ∀ n, (w n).Sound) (n : Nat) (s : Session) (line : String) :
    let c := (handleLine setting line).play w n s
    (c.value = none ↔ (Text.trim line).isEmpty = true)
      ∧ (∀ reply, c.value = some reply → ∃ v, LineSpells reply v)
      ∧ (∀ v, Json.parse (Text.trim line) = some v → (∀ vs, v ≠ .array vs) →
          ∃ r : Response, c.value = some r.line ∧ r.AnswersTo v)
      ∧ ∀ items, Json.parse (Text.trim line) = some (.array items) →
          (∀ v ∈ items, ∀ vs, v ≠ .array vs) →
          ∃ rs : List Response, List.Forall₂ (fun r v => r.AnswersTo v) rs items
            ∧ c.value = some (Json.array (rs.map Response.toRecord)).text
            ∧ (∃ us, LineSpells (Json.array (rs.map Response.toRecord)).text (.array us)
                ∧ List.Forall₂ (fun r u => LineSpells r.line u) rs us)
            ∧ (∃ lines : List String, List.Forall₂ (fun l v =>
                l.toList <:+: line.toList ∧ Json.parse (Text.trim l) = some v) lines items)
            ∧ ∀ lines, List.Forall₂ (fun l v => Json.parse (Text.trim l) = some v) lines items →
                (handleLines setting lines).play w n s
                  = c.withValue (rs.map fun r => some r.line) := by
  intro c
  have hreadable := readable_valuesOf line
  have hvalue : c.value = lineReply line (dealWith setting w n s (valuesOf line)) :=
    value_handleLine setting n s line
  refine ⟨⟨fun hnone => ?_, fun hblank => ?_⟩, fun reply hreply => ?_, fun v hparse hv => ?_,
    fun items hparse hitems => ?_⟩
  · by_contra hline
    obtain ⟨v, -, hsome⟩ := exists_sound_reply setting hw n s hline
    rw [hnone] at hsome
    cases hsome
  · rw [hvalue, lineReply, if_pos hblank]
  · have hline : ¬ (Text.trim line).isEmpty = true := by
      intro hblank
      rw [hvalue, lineReply, if_pos hblank] at hreply
      cases hreply
    obtain ⟨v, hv, hsome⟩ := exists_sound_reply setting hw n s hline
    obtain rfl : v.text = reply := Option.some.inj (hsome.symm.trans hreply)
    exact exists_lineSpells hv
  · have hvalues : valuesOf line = [v] := valuesOf_of_ne_array hparse hv
    rw [hvalues] at hreadable hvalue
    exact ⟨_, hvalue.trans (lineReply_of_ne_array hparse hv _),
      answersTo_ofVerdict setting hw (hreadable _ List.mem_cons_self) hv n s⟩
  · have hvalues : valuesOf line = items := by rw [valuesOf, hparse]
    rw [lineReply, if_neg (not_blank_of_parse hparse), hparse, hvalues] at hvalue
    rw [hvalues] at hreadable
    refine ⟨(dealWith setting w n s items).map Dealing.reply,
      answersTo_dealWith setting hw hreadable hitems n s, ?_, ?_,
      Draft.exists_lines_of_parse hparse, fun lines hlines => ?_⟩
    · rw [hvalue, List.map_map]
      rfl
    · exact lineSpells_batch (List.forall_mem_map.2 (sound_dealWith setting hw hreadable n s))
    · rw [play_handleLines_of_items setting hlines hitems, List.map_map]
      change _ = ((handleLine setting line).play w n s).withValue _
      rw [play_handleLine, hvalues]
      rfl

/-- A call by which a version is settled on. -/
def settlingCall : String :=
  "\x7b\"id\":\"a\",\"method\":\"server.version\"\x7d"

/-- A call without an id. -/
def bannerCall : String :=
  "\x7b\"method\":\"server.banner\"\x7d"

/-- Two calls in one batch, or in two lines. -/
theorem two_calls_answered :
    (∀ n, (quietCircumstances n).Sound)
      ∧ ∃ rs : List Response, rs.length = 2
        ∧ ((handleLine {} ("[" ++ settlingCall ++ "," ++ bannerCall ++ "]")).play
            quietCircumstances 0 { id := 0 }).value
          = some (Json.array (rs.map Response.toRecord)).text
        ∧ (handleLines {} [settlingCall, bannerCall]).play quietCircumstances 0 { id := 0 }
          = ((handleLine {} ("[" ++ settlingCall ++ "," ++ bannerCall ++ "]")).play
              quietCircumstances 0 { id := 0 }).withValue (rs.map fun r => some r.line) := by
  have hsound : ∀ n, (quietCircumstances n).Sound := fun n =>
    Moment.sound_of_texts (fun q => ⟨fun _ => .error (.io "down"), by simp, by cases q <;> rfl⟩)
      (by simp [quietCircumstances])
  have hfirst (depth : Nat) :
      (Json.object [("id", .string "a"), ("method", .string "server.version")]).Plain (depth + 1) :=
    Json.plain_object (by decide) (by simp [Json.plain_string])
  have hsecond (depth : Nat) :
      (Json.object [("method", .string "server.banner")]).Plain (depth + 1) :=
    Json.plain_object (by decide) (by simp [Json.plain_string])
  have hsettling : Json.parse (Text.trim settlingCall)
      = some (.object [("id", .string "a"), ("method", .string "server.version")]) :=
    Json.parse_of_eq_text (by decide +kernel) (hfirst 126)
  have hbanner : Json.parse (Text.trim bannerCall)
      = some (.object [("method", .string "server.banner")]) :=
    Json.parse_of_eq_text (by decide +kernel) (hsecond 126)
  have hbatch : Json.parse (Text.trim ("[" ++ settlingCall ++ "," ++ bannerCall ++ "]"))
      = some (.array [.object [("id", .string "a"), ("method", .string "server.version")],
          .object [("method", .string "server.banner")]]) :=
    Json.parse_of_eq_text (by decide +kernel)
      (Json.plain_array (by simpa using ⟨hfirst 125, hsecond 125⟩))
  obtain ⟨-, -, -, hall⟩ := line_answered {} hsound 0 { id := 0 }
    ("[" ++ settlingCall ++ "," ++ bannerCall ++ "]")
  obtain ⟨rs, hanswers, hvalue, -, -, hlines⟩ := hall _ hbatch (by simp)
  exact ⟨hsound, rs, hanswers.length_eq, hvalue,
    hlines [settlingCall, bannerCall] (.cons hsettling (.cons hbanner .nil))⟩

end Dealings

end SilentScan
