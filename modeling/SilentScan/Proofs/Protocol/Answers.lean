/-
Answers from the outside.

What the full node and the other server answer comes as text, so the numbers in it are ones that can
be read: whole within 64 bits, or finite. This is all that has to be known of the answers for the
replies to clients to be readable in turn.

* `Moment.Sound`: that the numbers in all answers can be read;
* `Moment.sound_of_texts`: they can, if the answers have been read from texts.
-/
import SilentScan.Chain.Inquiry
import SilentScan.Proofs.Json.Records
import SilentScan.Proofs.Protocol.Course

namespace SilentScan

/-- That the numbers in what the outside would answer are ones that can be read. -/
structure Moment.Sound (m : Moment) : Prop where
  tip : ∀ t, m.node .tip = .ok t → t.toJson.Sound
  fee : ∀ blocks mode d, m.node (.estimateFee blocks mode) = .ok (some d) → d.isFinite = true
  relayFee : ∀ d, m.node .relayFee = .ok d → d.isFinite = true
  transaction : ∀ txid verbose v, m.node (.transaction txid verbose) = .ok v → v.Sound
  response : ∀ method params r, m.other method params = .ok r →
    r.result.Sound ∧ ∀ e ∈ r.error, Number.Sound (.whole e.code)

/-! ### Responses of the other server -/

/-- What is kept while an error object is read. -/
lemma keeps_errorObject (name : String) :
    (ErrorObject.readerAs name).Keeps (fun p => ∀ n ∈ p.code, Number.Sound (.whole n))
      (fun e => Number.Sound (.whole e.code)) where
  start := by simp [ErrorObject.readerAs]
  field p q key depth d hp hd h := by
    simp only [ErrorObject.readerAs] at h
    split at h
    · obtain ⟨slot, hslot, h⟩ := exists_of_bind_eq_ok h
      cases h
      exact Decoder.yields_i64.setOnce hd hslot
    · obtain ⟨slot, -, h⟩ := exists_of_bind_eq_ok h
      cases h
      exact hp
    · obtain ⟨-, -, h⟩ := exists_of_bind_eq_ok h
      cases h
      exact hp
  finish p e hp h := by
    obtain ⟨code, hcode, h⟩ := exists_of_bind_eq_ok h
    obtain ⟨message, -, h⟩ := exists_of_bind_eq_ok h
    cases h
    exact of_required (fun n => Number.Sound (.whole n)) hp hcode
  items depth items items' e hitems h := by
    obtain ⟨⟨code, rest⟩, hcode, h⟩ := exists_of_bind_eq_ok h
    obtain ⟨⟨message, rest'⟩, -, h⟩ := exists_of_bind_eq_ok h
    cases h
    exact (Decoder.yields_i64.next hitems hcode).2

/-- That the numbers in a response can be read. -/
def Response.Fits (r : Response) : Prop :=
  r.result.Sound ∧ ∀ e ∈ r.error, Number.Sound (.whole e.code)

/-- What is kept while a response is read. -/
lemma keeps_response (source : Source) :
    (Response.readerFrom source).Keeps
      (fun p => (∀ v ∈ p.result, v.Sound) ∧ ∀ o ∈ p.error, ∀ e ∈ o, Number.Sound (.whole e.code))
      Response.Fits where
  start := by simp [Response.readerFrom]
  field p q key depth d hp hd h := by
    simp only [Response.readerFrom] at h
    split at h
    · obtain ⟨slot, -, h⟩ := exists_of_bind_eq_ok h
      cases h
      exact hp
    · obtain ⟨slot, hslot, h⟩ := exists_of_bind_eq_ok h
      cases h
      exact ⟨Decoder.yields_json.setOnce hd hslot, hp.2⟩
    · obtain ⟨slot, hslot, h⟩ := exists_of_bind_eq_ok h
      cases h
      have herror := ((keeps_errorObject "ErrorObject").yields source).optional
      exact ⟨hp.1, herror.setOnce hd hslot⟩
    · obtain ⟨slot, -, h⟩ := exists_of_bind_eq_ok h
      cases h
      exact hp
    · obtain ⟨-, -, h⟩ := exists_of_bind_eq_ok h
      cases h
      exact hp
  finish p r hp h := by
    cases h
    exact ⟨getD_of_forall Json.Sound hp.1 True.intro,
      getD_of_forall (fun o : Option ErrorObject => ∀ e ∈ o, Number.Sound (.whole e.code)) hp.2
        (by simp)⟩
  items depth items items' r hitems h := by
    obtain ⟨⟨version, items⟩, hversion, h⟩ := exists_of_bind_eq_ok h
    obtain ⟨⟨result, items⟩, hresult, h⟩ := exists_of_bind_eq_ok h
    obtain ⟨⟨error, items⟩, herror, h⟩ := exists_of_bind_eq_ok h
    obtain ⟨⟨id, items⟩, -, h⟩ := exists_of_bind_eq_ok h
    cases h
    have hrest := ((Decoder.yields_any _).next? hitems hversion).1
    obtain ⟨hrest, hsound⟩ := Decoder.yields_json.next? hrest hresult
    have hcode :=
      (((keeps_errorObject "ErrorObject").yields source).optional.next? hrest herror).2
    exact ⟨getD_of_forall Json.Sound hsound True.intro,
      getD_of_forall (fun o : Option ErrorObject => ∀ e ∈ o, Number.Sound (.whole e.code)) hcode
        (by simp)⟩

/-- **A response that has been read** from a line. -/
lemma fits_of_classify {line : String} {r : Response}
    (h : Frame.classify line = .ok (.response r)) : r.Fits := by
  rw [Frame.classify] at h
  split at h
  · cases h
  · rename_i v hparse
    split at h
    · rename_i fields
      dsimp only at h
      split at h
      · cases hread : readJson Notification.decoder (.object fields) <;>
          simp [hread, Except.mapError, Except.map] at h
      · cases hread : readJson Response.decoder (.object fields) with
        | error e => simp [hread, Except.mapError, Except.map] at h
        | ok r' =>
          simp only [hread, Except.mapError, Except.map, Except.ok.injEq, Frame.response.injEq] at h
          subst h
          exact Decoder.Yields.readJson (fun source => (keeps_response source).yields source)
            (Json.parse_spec hparse).sound hread
    · cases h

/-! ### Replies of the full node -/

/-- That the numbers in the result of a command can be read. -/
def NodeCommand.Fits : (c : NodeCommand) → c.Reply → Prop
  | .headerInfo _, info => Number.Sound (.whole info.height)
  | .feeEstimate _ _, fee => ∀ d ∈ fee, d.isFinite = true
  | .mempoolInfo, d => d.isFinite = true
  | .transaction _ _, v => v.Sound
  | _, _ => True

/-- What is kept while a header is read. -/
lemma keeps_headerInfo :
    HeaderInfo.reader.Keeps (fun p => ∀ n ∈ p.height, Number.Sound (.whole (n : Nat)))
      (fun info => Number.Sound (.whole info.height)) where
  start := by simp [HeaderInfo.reader]
  field p q key depth d hp hd h := by
    simp only [HeaderInfo.reader] at h
    split at h
    · obtain ⟨slot, hslot, h⟩ := exists_of_bind_eq_ok h
      cases h
      exact Decoder.yields_u32.setOnce hd hslot
    · obtain ⟨slot, -, h⟩ := exists_of_bind_eq_ok h
      cases h
      exact hp
    · obtain ⟨-, -, h⟩ := exists_of_bind_eq_ok h
      cases h
      exact hp
  finish p info hp h := by
    obtain ⟨height, hheight, h⟩ := exists_of_bind_eq_ok h
    obtain ⟨time, -, h⟩ := exists_of_bind_eq_ok h
    cases h
    exact of_required (fun n : Nat => Number.Sound (.whole n)) hp hheight
  items depth items items' info hitems h := by
    obtain ⟨⟨height, rest⟩, hheight, h⟩ := exists_of_bind_eq_ok h
    obtain ⟨⟨time, rest'⟩, -, h⟩ := exists_of_bind_eq_ok h
    cases h
    exact (Decoder.yields_u32.next hitems hheight).2

/-- What is kept while a record with one field is read. -/
lemma keeps_soleField {α : Type} {read : Decoder α} {good : α → Prop} (hread : read.Yields good)
    (name key : String) {absent : Option α} (habsent : ∀ a ∈ absent, good a) :
    (soleFieldReader name key read absent).Keeps (fun p : Option α => ∀ a ∈ p, good a) good where
  start := by simp [soleFieldReader]
  field p q k depth d hp hd h := by
    simp only [soleFieldReader] at h
    split at h
    · exact hread.setOnce hd h
    · obtain ⟨-, -, h⟩ := exists_of_bind_eq_ok h
      cases h
      exact hp
  finish p a hp h := by
    refine of_required good ?_ h
    intro b hb
    rcases Option.or_eq_some_iff.1 hb with hb | ⟨-, hb⟩
    · exact hp b hb
    · exact habsent b hb
  items depth items items' a hitems h := (hread.next hitems h).2

/-- What is kept while an answer is read. -/
lemma keeps_nodeReply {α : Type} {read : Decoder α} {good : α → Prop} (hread : read.Yields good)
    (source : Source) :
    (NodeReply.reader source read).Keeps (fun p => ∀ o ∈ p.result, ∀ a ∈ o, good a)
      (fun r => ∀ a ∈ r.result, good a) where
  start := by simp [NodeReply.reader]
  field p q key depth d hp hd h := by
    simp only [NodeReply.reader] at h
    split at h
    · obtain ⟨slot, hslot, h⟩ := exists_of_bind_eq_ok h
      cases h
      exact hread.optional.setOnce hd hslot
    · obtain ⟨slot, -, h⟩ := exists_of_bind_eq_ok h
      cases h
      exact hp
    · obtain ⟨-, -, h⟩ := exists_of_bind_eq_ok h
      cases h
      exact hp
  finish p r hp h := by
    cases h
    intro a ha
    exact hp (some a) (Option.join_eq_some_iff.1 ha) a rfl
  items depth items items' r hitems h := by
    obtain ⟨⟨result, rest⟩, hresult, h⟩ := exists_of_bind_eq_ok h
    obtain ⟨⟨error, rest'⟩, -, h⟩ := exists_of_bind_eq_ok h
    cases h
    exact (hread.optional.next hitems hresult).2

/-- **The result of a command** that has been read. -/
lemma fits_of_readReply {c : NodeCommand} {status : Nat} {text : String} {a : c.Reply}
    (h : c.readReply status text = .ok a) : c.Fits a := by
  have hreply : ∀ source, (c.reply source).Yields c.Fits := by
    intro source
    cases c with
    | headerInfo hash => exact keeps_headerInfo.yields source
    | feeEstimate blocks mode =>
      exact (keeps_soleField Decoder.yields_f64.optional _ _ (by simp)).yields source
    | mempoolInfo => exact (keeps_soleField Decoder.yields_f64 _ _ (by simp)).yields source
    | transaction txid verbose => exact Decoder.yields_json
    | _ => exact Decoder.yields_any _
  rw [NodeCommand.readReply] at h
  split at h
  · cases h
  · cases h
  · rename_i result hread
    cases h
    exact Decoder.Yields.readText
      (fun source => (keeps_nodeReply (hreply source) source).yields source) hread a rfl
  · cases h

lemma run_command (answer : (c : NodeCommand) → Except ChainError c.Reply) (c : NodeCommand) :
    (Inquiry.command c).run answer = answer c := by
  simp [Inquiry.command, Inquiry.run]

/-- The tip that is put together has the height of the header. -/
lemma exists_headerInfo {answer : (c : NodeCommand) → Except ChainError c.Reply} {t : BlockTip}
    (h : NodeQuery.tip.inquiry.run answer = .ok t) :
    ∃ hash info, answer (.headerInfo hash) = .ok info ∧ t.height = info.height := by
  change (do
    let hash ← answer .bestBlockHash
    let info ← answer (.headerInfo hash)
    let hex ← answer (.header hash)
    return ({ height := info.height, hex } : BlockTip)) = .ok t at h
  obtain ⟨hash, -, h⟩ := exists_of_bind_eq_ok h
  obtain ⟨info, hinfo, h⟩ := exists_of_bind_eq_ok h
  obtain ⟨hex, -, h⟩ := exists_of_bind_eq_ok h
  cases h
  exact ⟨hash, info, hinfo, rfl⟩

/-- **Answers that have been read from texts**, those of the full node command by command, hold
numbers that can be read. -/
theorem Moment.sound_of_texts {m : Moment}
    (hnode : ∀ q, ∃ answer : (c : NodeCommand) → Except ChainError c.Reply,
      (∀ c a, answer c = .ok a → ∃ status text, c.readReply status text = .ok a)
        ∧ m.node q = q.inquiry.run answer)
    (hother : ∀ method params r, m.other method params = .ok r →
      ∃ line, Frame.classify line = .ok (.response r)) : m.Sound := by
  have hfits : ∀ {answer : (c : NodeCommand) → Except ChainError c.Reply},
      (∀ c a, answer c = .ok a → ∃ status text, c.readReply status text = .ok a) →
      ∀ c a, answer c = .ok a → c.Fits a := by
    intro answer hanswer c a ha
    obtain ⟨status, text, hread⟩ := hanswer c a ha
    exact fits_of_readReply hread
  refine ⟨fun t ht => ?_, fun blocks mode d hd => ?_, fun d hd => ?_, fun txid verbose v hv => ?_,
    fun method params r hr => ?_⟩
  · obtain ⟨answer, hanswer, heq⟩ := hnode .tip
    rw [heq] at ht
    obtain ⟨hash, info, hinfo, hheight⟩ := exists_headerInfo ht
    have hsound : Number.Sound (.whole t.height) := hheight ▸ hfits hanswer _ _ hinfo
    exact ⟨hsound, True.intro, True.intro⟩
  · obtain ⟨answer, hanswer, heq⟩ := hnode (.estimateFee blocks mode)
    rw [heq, NodeQuery.inquiry, run_command] at hd
    exact hfits hanswer _ _ hd d rfl
  · obtain ⟨answer, hanswer, heq⟩ := hnode .relayFee
    rw [heq, NodeQuery.inquiry, run_command] at hd
    exact hfits hanswer _ _ hd
  · obtain ⟨answer, hanswer, heq⟩ := hnode (.transaction txid verbose)
    rw [heq, NodeQuery.inquiry, run_command] at hv
    exact hfits hanswer _ _ hv
  · obtain ⟨line, hline⟩ := hother method params r hr
    exact fits_of_classify hline

end SilentScan
