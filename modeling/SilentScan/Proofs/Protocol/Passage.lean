/-
Calls that are handed on.

Most methods that the other server answers are handed on as they are: the method and the parameters
of the client's request go out under a number of the link, and the result or the error that comes
back goes to the client under its own id. On the way the values are printed and read again several
times, and two ids are kept apart, while anything else may happen on the link.

* `PassedOn`, `answerCall_of_passedOn`: the methods that are handed on;
* `advance_handleRequest`, `advance_handleLine`: what the session does about such a call;
* `Link.Awaits`, `LinkCall.Sent`: a request that is on its way, and how it was sent;
* `Response.onward`, `LinkCall.Relayed`: what becomes of the reply;
* `call_relayed`: a call is sent as it came, and its reply comes back as it was;
* `replies_passed_over`: objects under its number that are not taken for its reply.
-/
import SilentScan.Proofs.Protocol.Conversation
import SilentScan.Proofs.Wire.Answering
import SilentScan.Proofs.Wire.Response
import SilentScan.Protocol.Forwarding
import SilentScan.Protocol.Methods

namespace SilentScan

/-! ### What the session does -/

/-- That calls of a method are handed on as they are: the other server answers it, and the session
has nothing else to do about it. -/
def PassedOn (method : String) : Prop :=
  isProxied method = true ∧ method ∉ ["server.version", "server.features",
    "blockchain.scripthash.subscribe", "blockchain.scripthash.unsubscribe"]

instance (method : String) : Decidable (PassedOn method) :=
  inferInstanceAs (Decidable (_ ∧ _))

lemma answerCall_of_passedOn {method : String} (h : PassedOn method) (setting : ServiceSetting)
    (raw : Json) : answerCall setting method raw = Handling.forward method raw := by
  obtain ⟨hproxied, hother⟩ := h
  unfold answerCall
  dsimp only
  split
  case h_14 => exact if_pos hproxied
  case h_3 | h_10 | h_11 => simp at hother
  all_goals exact absurd hproxied (by decide)

/-- The reply to a client that a response of the other server comes to: its error, or else its
result, under the id of the client's own request. -/
def Response.onward (id : Json) (r : Response) : Response :=
  match r.error with
  | some e => .failure id e
  | none => .success id r.result

lemma Response.ofVerdict_forwardReply (id : Json) (r : Response) :
    ofVerdict id (forwardReply (.ok r)) = r.onward id := by
  rw [forwardReply, onward]
  cases r.error <;> rfl

/-- A dialogue that waits for an answer still waits for it where something follows. -/
lemma Dialogue.advance_bind {α β : Type} {d : Dialogue α} {f : α → Dialogue β} {s s' : Session}
    {scans : List ScanRequest} {q : Question} {next : q.Reply → Dialogue α}
    (h : d.advance s = (s', scans, .waiting q next)) :
    (d.bind f).advance s = (s', scans, .waiting q fun r => (next r).bind f) := by
  induction d generalizing s scans with
  | done a => cases h
  | ask q' next' =>
    cases h
    rfl
  | move m next' ih =>
    simp only [bind, advance] at h ⊢
    obtain ⟨rfl, rfl, hwaiting⟩ := by simpa only [Prod.mk.injEq] using h
    have hrest : (next' (m.perform s).1).advance (m.perform s).2.1
        = (_, _, .waiting q next) := Prod.ext rfl (Prod.ext rfl hwaiting)
    rw [ih _ hrest]

/-- A line that holds a request waits for what the request waits for. -/
lemma advance_line_of_request {setting : ServiceSetting} {q : Request} {line : String}
    {fields : List (String × Json)} (hline : Json.parse (Text.trim line) = some (.object fields))
    (hq : readJson Request.decoder (.object fields) = .ok q) {s s' : Session}
    {scans : List ScanRequest} {question : Question} {next : question.Reply → Dialogue Response}
    (h : (handleRequest setting q).advance s = (s', scans, .waiting question next)) :
    (handleLine setting line).advance s
      = (s', scans,
          .waiting question fun r => (next r).bind fun reply => .done (some reply.line)) := by
  have hhandle : handleLine setting line
      = (handleRequest setting q).bind fun reply => .done (some reply.line) := by
    simp only [handleLine, not_blank_of_parse hline, hline, handleValue, hq]
    rfl
  rw [hhandle]
  exact Dialogue.advance_bind h

section Session

variable (setting : ServiceSetting) {session : Session} {q : Request}
  (hversion : session.version ≠ none) (hlinked : session.linked = true)
  (hmethod : PassedOn q.method)
include hversion hlinked hmethod

/-- **A call that is handed on** is answered as the other server answers it, and meanwhile the
session stays as it is. -/
lemma advance_handleRequest :
    ∃ next, (handleRequest setting q).advance session
        = (session, [], .waiting (.forward q.method q.params) next)
      ∧ ∀ outcome, next outcome = .done (.ofVerdict q.id outcome) := by
  have hne : q.method ≠ "server.version" := by
    rintro heq
    exact hmethod.2 (by simp [heq])
  have hanswer := answerCall_of_passedOn hmethod setting q.params
  obtain ⟨version, hsome⟩ := Option.ne_none_iff_exists'.1 hversion
  obtain ⟨id, peer, registry, connected, receiving, _, _, listeners⟩ := session
  dsimp only at hsome hlinked
  subst hsome hlinked
  simp only [handleRequest, dispatch, hne, if_false, hanswer]
  refine ⟨_, rfl, fun outcome => ?_⟩
  cases outcome <;> rfl

/-- The same for a line that holds a request. -/
lemma advance_handleLine {line : String} {fields : List (String × Json)}
    (hline : Json.parse (Text.trim line) = some (.object fields))
    (hq : readJson Request.decoder (.object fields) = .ok q) :
    ∃ next, (handleLine setting line).advance session
        = (session, [], .waiting (.forward q.method q.params) next)
      ∧ ∀ outcome, next outcome = .done (some (Response.ofVerdict q.id outcome).line) := by
  obtain ⟨next, hadvance, hnext⟩ := advance_handleRequest setting hversion hlinked hmethod
  refine ⟨_, advance_line_of_request hline hq hadvance, fun outcome => ?_⟩
  rw [hnext outcome]
  rfl

end Session

/-! ### What the link does -/

/-- That the request of a call is on its way: it has been registered under a number, and since then
no response to the number has come, the link has not failed, and the turn of the call has not ended;
and the reader of the link is at work. -/
structure Link.Awaits (ss : List LinkStep) (n : Nat) (c : LinkCall) (past since : List LinkEvent) :
    Prop where
  log : ({} : Link).log ss = past ++ .asked n c :: since
  silent : Silent n since
  unended : ∀ c' result, .ended (some n) c' result ∉ since
  reading : ((({} : Link).run ss).1.started && (({} : Link).run ss).1.reading) = true

/-- How a request was sent: the line written is read back as the call under its number, and no other
request has this number. -/
structure LinkCall.Sent (c : LinkCall) (ss : List LinkStep) (n : Nat)
    (past since : List LinkEvent) : Prop where
  written : (Request.numbered n c.method c.params).line
    ∈ (({} : Link).run ss).2.filterMap LinkEffect.line?
  legible : readText Request.decoder (Request.numbered n c.method c.params).line
    = .ok (.numbered n c.method c.params)
  own : ∀ c', .asked n c' ∉ past ++ since

namespace Link

variable {ss : List LinkStep} {n : Nat} {c : LinkCall} {past since : List LinkEvent}

/-- **A request that is on its way was sent** as the call has it, under a number of its own. -/
lemma Awaits.sent (h : Awaits ss n c past since) (hn : n < 0x1_0000_0000_0000_0000)
    (hparams : c.params.Plain 126) : c.Sent ss n past since where
  written := by
    rw [sendings_eq, h.log]
    simp [LinkEvent.asked?]
  legible := Request.readText_line (Json.plain_int 126 ⟨by omega, by omega⟩) hparams
  own c' hmem := by
    obtain hpast | hsince := List.mem_append.1 hmem
    · obtain ⟨before, between, rfl⟩ := List.append_of_mem hpast
      have hlog := h.log
      rw [List.append_assoc, List.cons_append] at hlog
      exact not_asked_again hlog c (by simp)
    · exact not_asked_again h.log c' hsince

/-- An object that answers the request is taken in as the response to it. -/
lemma Awaits.frame? (h : Awaits ss n c past since) {text : String} {error : Option ErrorObject}
    {fields : List (String × Json)}
    (htext : Json.parse (Text.trim text) = some (.object fields))
    (addressed : Response.Addressed n error fields) :
    (({} : Link).run ss).1.frame? text = some (.response (.ofFields error fields)) := by
  simp [Link.frame?, h.reading, not_blank_of_parse htext,
    (Response.classify_of_addressed htext addressed).1, Except.toOption]

end Link

/-! ### There and back -/

/-- What becomes of the reply to a request, once its caller goes on, given how the session waits for
it: the turn of the call ends with it, and with nothing else, and it comes to an answer that the
client is told and reads as it is. -/
structure LinkCall.Relayed (c : LinkCall) (course : List LinkStep) (n : Nat) (r : Response)
    (next : Except RpcError Json → Dialogue (Option String)) (answer : Response) : Prop where
  ends : .ended (some n) c (.ok r) ∈ ({} : Link).log course
  alone : ∀ c' result, .ended (some n) c' result ∈ ({} : Link).log course → c' = c ∧ result = .ok r
  told : .finished c.caller (.ok r) ∈ (({} : Link).run course).2
  replies : next (forwardReply (.ok r)) = .done (some answer.line)
  legible : Frame.classify answer.line = .ok (.response answer)

/-- The answer to a client that an object comes to is read as it is. -/
lemma Response.classify_onward {text : String} {error : Option ErrorObject} {id : Json}
    {reply : List (String × Json)} (htext : Json.parse (Text.trim text) = some (.object reply))
    (hid : id.Plain 126) (herror : HasError reply error)
    (hwhole : ∀ v, Json.lookup "result" reply = some v → v.Whole) :
    Frame.classify ((ofFields error reply).onward id).line
      = .ok (.response ((ofFields error reply).onward id)) := by
  cases error with
  | none =>
    have hresult : ((Json.lookup "result" reply).getD .null).Plain 126 := by
      cases hlookup : Json.lookup "result" reply with
      | none => exact Json.plain_null 126
      | some v =>
        have hread := (Json.parse_spec htext).fields.2 _ (Json.mem_of_lookup hlookup)
        exact ⟨hread, hwhole v hlookup⟩
    exact classify_line (r := success id _) hresult hid (by simp [success])
  | some e =>
    obtain ⟨inner, -, spelled⟩ := herror
    refine classify_line (r := failure id e) (Json.plain_null 126) hid fun e' he' => ?_
    obtain rfl := Option.some.inj he'
    exact spelled.range

/-- **A call that is handed on is sent as it came, and its reply comes back as it was.** A client
that has settled on a version sends a request which its session hands on. The session waits for the
other server and does nothing else. Once the request is on its way on the link, whatever has
happened there, it has been sent with the method and the parameters of the client, under a number
that no other request has. If now an object comes that answers this number, then whatever happens
afterwards the caller gets it, and the client is told its error or its result under the id of its
own, as a line that is read back as it is. -/
theorem call_relayed (setting : ServiceSetting) {session : Session}
    (hversion : session.version ≠ none) (hlinked : session.linked = true) {line : String}
    {fields : List (String × Json)} {q : Request}
    (hline : Json.parse (Text.trim line) = some (.object fields))
    (hq : readJson Request.decoder (.object fields) = .ok q) (hmethod : PassedOn q.method)
    (hid : q.id.Plain 126) (hparams : q.params.Plain 126) :
    ∃ next, (handleLine setting line).advance session
        = (session, [], .waiting (.forward q.method q.params) next)
      ∧ ∀ caller n ss past since, Link.Awaits ss n ⟨caller, q.method, q.params⟩ past since →
        n < 0x1_0000_0000_0000_0000 →
        LinkCall.Sent ⟨caller, q.method, q.params⟩ ss n past since
          ∧ ∀ text reply error, Json.parse (Text.trim text) = some (.object reply) →
            Response.Addressed n error reply →
            (∀ v, Json.lookup "result" reply = some v → v.Whole) →
            ∀ rest, (∀ cause, .writeFailed cause ∉ rest) →
              LinkCall.Relayed ⟨caller, q.method, q.params⟩
                (ss ++ .receive text :: (rest ++ [.wrote, .proceed])) n (.ofFields error reply) next
                ((Response.ofFields error reply).onward q.id) := by
  obtain ⟨next, hadvance, hnext⟩ :=
    advance_handleLine setting hversion hlinked hmethod hline hq
  refine ⟨next, hadvance, fun caller n ss past since awaits hn => ⟨awaits.sent hn hparams, ?_⟩⟩
  intro text reply error htext addressed hwhole rest hrest
  have hnumber := (Response.classify_of_addressed htext addressed).2
  obtain ⟨hends, halone⟩ := Link.answer_of_reply awaits.log awaits.silent awaits.unended
    (awaits.frame? htext addressed) hnumber hrest
  refine ⟨hends, halone, Link.told_of_ended hends, ?_,
    Response.classify_onward htext hid addressed.error hwhole⟩
  rw [hnext, Response.ofVerdict_forwardReply]

/-- A session that has settled on a version and has a link, to be used as an example. -/
def negotiatedSession : Session :=
  { id := 0, version := some .lowest, linked := true }

/-- A call to be used as an example. -/
def balanceCall : LinkCall :=
  ⟨0, "blockchain.scripthash.get_balance", .array [.string "ab"]⟩

/-- The request of a client for it, to be used as an example. -/
def balanceLine : String :=
  "\x7b\"id\":\"x\",\"method\":\"blockchain.scripthash.get_balance\",\"params\":[\"ab\"]\x7d"

/-- What it is read as, to be used as an example. -/
def balanceRequest : Request :=
  { id := .string "x", method := balanceCall.method, params := balanceCall.params }

lemma parse_balanceLine : Json.parse (Text.trim balanceLine)
    = some (.object [("id", .string "x"), ("method", .string "blockchain.scripthash.get_balance"),
      ("params", .array [.string "ab"])]) :=
  Json.parse_of_eq_fields (by decide +kernel) (by decide)
    (by simp [Json.plain_string, Json.plain_array])

lemma read_balanceRequest : readJson Request.decoder (.object [("id", .string "x"),
      ("method", .string "blockchain.scripthash.get_balance"), ("params", .array [.string "ab"])])
    = .ok balanceRequest := rfl

/-- How the call is sent on a link, to be used as an example. -/
def balanceSending : List LinkStep :=
  [.start, .call balanceCall, .proceed, .proceed, .proceed, .proceed, .wrote]

/-- The link then takes in the frame that a line holds. -/
lemma frame?_balanceSending {text : String} {v : Json}
    (h : Json.parse (Text.trim text) = some v) :
    (({} : Link).run balanceSending).1.frame? text
      = (Frame.classify (Text.trim text)).toOption := by
  have hreading : ((({} : Link).run balanceSending).1.started
      && (({} : Link).run balanceSending).1.reading) = true := rfl
  simp [Link.frame?, hreading, not_blank_of_parse h]

/-- The call is still on its way after a notification and a response to another request. -/
lemma balanceSending_awaits :
    Link.Awaits
      (balanceSending ++ [.receive "\x7b\"method\":\"m\"\x7d", .receive "\x7b\"id\":2\x7d"])
      1 balanceCall [.came balanceCall] [.took (.notification { method := "m", params := .null }),
        .took (.response (.success (.int 2) .null))] := by
  have hnotified : (({} : Link).run balanceSending).1.frame? "\x7b\"method\":\"m\"\x7d"
      = some (.notification { method := "m", params := .null }) := by
    have hparse : Json.parse (Text.trim "\x7b\"method\":\"m\"\x7d")
        = some (.object [("method", .string "m")]) :=
      Json.parse_of_eq_fields (by decide +kernel) (by decide) (by simp [Json.plain_string])
    rw [frame?_balanceSending hparse, Frame.classify, hparse]
    rfl
  have hother : (({} : Link).run balanceSending).1.frame? "\x7b\"id\":2\x7d"
      = some (.response (.success (.int 2) .null)) := by
    have hparse : Json.parse (Text.trim "\x7b\"id\":2\x7d") = some (.object [("id", .int 2)]) :=
      Json.parse_of_eq_fields (by decide +kernel) (by decide) (by simp [Json.plain_int])
    rw [frame?_balanceSending hparse, Frame.classify, hparse]
    rfl
  have hfirst : (({} : Link).run balanceSending).1.step (.receive "\x7b\"method\":\"m\"\x7d")
      = ((({} : Link).run balanceSending).1, [.notified { method := "m", params := .null }]) := by
    rw [Link.step_receive, hnotified]
  have hsecond : (({} : Link).run balanceSending).1.step (.receive "\x7b\"id\":2\x7d")
      = ((({} : Link).run balanceSending).1, []) := by
    rw [Link.step_receive, hother]
    rfl
  refine ⟨?_, ⟨by simp, ?_⟩, by simp, ?_⟩
  · rw [Link.log_append]
    simp only [Link.log, Link.events, Link.met, hnotified, hother, hfirst, hsecond]
    rfl
  · rintro r hr
    obtain rfl : r = .success (.int 2) .null := by simpa using hr
    simp [Response.numericId, Response.success, Json.int]
  · rw [Link.run_append]
    simp only [Link.run, hfirst, hsecond]
    rfl

/-- A client asks for a balance. After a notification and the reply to another request comes an
error under the number as a text, and then the link fails. -/
theorem refusal_relayed :
    ∃ next, (handleLine {} balanceLine).advance negotiatedSession
        = (negotiatedSession, [], .waiting (.forward balanceCall.method balanceCall.params) next)
      ∧ balanceCall.Relayed
          (balanceSending ++ [.receive "\x7b\"method\":\"m\"\x7d", .receive "\x7b\"id\":2\x7d"]
            ++ .receive "\x7b\"error\":\x7b\"code\":-5,\"message\":\"no\"\x7d,\"id\":\"1\"\x7d"
              :: ([.failPending .closed] ++ [.wrote, .proceed]))
          1 (.ofFields (some ⟨-5, "no"⟩) [("error", .object [("code", .int (-5)),
            ("message", .string "no")]), ("id", .string "1")]) next
          (.failure (.string "x") ⟨-5, "no"⟩) := by
  have hparams : balanceCall.params.Plain 126 := Json.plain_array (by simp [Json.plain_string])
  obtain ⟨next, hadvance, hrelayed⟩ := call_relayed {}
    (by simp [negotiatedSession] : negotiatedSession.version ≠ none) rfl parse_balanceLine
    read_balanceRequest (by decide) (Json.plain_string 126 "x") hparams
  refine ⟨next, hadvance, (hrelayed 0 1 _ _ _ balanceSending_awaits (by decide)).2 _ _ _ ?_ ?_ ?_ _
    ?_⟩
  · have herror : (Json.object [("code", .int (-5)), ("message", .string "no")]).Plain 126 :=
      Json.plain_object (by decide) (by simp [Json.plain_int, Json.plain_string])
    exact Json.parse_of_eq_fields (by decide +kernel) (by decide)
      (by simp [herror, Json.plain_string])
  · exact {
      id := ⟨.string "1", rfl, .inr ⟨"1", rfl, by decide⟩⟩
      version := by simp [Json.lookup]
      error := ⟨_, rfl, ⟨rfl, rfl, by decide⟩⟩
      method := by simp [Json.lookup] }
  · simp [Json.lookup]
  · simp

/-- Objects with the number of the request to be used as an example: one whose error has a code
beyond 64 bits with a sign, one with a method and no error, one whose error is a text and one whose
version is a number. -/
def oddReplies : List (String × List (String × Json)) :=
  [("\x7b\"error\":\x7b\"code\":9223372036854775808,\"message\":\"no\"\x7d,\"id\":1\x7d",
      [("error", .object [("code", .int 9223372036854775808), ("message", .string "no")]),
        ("id", .int 1)]),
    ("\x7b\"id\":1,\"method\":\"m\",\"result\":2\x7d",
      [("id", .int 1), ("method", .string "m"), ("result", .int 2)]),
    ("\x7b\"error\":\"no\",\"id\":1,\"result\":2\x7d",
      [("error", .string "no"), ("id", .int 1), ("result", .int 2)]),
    ("\x7b\"id\":1,\"jsonrpc\":2,\"result\":2\x7d",
      [("id", .int 1), ("jsonrpc", .int 2), ("result", .int 2)])]

lemma oddReplies_parse :
    ∀ reply ∈ oddReplies, Json.parse (Text.trim reply.1) = some (.object reply.2) := by
  have herror : (Json.object [("code", .int 9223372036854775808),
      ("message", .string "no")]).Plain 126 :=
    Json.plain_object (by decide) (by simp [Json.plain_int, Json.plain_string])
  have hkeys : ∀ reply ∈ oddReplies, Json.Ascending none (reply.2.map (·.1)) := by decide
  have hfields : ∀ reply ∈ oddReplies, ∀ f ∈ reply.2, f.2.Plain 126 := by
    simp only [oddReplies, List.forall_mem_cons]
    simp [herror, Json.plain_int, Json.plain_string]
  have htext : ∀ reply ∈ oddReplies, Text.trim reply.1 = (Json.object reply.2).text := by
    simp only [oddReplies, List.forall_mem_cons]
    decide +kernel
  exact fun reply hreply =>
    Json.parse_of_eq_fields (htext reply hreply) (hkeys reply hreply) (hfields reply hreply)

/-- At most a notification is taken in with one of them, so that the link stays as it is. -/
lemma oddReplies_step :
    ∀ reply ∈ oddReplies, ∃ more : List Notification,
      (({} : Link).run balanceSending).1.step (.receive reply.1)
        = ((({} : Link).run balanceSending).1, more.map .notified) := by
  intro reply hreply
  have hparse := oddReplies_parse reply hreply
  rw [Link.step_receive, frame?_balanceSending hparse, Frame.classify, hparse]
  revert reply
  simp only [oddReplies, List.forall_mem_cons]
  exact ⟨fun _ => ⟨[], rfl⟩, fun _ => ⟨[{ method := "m", params := .null }], rfl⟩,
    fun _ => ⟨[], rfl⟩, fun _ => ⟨[], rfl⟩, by simp⟩

/-- None of these is taken for the reply: the caller gets none before its time is up, and the
client is told so. -/
theorem replies_passed_over :
    ∃ next, (handleLine {} balanceLine).advance negotiatedSession
        = (negotiatedSession, [], .waiting (.forward balanceCall.method balanceCall.params) next)
      ∧ ∀ reply ∈ oddReplies, Json.parse (Text.trim reply.1) = some (.object reply.2)
          ∧ Json.lookup "id" reply.2 = some (.int 1)
          ∧ (({} : Link).run (balanceSending ++ [.receive reply.1, .expire 5])).2.filterMap
              LinkEffect.finished? = [(0, .error (.timeout 5))]
          ∧ next (forwardReply (.error (.timeout 5))) = .done (some (Response.failure (.string "x")
              ⟨5, "backend transport: no response within 5 ms"⟩).line) := by
  obtain ⟨next, hadvance, hnext⟩ := advance_handleLine {}
    (by simp [negotiatedSession] : negotiatedSession.version ≠ none) rfl (by decide)
    parse_balanceLine read_balanceRequest
  have hwording : (RpcError.transport (.timeout 5)).toObject
      = ⟨5, "backend transport: no response within 5 ms"⟩ := by decide
  have htold : next (.error (.transport (.timeout 5))) = .done (some (Response.failure (.string "x")
      ⟨5, "backend transport: no response within 5 ms"⟩).line) := by
    rw [hnext, Response.ofVerdict, hwording]
    rfl
  refine ⟨next, hadvance, fun reply hreply => ⟨oddReplies_parse reply hreply, ?_, ?_, htold⟩⟩
  · revert reply
    simp [oddReplies, Json.lookup]
  · obtain ⟨more, hstep⟩ := oddReplies_step reply hreply
    have hnone : (more.map LinkEffect.notified).filterMap LinkEffect.finished? = [] := by
      simp [LinkEffect.finished?]
    simp only [Link.run_append, Link.run, hstep, List.filterMap_append, hnone]
    rfl

end SilentScan
