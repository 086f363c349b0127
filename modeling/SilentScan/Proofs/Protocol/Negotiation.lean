/-
The settling of a version in the course of a conversation.

Until a version has been settled on, a session answers nothing else: other requests are refused
after one look at the session, and the search for a version asks the other server for its version
only. So nothing is watched, and no event can start a scan. From then on the session has a version
that is spoken, whatever else is tried: only another settling that goes well changes it.

* `conversing`, `cover_conversing`: terms that reckon with every answer that can come;
* `play_serverVersion`: what the settling of a version ends with;
* `Dealing.Guarded`, `Dealing.Admitted`: what holds of a dealing before and after;
* `conversation_settles`: one of them holds of each dealing of a conversation.
-/
import SilentScan.Proofs.Json.Plain
import SilentScan.Proofs.Protocol.Conversation
import SilentScan.Proofs.Session.Life

namespace SilentScan

open Handling

/-! ### Incidents -/

/-- No incident settles on a version. -/
lemma Incident.version_strike (i : Incident) (s : Session) :
    (i.strike s).1.version = s.version := by
  cases i with
  | hears e =>
    cases e with
    | scanPage p =>
      simp only [strike, Session.onEvent, Session.onPage]
      split <;> rfl
    | _ => rfl
  | rewinds e => cases e <;> rfl
  | deafened => rfl
  | closed =>
    simp only [strike, Session.close]
    split <;> rfl

/-- A session that watches nothing keeps doing so, and no incident starts a scan for it. -/
lemma Incident.strike_of_watching_nothing (i : Incident) {s : Session} (h : s.registry = {}) :
    (i.strike s).1.registry = {} ∧ (i.strike s).2 = [] := by
  cases i with
  | hears e =>
    cases e with
    | newTip tip => simp [strike, Session.onEvent, h]
    | scriptHashStatus hash status =>
      simp [strike, Session.onEvent, h, Registry.watchesHash]
    | scanPage p =>
      have hlive : s.isLive p.subscription.address = false := by
        simp [Session.isLive, h, Registry.watches, Registry.get?]
      simp [strike, Session.onEvent, Session.onPage, h, hlive]
    | blocksIndexed lo hi txs => simp [strike, Session.onEvent, h]
    | mempoolAdded txids => simp [strike, Session.onEvent, h]
    | mempoolRemoved txids => simp [strike, Session.onEvent, h, Registry.evict, Registry.modifyAll]
    | reorg start => simp [strike, Session.onEvent, h]
  | rewinds e =>
    cases e <;> simp [strike, Session.onReorg, h, Registry.rewind, Registry.modifyAll]
  | deafened => exact ⟨h, rfl⟩
  | closed =>
    simp only [strike, Session.close]
    split
    · exact ⟨rfl, True.intro⟩
    · exact ⟨h, True.intro⟩

/-! ### Terms for conversations -/

/-- The question for the version of the other server. -/
def Question.AsksVersion (q : Question) : Prop :=
  ∃ params, q = .forward "server.version" params

/-- Terms that reckon with every answer of the full node and every response of the other server,
and with some sessions that may be looked at. -/
def conversing (asks : Question → Prop) (does : Move → Prop) (seen : Session → Prop) : Terms where
  asks := asks
  told
    | .node _, _ => True
    | .forward _ _, r => ∃ response, r = forwardReply response
  does := does
  sees
    | .look, s => seen s
    | _, _ => True

section Conversing

variable {asks : Question → Prop} {does : Move → Prop} {seen : Session → Prop}

/-- Such terms cover all that can happen, with a property that incidents and the allowed steps
keep. -/
lemma cover_conversing (w : Circumstances) {inv : Session → Prop} {starts : ScanRequest → Prop}
    (hseen : ∀ s, inv s → seen s)
    (hstrike : ∀ (i : Incident) s, inv s → inv (i.strike s).1 ∧ ∀ r ∈ (i.strike s).2, starts r)
    (hperform : ∀ (m : Move) s, does m → inv s →
      inv (m.perform s).2.1 ∧ ∀ r ∈ (m.perform s).2.2, starts r) :
    (conversing asks does seen).Cover w inv starts where
  told n q := by
    cases q with
    | node q => exact True.intro
    | forward method params => exact ⟨_, rfl⟩
  strike := hstrike
  perform m s hm hs := by
    refine ⟨?_, hperform m s hm hs⟩
    cases m with
    | look => exact hseen s hs
    | _ => exact True.intro

/-- What the other server says never means that no version has been settled on. -/
lemma forwardReply_verdict (response : Except TransportError Response) :
    Verdict (fun _ => True) (· ≠ .versionNotNegotiated) (forwardReply response) := by
  unfold forwardReply
  split
  · exact RpcError.noConfusion
  · split
    · exact RpcError.noConfusion
    · exact True.intro

lemma ofChain_ne (e : ChainError) : RpcError.ofChain e ≠ .versionNotNegotiated := by
  cases e <;> exact RpcError.noConfusion

variable {bad : RpcError → Prop} (hbad : ∀ e, e ≠ .versionNotNegotiated → bad e)
include hbad

lemma suitSettling_conversing (hasks : ∀ q, q.AsksVersion → asks q) (hlook : does .look) :
    (conversing asks does seen).SuitSettling bad where
  asks params := hasks _ ⟨params, rfl⟩
  look := hlook
  invalid _ := hbad _ RpcError.noConfusion
  unlinked _ := hbad _ RpcError.noConfusion
  unsupported _ := hbad _ RpcError.noConfusion
  nonsense _ := hbad _ RpcError.noConfusion
  failed params e h := by
    obtain ⟨response, hresponse⟩ := h
    have hverdict := forwardReply_verdict response
    rw [← hresponse] at hverdict
    exact hbad e hverdict

lemma suit_conversing (hasks : ∀ q, asks q) (hdoes : ∀ m, (∀ v, m ≠ .settle v) → does m) :
    (conversing asks does seen).Suit (fun _ => True) bad where
  asks := hasks
  does m hm _ := hdoes m hm
  scan _ r _ _ := hdoes _ (by simp)
  invalid _ := hbad _ RpcError.noConfusion
  unlinked _ := hbad _ RpcError.noConfusion
  unknown _ := hbad _ RpcError.noConfusion
  failed _ e _ := hbad _ (ofChain_ne e)
  forwarded method params r h := by
    obtain ⟨response, hresponse⟩ := h
    have hverdict := forwardReply_verdict response
    rw [← hresponse] at hverdict
    cases r with
    | ok v => exact True.intro
    | error e => exact hbad e hverdict
  null := True.intro
  text _ := True.intro
  features _ := True.intro
  tip _ _ := True.intro
  fee _ _ _ _ := True.intro
  relayFee _ _ := True.intro
  transaction _ _ _ _ := True.intro

end Conversing

/-- Steps other than settling leave the version. -/
lemma Move.version_perform {m : Move} (hm : ∀ v, m ≠ .settle v) (s : Session) :
    (m.perform s).2.1.version = s.version := by
  cases m with
  | settle v => exact absurd rfl (hm v)
  | _ => rfl

/-! ### The settling -/

/-- Whether a session has settled on a version, one that is spoken. -/
def Session.Settled (s : Session) : Prop :=
  ∃ v, s.version = some v ∧ v.Spoken

/-- **What the settling of a version ends with**: an error and the version that there was, or a
version that is spoken, which the client is told. -/
lemma play_serverVersion (w : Circumstances) (n : Nat) (s : Session) (params : Params) :
    let c := (serverVersion params).run.play w n s
    ((∃ e, c.value = .error e) ∧ ∀ s' ∈ c.session :: c.passed, s'.version = s.version)
      ∨ ∃ v, v.Spoken ∧ c.value = .ok (.array [.string serverString, .string v.text])
          ∧ c.session.version = some v := by
  have hcover : (conversing Question.AsksVersion (· = .look) fun _ => True).Cover w
      (·.version = s.version) fun _ => True :=
    cover_conversing w (fun _ _ => True.intro)
      (fun i s' hs' => ⟨(i.version_strike s').trans hs', fun _ _ => True.intro⟩)
      (fun m s' hm hs' => ⟨by rw [hm]; exact hs', fun _ _ => True.intro⟩)
  have hsuit : (conversing Question.AsksVersion (· = .look) fun _ => True).SuitSettling
      (· ≠ .versionNotNegotiated) :=
    suitSettling_conversing (fun _ h => h) (fun _ h => h) rfl
  have hsearch := Dialogue.Keeps.play hcover (keeps_agreeOnVersion hsuit params) n rfl
  dsimp only
  rw [serverVersion_eq]
  cases hvalue : ((agreeOnVersion params).run.play w n s).value with
  | error e =>
    rw [play_bind_of_error _ hvalue]
    exact Or.inl ⟨⟨e, rfl⟩, List.forall_mem_cons.2 ⟨hsearch.session, hsearch.passed⟩⟩
  | ok v =>
    have hspoken := hsearch.value
    rw [hvalue] at hspoken
    rw [play_bind_of_ok _ hvalue]
    exact Or.inr ⟨v, hspoken, rfl, rfl⟩

/-! ### Dealings -/

namespace Dealing

/-- The request that a value is, if it is one. -/
def request? (x : Dealing) : Option Request :=
  (readJson Request.decoder x.value).toOption

/-- Whether a dealing is a settling that has gone well. -/
def Settles (x : Dealing) : Prop :=
  (∃ r, x.request? = some r ∧ r.method = "server.version") ∧ ∃ result, x.course.value = .ok result

/-- The sessions from before a dealing to after it. -/
def sessions (x : Dealing) : List Session :=
  x.before :: x.course.session :: x.course.passed

/-- What holds of a dealing as long as no version has been settled on: nothing is watched, no scan
is started, the outside is only asked for the version of the other server, and a request other than
the settling is refused without a question. -/
structure Guarded (x : Dealing) : Prop where
  version : x.before.version = none
  registry : ∀ s ∈ x.sessions, s.registry = {}
  scans : x.course.scans = []
  questions : ∀ q ∈ x.course.questions, q.AsksVersion
  refused : ∀ r, x.request? = some r → r.method ≠ "server.version" →
    x.course.questions = [] ∧ x.reply = .failure r.id
      { code := -1, message := "server.version must be the first message" }

/-- What holds of a dealing once a version has been settled on: there is always one that is spoken,
and the request is not refused for the lack of one. -/
structure Admitted (x : Dealing) : Prop where
  settled : ∀ s ∈ x.sessions, s.Settled
  accepted : x.course.value ≠ .error .versionNotNegotiated

end Dealing

/-- Whether a session has settled on nothing and watches nothing. -/
def Session.Fresh (s : Session) : Prop :=
  s.version = none ∧ s.registry = {}

section Dealings

variable {setting : ServiceSetting} {w : Circumstances} {n : Nat} {x : Dealing}
  (hx : x.course = (verdictOn setting x.value).run.play w n x.before)
include hx

/-- The course of a request. -/
lemma course_of_request {r : Request} (hr : x.request? = some r) :
    x.course = (dispatch setting r.method r.params).run.play w n x.before := by
  rw [hx, verdictOn]
  unfold Dealing.request? at hr
  cases hread : readJson Request.decoder x.value with
  | ok r' =>
    rw [hread] at hr
    obtain rfl : r' = r := Option.some.inj hr
    rfl
  | error e =>
    rw [hread] at hr
    cases hr

/-- What is no request is refused at once. -/
lemma course_of_no_request (hr : x.request? = none) :
    ∃ text, x.course
      = { value := .error (.invalidParams text), session := x.before, clock := n } := by
  rw [hx, verdictOn]
  unfold Dealing.request? at hr
  cases hread : readJson Request.decoder x.value with
  | ok r' =>
    rw [hread] at hr
    cases hr
  | error e => exact ⟨_, rfl⟩

omit hx in
/-- The reply to a request that was refused for the lack of a version. -/
lemma reply_of_refused {r : Request} (hr : x.request? = some r)
    (hvalue : Verdict (fun _ => False) (· = .versionNotNegotiated) x.course.value) :
    x.reply = .failure r.id
      { code := -1, message := "server.version must be the first message" } := by
  have hid : replyId x.value = r.id := by
    unfold Dealing.request? at hr
    rw [replyId]
    cases hread : readJson Request.decoder x.value with
    | ok r' =>
      rw [hread] at hr
      rw [Option.some.inj hr]
    | error e =>
      rw [hread] at hr
      cases hr
  rw [Dealing.reply, hid]
  cases hv : x.course.value with
  | ok result =>
    rw [hv] at hvalue
    exact hvalue.elim
  | error e =>
    rw [hv] at hvalue
    rw [show e = .versionNotNegotiated from hvalue]
    rfl

/-- **A settling that goes well** leaves a version that is spoken, which the client is told. -/
lemma Dealing.Settles.version (hsettles : x.Settles) :
    ∃ v, v.Spoken ∧ x.course.session.version = some v
      ∧ x.course.value = .ok (.array [.string serverString, .string v.text]) := by
  obtain ⟨⟨r, hr, hmethod⟩, result, hresult⟩ := hsettles
  rw [course_of_request hx hr, hmethod] at hresult ⊢
  rcases play_serverVersion w n x.before ⟨r.params⟩ with ⟨⟨e, he⟩, _⟩ | ⟨v, hv, hvalue, hversion⟩
  · exact absurd (he.symm.trans hresult) (by simp)
  · exact ⟨v, hv, hversion, hvalue⟩

/-- A request other than the settling leaves the version throughout. -/
lemma version_of_request {r : Request} (hr : x.request? = some r)
    (hmethod : r.method ≠ "server.version") :
    ∀ s ∈ x.course.session :: x.course.passed, s.version = x.before.version := by
  have hcover : (conversing (fun _ => True) (fun m => ∀ v, m ≠ .settle v) fun _ => True).Cover w
      (·.version = x.before.version) fun _ => True :=
    cover_conversing w (fun _ _ => True.intro)
      (fun i s hs => ⟨(i.version_strike s).trans hs, fun _ _ => True.intro⟩)
      (fun m s hm hs => ⟨(Move.version_perform hm s).trans hs, fun _ _ => True.intro⟩)
  have hsuit : (conversing (fun _ => True) (fun m => ∀ v, m ≠ .settle v) fun _ => True).Suit
      (fun _ => True) fun _ => True :=
    suit_conversing (fun _ _ => True.intro) (fun _ => True.intro) fun _ hm => hm
  have hwithin := Dialogue.Keeps.play hcover
    (keeps_dispatch_of_ne hsuit (fun _ _ _ => True.intro) setting hmethod r.params) n rfl
  rw [course_of_request hx hr]
  exact List.forall_mem_cons.2 ⟨hwithin.session, hwithin.passed⟩

/-- **Anything but a settling that goes well** leaves the version throughout. -/
lemma version_of_not_settles (hsettles : ¬ x.Settles) :
    ∀ s ∈ x.sessions, s.version = x.before.version := by
  refine List.forall_mem_cons.2 ⟨rfl, ?_⟩
  cases hr : x.request? with
  | none =>
    obtain ⟨text, htext⟩ := course_of_no_request hx hr
    simp [htext]
  | some r =>
    by_cases hmethod : r.method = "server.version"
    · have hcourse := course_of_request hx hr
      rw [hmethod] at hcourse
      rcases play_serverVersion w n x.before ⟨r.params⟩ with ⟨_, hversion⟩ | ⟨v, _, hvalue, _⟩
      · rw [hcourse]
        exact hversion
      · exact absurd ⟨⟨r, hr, hmethod⟩, _, (congrArg Course.value hcourse).trans hvalue⟩ hsettles
    · exact version_of_request hx hr hmethod

/-- A settling among sessions that watch nothing: no scan is started, and the outside is only asked
for the version of the other server. -/
lemma within_of_settling {r : Request} (hr : x.request? = some r)
    (hmethod : r.method = "server.version") (hregistry : x.before.registry = {}) :
    x.course.Within (fun _ => True) Question.AsksVersion (·.registry = {}) fun _ => False := by
  have hcover : (conversing Question.AsksVersion (fun m => m = .look ∨ ∃ v, m = .settle v)
      fun _ => True).Cover w (·.registry = {}) fun _ => False :=
    cover_conversing w (fun _ _ => True.intro)
      (fun i s hs => by simp [i.strike_of_watching_nothing hs])
      (fun m s hm hs => by rcases hm with rfl | ⟨v, rfl⟩ <;> simp [Move.perform, hs])
  have hsuit : (conversing Question.AsksVersion (fun m => m = .look ∨ ∃ v, m = .settle v)
      fun _ => True).SuitSettling fun _ => True :=
    suitSettling_conversing (fun _ _ => True.intro) (fun _ h => h) (Or.inl rfl)
  have hkeeps : (serverVersion ⟨r.params⟩).Keeps _ (fun _ => True) _ :=
    keeps_serverVersion hsuit (fun v _ => Or.inr ⟨v, rfl⟩) (fun _ => True.intro) ⟨r.params⟩
  rw [course_of_request hx hr, hmethod]
  have hwithin := Dialogue.Keeps.play hcover hkeeps n hregistry
  exact { hwithin with value := True.intro }

/-- Another request to a session that has settled on nothing: one look, and it is refused. -/
lemma within_of_refused {r : Request} (hr : x.request? = some r)
    (hmethod : r.method ≠ "server.version") (hfresh : x.before.Fresh) :
    x.course.Within (Verdict (fun _ => False) (· = .versionNotNegotiated)) (fun _ => False)
      Session.Fresh fun _ => False := by
  have hcover : (conversing (fun _ => False) (· = .look) (·.version = none)).Cover w
      Session.Fresh fun _ => False :=
    cover_conversing w (fun _ hs => hs.1)
      (fun i s hs => by
        have hstruck := i.strike_of_watching_nothing hs.2
        exact ⟨⟨(i.version_strike s).trans hs.1, hstruck.1⟩, by simp [hstruck.2]⟩)
      (fun m s hm hs => by
        subst hm
        exact ⟨hs, by simp [Move.perform]⟩)
  have hkeeps : (dispatch setting r.method r.params).Keeps
      (conversing (fun _ => False) (· = .look) (·.version = none)) (fun _ => False)
      (· = .versionNotNegotiated) := by
    have hlook : (Handling.move .look).Keeps
        (conversing (fun _ => False) (· = .look) (·.version = none)) (·.version = none)
        (· = .versionNotNegotiated) := keeps_move rfl fun _ h => h
    rw [dispatch, if_neg hmethod]
    refine hlook.bind fun s hs => ?_
    rw [if_pos (by simp [hs])]
    refine keeps_throw_bind ?_ _
    rfl
  rw [course_of_request hx hr]
  exact Dialogue.Keeps.play hcover hkeeps n hfresh

/-- **Before a version has been settled on** every dealing is guarded. -/
lemma guarded_of_fresh (hfresh : x.before.Fresh) : x.Guarded := by
  cases hr : x.request? with
  | none =>
    obtain ⟨text, htext⟩ := course_of_no_request hx hr
    refine ⟨hfresh.1, ?_, by rw [htext], by simp [htext], fun r h => ?_⟩
    · simp [Dealing.sessions, htext, hfresh.2]
    · rw [hr] at h
      cases h
  | some r =>
    by_cases hmethod : r.method = "server.version"
    · have hwithin := within_of_settling hx hr hmethod hfresh.2
      refine ⟨hfresh.1, ?_, List.eq_nil_iff_forall_not_mem.2 hwithin.scans, hwithin.questions,
        fun r' h hother => ?_⟩
      · exact List.forall_mem_cons.2
          ⟨hfresh.2, List.forall_mem_cons.2 ⟨hwithin.session, hwithin.passed⟩⟩
      · obtain rfl := Option.some.inj (hr.symm.trans h)
        exact absurd hmethod hother
    · have hwithin := within_of_refused hx hr hmethod hfresh
      have hquestions := List.eq_nil_iff_forall_not_mem.2 hwithin.questions
      refine ⟨hfresh.1, ?_, List.eq_nil_iff_forall_not_mem.2 hwithin.scans, by simp [hquestions],
        fun r' h _ => ⟨hquestions, ?_⟩⟩
      · refine List.forall_mem_cons.2 ⟨hfresh.2, List.forall_mem_cons.2 ⟨hwithin.session.2, ?_⟩⟩
        exact fun s hs => (hwithin.passed s hs).2
      · obtain rfl := Option.some.inj (hr.symm.trans h)
        exact reply_of_refused hr hwithin.value

/-- **Once a version has been settled on** every dealing is admitted. -/
lemma admitted_of_settled (hsettled : x.before.Settled) : x.Admitted := by
  cases hr : x.request? with
  | none =>
    obtain ⟨text, htext⟩ := course_of_no_request hx hr
    refine ⟨by simp [Dealing.sessions, htext, hsettled], ?_⟩
    rw [htext]
    exact fun h => by cases h
  | some r =>
    have hcover : (conversing (fun _ => True) (fun m => ∀ v, m = .settle v → v.Spoken)
        Session.Settled).Cover w Session.Settled fun _ => True :=
      cover_conversing w (fun _ hs => hs)
        (fun i s hs => ⟨by rw [Session.Settled, i.version_strike]; exact hs, fun _ _ => True.intro⟩)
        (fun m s hm hs => by
          refine ⟨?_, fun _ _ => True.intro⟩
          cases m with
          | settle v => exact ⟨v, rfl, hm v rfl⟩
          | _ => exact hs)
    have hsuit : (conversing (fun _ => True) (fun m => ∀ v, m = .settle v → v.Spoken)
        Session.Settled).Suit (fun _ => True) (· ≠ .versionNotNegotiated) :=
      suit_conversing (fun _ h => h) (fun _ => True.intro) fun m hm v h => absurd h (hm v)
    have hsettling : (conversing (fun _ => True) (fun m => ∀ v, m = .settle v → v.Spoken)
        Session.Settled).SuitSettling (· ≠ .versionNotNegotiated) :=
      suitSettling_conversing (fun _ h => h) (fun _ _ => True.intro) (by simp)
    have hkeeps := keeps_dispatch hsuit hsettling
      (fun s ⟨v, hv, _⟩ hnone => by simp [hv] at hnone) (fun v hv v' h => by cases h; exact hv)
      (fun _ => True.intro) setting r.method r.params
    have hwithin := Dialogue.Keeps.play hcover hkeeps n hsettled
    rw [← course_of_request hx hr] at hwithin
    refine ⟨List.forall_mem_cons.2
      ⟨hsettled, List.forall_mem_cons.2 ⟨hwithin.session, hwithin.passed⟩⟩, fun h => ?_⟩
    have hvalue := hwithin.value
    rw [h] at hvalue
    exact hvalue rfl

end Dealings

/-! ### Conversations -/

section Conversations

variable {setting : ServiceSetting} {w : Circumstances}

/-- A version that has been settled on stays one. -/
lemma settled_after {n : Nat} {s : Session} {vs : List Json} {earlier rest : List Dealing}
    (hdealings : dealWith setting w n s vs = earlier ++ rest) (hs : s.Settled) :
    (gather n s earlier).session.Settled := by
  induction earlier generalizing n s vs with
  | nil => exact hs
  | cons y earlier ih =>
    obtain ⟨hbefore, hcourse, vs', hrest⟩ := dealWith_eq_cons setting w hdealings
    rw [← hbefore] at hs
    exact ih hrest ((admitted_of_settled hcourse hs).settled _ (by simp [Dealing.sessions]))

/-- After dealings none of which has settled on a version the session is as fresh as before; after
others it has settled on one. -/
lemma phase_after {n : Nat} {s : Session} {vs : List Json} {earlier rest : List Dealing}
    (hdealings : dealWith setting w n s vs = earlier ++ rest) (hs : s.Fresh) :
    ((∀ y ∈ earlier, ¬ y.Settles) → (gather n s earlier).session.Fresh)
      ∧ ((∃ y ∈ earlier, y.Settles) → (gather n s earlier).session.Settled) := by
  induction earlier generalizing n s vs with
  | nil => exact ⟨fun _ => hs, fun ⟨_, h, _⟩ => absurd h List.not_mem_nil⟩
  | cons y earlier ih =>
    obtain ⟨hbefore, hcourse, vs', hrest⟩ := dealWith_eq_cons setting w hdealings
    rw [← hbefore] at hs
    have hmem : y.course.session ∈ y.sessions := by simp [Dealing.sessions]
    by_cases hsettles : y.Settles
    · obtain ⟨v, hspoken, hversion, _⟩ := hsettles.version hcourse
      have hsome := settled_after hrest ⟨v, hversion, hspoken⟩
      exact ⟨fun h => absurd hsettles (h y List.mem_cons_self), fun _ => hsome⟩
    · have hfresh : y.course.session.Fresh :=
        ⟨(version_of_not_settles hcourse hsettles _ hmem).trans hs.1,
          (guarded_of_fresh hcourse hs).registry _ hmem⟩
      obtain ⟨hnone, hsome⟩ := ih hrest hfresh
      refine ⟨fun h => hnone fun y' hy' => h y' (List.mem_cons_of_mem _ hy'), ?_⟩
      rintro ⟨y', hy', hsettles'⟩
      rcases List.mem_cons.1 hy' with rfl | hy'
      · exact absurd hsettles' hsettles
      · exact hsome ⟨y', hy', hsettles'⟩

/-- **Version before anything else.** Whatever lines a client sends, whatever the full node and the
other server answer and whatever happens meanwhile: the conversation is made up of dealings with the
values of its lines. A dealing before which no settling has gone well is guarded, and one after such
a settling is admitted. A settling that goes well leaves a version that is spoken, and anything else
leaves the version that there was. -/
theorem conversation_settles (setting : ServiceSetting) (h : Hub) (peer : Option String)
    (linked : Bool) (w : Circumstances) (lines : List String) :
    let s := h.newcomer peer linked
    let dealings := converse setting w 0 s lines
    (handleLines setting lines).play w 0 s
        = (gather 0 s dealings.flatten).withValue (lines.zipWith lineReply dealings)
      ∧ ∀ earlier x later, dealings.flatten = earlier ++ x :: later →
        ((∀ y ∈ earlier, ¬ y.Settles) → x.Guarded)
          ∧ ((∃ y ∈ earlier, y.Settles) → x.Admitted)
          ∧ (x.Settles → ∃ v, v.Spoken ∧ x.course.session.version = some v
              ∧ x.course.value = .ok (.array [.string serverString, .string v.text]))
          ∧ (¬ x.Settles → ∀ s ∈ x.sessions, s.version = x.before.version) := by
  refine ⟨play_handleLines setting w 0 _ lines, fun earlier x later hdealings => ?_⟩
  rw [flatten_converse] at hdealings
  obtain ⟨hbefore, hcourse⟩ := dealWith_split setting w hdealings
  obtain ⟨hfresh, hsettled⟩ := phase_after hdealings (s := h.newcomer peer linked) ⟨rfl, rfl⟩
  rw [← hbefore] at hfresh hsettled
  exact ⟨fun hnone => guarded_of_fresh hcourse (hfresh hnone),
    fun hsome => admitted_of_settled hcourse (hsettled hsome),
    fun hsettles => hsettles.version hcourse, version_of_not_settles hcourse⟩

/-- A batch in which a version is settled on between two other calls. -/
def settlingBatch : String :=
  "[\x7b\"method\":\"server.banner\"\x7d,\x7b\"method\":\"server.version\"\x7d,"
    ++ "\x7b\"method\":\"server.banner\"\x7d]"

/-- The first call of the batch is guarded, and the last one admitted. -/
theorem settling_within_batch :
    ∃ x y z, (converse {} quietCircumstances 0 (({} : Hub).newcomer none false)
        [settlingBatch]).flatten = [x, y, z]
      ∧ x.Guarded ∧ y.Settles ∧ z.Admitted := by
  have hcall (method : String) : (Json.object [("method", .string method)]).Plain 126 :=
    Json.plain_object (by simp [Json.Ascending]) (by simp [Json.plain_string])
  have hparse : Json.parse (Text.trim settlingBatch)
      = some (.array [.object [("method", .string "server.banner")],
          .object [("method", .string "server.version")],
          .object [("method", .string "server.banner")]]) :=
    Json.parse_of_eq_text (by decide +kernel) (Json.plain_array (by simp [hcall]))
  have hvalues : valuesOf settlingBatch = [.object [("method", .string "server.banner")],
      .object [("method", .string "server.version")],
      .object [("method", .string "server.banner")]] := by
    rw [valuesOf, hparse]
  obtain ⟨x, y, z, hxyz, hy⟩ : ∃ x y z, (converse {} quietCircumstances 0
      (({} : Hub).newcomer none false) [settlingBatch]).flatten = [x, y, z] ∧ y.Settles := by
    rw [flatten_converse, List.flatMap_singleton, hvalues]
    refine ⟨_, _, _, rfl, ⟨_, rfl, rfl⟩, .array [.string serverString, .string "1.4"], ?_⟩
    rfl
  have hall := (conversation_settles {} {} none false quietCircumstances [settlingBatch]).2
  exact ⟨x, y, z, hxyz, (hall [] x [y, z] hxyz).1 (by simp), hy,
    (hall [x, y] z [] hxyz).2.1 ⟨y, by simp, hy⟩⟩

end Conversations
end SilentScan
