/-
Refused requests.

A request that is answered with an error should leave no trace: the client is told that nothing has
come of it. The methods keep to this by an order of work. First they read the parameters and ask
the full node and the other server, which may fail and changes nothing; then they change the
session, which cannot fail. One method, the watching of the best block, changes the session before
its last question.

* `Dialogue.run_bind`: the course of two dialogues after one another;
* `Handling.Quiet`, `Handling.Sure`, `Handling.Prudent`: handlings that change nothing, that cannot
  fail, and that change nothing if they fail, with the rules for putting them together;
* `prudent_answerCall`: every method but one is prudent;
* `refused_request_unchanged_iff`: what a refused request leaves, exactly;
* `refused_headers_leaves_trace`: the trace of the one method.
-/
import Mathlib.Tactic.Common
import SilentScan.Protocol.Methods

namespace SilentScan

namespace Dialogue

variable {α β : Type} (answer : List Question → (q : Question) → q.Reply)

/-- The course of two dialogues after one another: the second goes on where the first has ended. -/
lemma run_bind (asked : List Question) (s : Session) (d : Dialogue α) (f : α → Dialogue β) :
    run answer asked s (d >>= f)
      = let o := run answer asked s d
        let o' := run answer o.questions o.session (f o.value)
        { o' with scans := o.scans ++ o'.scans } := by
  change run answer asked s (d.bind f) = _
  induction d generalizing asked s with
  | done a => rfl
  | ask q next ih => exact ih _ _ _
  | move m next ih =>
    simp only [bind, run, ih, List.append_assoc]

/-- Whether a course has left the session as it was and started no scan. -/
def Outcome.Idle (o : Outcome α) (s : Session) : Prop :=
  o.session = s ∧ o.scans = []

end Dialogue

namespace Handling

variable {α β : Type}

/-- The course of a handling. -/
def course (h : Handling α) (answer : List Question → (q : Question) → q.Reply)
    (asked : List Question) (s : Session) : Dialogue.Outcome (Except RpcError α) :=
  Dialogue.run answer asked s h.run

/-- That a handling changes nothing, whatever it is answered. -/
def Quiet (h : Handling α) : Prop :=
  ∀ answer asked s, (h.course answer asked s).Idle s

/-- That a handling ends well, whatever it is answered. -/
def Sure (h : Handling α) : Prop :=
  ∀ answer asked s, ∃ a, (h.course answer asked s).value = .ok a

/-- That a handling changes nothing if it ends in an error. -/
def Prudent (h : Handling α) : Prop :=
  ∀ answer asked s e, (h.course answer asked s).value = .error e →
    (h.course answer asked s).Idle s

/-! ### Putting handlings together -/

section Bind

variable {h : Handling α} {f : α → Handling β}
  {answer : List Question → (q : Question) → q.Reply} {asked : List Question} {s : Session}

/-- After a handling that has ended well the next one goes on where it has ended. -/
lemma course_bind_of_ok {a : α} (ha : (h.course answer asked s).value = .ok a) :
    (h >>= f).course answer asked s
      = { (f a).course answer (h.course answer asked s).questions (h.course answer asked s).session
          with scans := (h.course answer asked s).scans
            ++ ((f a).course answer (h.course answer asked s).questions
              (h.course answer asked s).session).scans } := by
  change Dialogue.run answer asked s (h.run >>= ExceptT.bindCont f) = _
  rw [Dialogue.run_bind]
  simp only [course] at ha ⊢
  rw [ha]
  rfl

/-- A handling that has failed is not gone on with. -/
lemma course_bind_of_error {e : RpcError} (he : (h.course answer asked s).value = .error e) :
    (h >>= f).course answer asked s
      = { value := .error e, session := (h.course answer asked s).session,
          scans := (h.course answer asked s).scans,
          questions := (h.course answer asked s).questions } := by
  change Dialogue.run answer asked s (h.run >>= ExceptT.bindCont f) = _
  rw [Dialogue.run_bind]
  simp only [course] at he ⊢
  rw [he]
  simp [ExceptT.bindCont, Dialogue.run, pure]

/-- A quiet handling followed by quiet ones is quiet. -/
lemma Quiet.bind (hh : Quiet h) (hf : ∀ a, Quiet (f a)) : Quiet (h >>= f) := by
  intro answer asked s
  obtain ⟨hsession, hscans⟩ := hh answer asked s
  cases hv : (h.course answer asked s).value with
  | ok a =>
    obtain ⟨hsession', hscans'⟩ := hf a answer (h.course answer asked s).questions s
    rw [course_bind_of_ok hv, hsession]
    exact ⟨hsession', by simp only [hscans, hscans', List.append_nil]⟩
  | error e =>
    rw [course_bind_of_error hv]
    exact ⟨hsession, hscans⟩

/-- A quiet handling followed by prudent ones is prudent. -/
lemma Quiet.bind_prudent (hh : Quiet h) (hf : ∀ a, Prudent (f a)) : Prudent (h >>= f) := by
  intro answer asked s e he
  obtain ⟨hsession, hscans⟩ := hh answer asked s
  cases hv : (h.course answer asked s).value with
  | ok a =>
    rw [course_bind_of_ok hv, hsession] at he ⊢
    obtain ⟨hsession', hscans'⟩ := hf a answer _ s e he
    exact ⟨hsession', by simp only [hscans, hscans', List.append_nil]⟩
  | error e =>
    rw [course_bind_of_error hv]
    exact ⟨hsession, hscans⟩

/-- Handlings that cannot fail, one after another, cannot fail. -/
lemma Sure.bind (hh : Sure h) (hf : ∀ a, Sure (f a)) : Sure (h >>= f) := by
  intro answer asked s
  obtain ⟨a, ha⟩ := hh answer asked s
  obtain ⟨b, hb⟩ :=
    hf a answer (h.course answer asked s).questions (h.course answer asked s).session
  exact ⟨b, by rw [course_bind_of_ok ha]; exact hb⟩

lemma Quiet.prudent (hh : Quiet h) : Prudent h :=
  fun answer asked s _ _ => hh answer asked s

/-- What cannot fail is prudent. -/
lemma Sure.prudent (hh : Sure h) : Prudent h := by
  intro answer asked s e he
  obtain ⟨a, ha⟩ := hh answer asked s
  simp [ha] at he

end Bind

/-! ### Single steps -/

lemma quiet_pure (a : α) : Quiet (pure a) := fun _ _ _ => ⟨rfl, rfl⟩

lemma sure_pure (a : α) : Sure (pure a) := fun _ _ _ => ⟨a, rfl⟩

lemma quiet_throw (e : RpcError) : Quiet (throw e : Handling α) := fun _ _ _ => ⟨rfl, rfl⟩

/-- Reading parameters changes nothing. -/
lemma quiet_lift (x : Except RpcError α) : Quiet (liftM x : Handling α) := fun _ _ _ => ⟨rfl, rfl⟩

/-- Looking at the session changes nothing. -/
lemma quiet_look : Quiet (move .look) := fun _ _ _ => ⟨rfl, rfl⟩

/-- What is done after a look at the session is done knowing the session. -/
lemma course_look_bind (f : Session → Handling α)
    (answer : List Question → (q : Question) → q.Reply) (asked : List Question) (s : Session) :
    (move .look >>= f).course answer asked s = (f s).course answer asked s :=
  course_bind_of_ok rfl

/-- Asking the full node changes nothing. -/
lemma quiet_node (q : NodeQuery) : Quiet (node q) := fun _ _ _ => ⟨rfl, rfl⟩

/-- Steps that concern the session alone cannot fail. -/
lemma sure_move (m : Move) : Sure (move m) := fun _ _ s => ⟨(m.perform s).1, rfl⟩

/-- Having the other server answer changes nothing, whether there is a link to it or not. -/
lemma quiet_forwardFor (what method : String) (params : Json) :
    Quiet (forwardFor what method params) := by
  refine quiet_look.bind fun session => ?_
  split
  · exact fun _ _ _ => ⟨rfl, rfl⟩
  · exact quiet_throw _

lemma quiet_forward (method : String) (params : Json) : Quiet (forward method params) :=
  quiet_forwardFor _ _ _

/-! ### The methods -/

/-- A version is settled on at the very end. -/
lemma prudent_serverVersion (params : Params) : Prudent (serverVersion params) := by
  refine (quiet_lift _).bind_prudent fun name => quiet_look.bind_prudent fun session => ?_
  have settles : ∀ offered : Option (List String), Prudent (do
      let version ← negotiate ((params.get? 1 "protocol_version").getD .null) offered
      move (.settle version)
      return Json.array [.string serverString, .string version.text]) := fun _ =>
    (quiet_lift _).bind_prudent fun _ => ((sure_move _).bind fun _ => sure_pure _).prudent
  split
  · exact (quiet_forward _ _).bind_prudent fun reply => (quiet_lift _).bind_prudent fun versions =>
      (quiet_pure _).bind_prudent fun _ => settles _
  · exact (quiet_pure _).bind_prudent fun _ => settles _

lemma quiet_serverFeatures (setting : ServiceSetting) : Quiet (serverFeatures setting) := by
  refine quiet_look.bind fun session => ?_
  split
  · exact quiet_forward _ _
  · exact quiet_pure _

lemma quiet_blockHeader (params : Params) : Quiet (blockHeader params) := by
  refine (quiet_lift _).bind fun height => (quiet_lift _).bind fun cpHeight => ?_
  dsimp only
  split
  · exact quiet_forwardFor _ _ _
  · exact (quiet_node _).bind fun _ => quiet_pure _

lemma quiet_estimateFee (params : Params) : Quiet (estimateFee params) := by
  have asks : ∀ blocks : Nat, Quiet (do
      let mode ← params.text? 1 "mode"
      let fee ← node (.estimateFee blocks mode)
      return Json.number (.float (fee.getD defaultFeeRate))) := fun _ =>
    (quiet_lift _).bind fun _ => (quiet_node _).bind fun _ => quiet_pure _
  refine (quiet_lift _).bind fun blocks => ?_
  split
  · exact (quiet_throw _).bind fun _ => asks _
  · exact asks _

lemma quiet_startHeight (start : Option Int) : Quiet (startHeight start) := by
  unfold startHeight
  repeat' split
  · exact quiet_node _
  · exact quiet_pure _
  · exact quiet_throw _
  · exact quiet_pure _
  · exact quiet_pure _

/-- An address is watched once the parameters are read and the start is known. -/
lemma prudent_subscribeAddress (setting : ServiceSetting) (params : Params) :
    Prudent (subscribeAddress setting params) :=
  (quiet_lift _).bind_prudent fun _ => (quiet_lift _).bind_prudent fun _ =>
    (quiet_startHeight _).bind_prudent fun _ => (quiet_lift _).bind_prudent fun _ =>
      ((sure_move _).bind fun _ => (sure_move _).bind fun _ => (sure_move _).bind fun _ =>
        sure_pure _).prudent

lemma prudent_unsubscribeAddress (setting : ServiceSetting) (params : Params) :
    Prudent (unsubscribeAddress setting params) :=
  (quiet_lift _).bind_prudent fun _ => ((sure_move _).bind fun _ => sure_pure _).prudent

/-- A script hash is watched once the other server has agreed. -/
lemma prudent_subscribeHash (method : String) (raw : Json) : Prudent (subscribeHash method raw) :=
  (quiet_lift _).bind_prudent fun _ => (quiet_forward _ _).bind_prudent fun _ =>
    ((sure_move _).bind fun _ => sure_pure _).prudent

lemma prudent_unsubscribeHash (method : String) (raw : Json) :
    Prudent (unsubscribeHash method raw) :=
  (quiet_lift _).bind_prudent fun _ => (quiet_forward _ _).bind_prudent fun _ =>
    ((sure_move _).bind fun _ => sure_pure _).prudent

/-- **Every method but one is prudent**: it changes the session last. -/
lemma prudent_answerCall (setting : ServiceSetting) {method : String} (raw : Json)
    (hmethod : method ≠ headersMethod) : Prudent (answerCall setting method raw) := by
  unfold answerCall
  split
  · exact (quiet_pure _).prudent
  · exact ((quiet_node _).bind fun _ => quiet_pure _).prudent
  · exact (quiet_serverFeatures setting).prudent
  · exact absurd rfl hmethod
  · exact (quiet_blockHeader _).prudent
  · exact (quiet_estimateFee _).prudent
  · exact ((quiet_node _).bind fun _ => quiet_pure _).prudent
  · refine ((quiet_lift _).bind fun _ => (quiet_lift _).bind fun _ => ?_).prudent
    exact quiet_node _
  · exact ((quiet_lift _).bind fun _ => (quiet_node _).bind fun _ => quiet_pure _).prudent
  · exact prudent_subscribeHash _ _
  · exact prudent_unsubscribeHash _ _
  · exact prudent_subscribeAddress _ _
  · exact prudent_unsubscribeAddress _ _
  · dsimp only
    split
    · exact (quiet_forward _ _).prudent
    · exact (quiet_throw _).prudent

end Handling

open Handling

/-- What a refused call leaves of a session: the watching of the best block is begun before the
full node is asked for it, and everything else is as it was. -/
def Session.afterRefusal (s : Session) (method : String) : Session :=
  if method = headersMethod ∧ s.version.isSome then
    { s with registry := s.registry.setHeaders true }
  else s

/-- The watching of the best block is begun at once, and the full node is asked afterwards. -/
lemma course_watchHeaders (setting : ServiceSetting) (raw : Json)
    (answer : List Question → (q : Question) → q.Reply) (asked : List Question) (s : Session) :
    ((answerCall setting headersMethod raw).course answer asked s).Idle
      { s with registry := s.registry.setHeaders true } :=
  ((quiet_node .tip).bind fun tip => quiet_pure tip.toJson) answer asked
    { s with registry := s.registry.setHeaders true }

/-- A call that ends in an error starts no scan, and it leaves the session as told. -/
lemma course_dispatch_of_error {setting : ServiceSetting} {method : String} {raw : Json}
    {answer : List Question → (q : Question) → q.Reply} {asked : List Question} {s : Session}
    {e : RpcError} (he : ((dispatch setting method raw).course answer asked s).value = .error e) :
    ((dispatch setting method raw).course answer asked s).Idle (s.afterRefusal method) := by
  by_cases hsettles : method = "server.version"
  · subst hsettles
    exact prudent_serverVersion ⟨raw⟩ answer asked s e he
  · rw [dispatch, if_neg hsettles, course_look_bind] at he ⊢
    by_cases hversion : s.version.isNone = true
    · have hopen : ¬ (method = headersMethod ∧ s.version.isSome = true) := fun h => by
        simp_all
      rw [Session.afterRefusal, if_neg hopen, if_pos hversion]
      exact ⟨rfl, rfl⟩
    · rw [if_neg hversion] at he ⊢
      have hsome : s.version.isSome = true := by simpa [Option.isSome_iff_ne_none] using hversion
      rw [Session.afterRefusal]
      split
      · rename_i h
        rw [h.1]
        exact course_watchHeaders setting raw answer asked s
      · rename_i h
        exact prudent_answerCall setting raw (fun heq => h ⟨heq, hsome⟩) answer asked s e he

/-- The reply to a request tells how the call has ended. -/
lemma run_handleRequest (setting : ServiceSetting) (request : Request)
    (answer : List Question → (q : Question) → q.Reply) (asked : List Question) (s : Session) :
    (handleRequest setting request).run answer asked s
      = let o := (dispatch setting request.method request.params).course answer asked s
        { value := match o.value with
            | .ok result => .success request.id result
            | .error e => .failure request.id e.toObject
          session := o.session, scans := o.scans, questions := o.questions } := by
  rw [handleRequest, Dialogue.run_bind]
  simp only [course]
  cases (Dialogue.run answer asked s (dispatch setting request.method request.params).run).value <;>
    simp [Dialogue.run, pure]

/-- A request that is refused starts no scan, and it leaves the session as told. -/
lemma idle_of_refused {setting : ServiceSetting} {request : Request}
    {answer : List Question → (q : Question) → q.Reply} {asked : List Question} {s : Session}
    (hrefused : ((handleRequest setting request).run answer asked s).value.error.isSome) :
    ((handleRequest setting request).run answer asked s).Idle (s.afterRefusal request.method) := by
  rw [run_handleRequest] at hrefused ⊢
  cases hv : ((dispatch setting request.method request.params).course answer asked s).value with
  | ok result => simp [hv, Response.success] at hrefused
  | error e => exact course_dispatch_of_error hv

/-- The trace is none exactly if the best block was watched already, or would not be. -/
lemma Session.registry_afterRefusal_iff {s : Session} {method : String} :
    (s.afterRefusal method).registry = s.registry ↔
      (method = headersMethod → s.version.isSome → s.registry.headers = true) := by
  rw [Session.afterRefusal]
  split
  · rename_i h
    refine ⟨fun heq _ _ => ?_, fun hheaders => ?_⟩
    · rw [← heq]
      rfl
    · simp only [Registry.setHeaders, ← hheaders h.1 h.2]
  · rename_i h
    exact iff_of_true rfl fun hmethod hversion => absurd ⟨hmethod, hversion⟩ h

lemma Session.version_afterRefusal (s : Session) (method : String) :
    (s.afterRefusal method).version = s.version := by
  rw [Session.afterRefusal]
  split <;> rfl

/-- **What a refused request leaves**: no scan is started and the version stays, and what the client
is subscribed to stays unless the request was to watch the best block, after a version was settled
on, and the best block was not watched before. Then it is watched from there on. -/
theorem refused_request_unchanged_iff (setting : ServiceSetting) (request : Request)
    (answer : List Question → (q : Question) → q.Reply) (asked : List Question) (s : Session)
    (hrefused : ((handleRequest setting request).run answer asked s).value.error.isSome) :
    let o := (handleRequest setting request).run answer asked s
    o.scans = [] ∧ o.session.version = s.version ∧ o.session = s.afterRefusal request.method ∧
      (o.session.registry = s.registry ↔
        (request.method = headersMethod → s.version.isSome → s.registry.headers = true)) := by
  obtain ⟨hsession, hscans⟩ := idle_of_refused hrefused
  refine ⟨hscans, ?_, hsession, ?_⟩
  · rw [hsession, Session.version_afterRefusal]
  · rw [hsession]
    exact Session.registry_afterRefusal_iff

/-- An outside that answers nothing: the full node is down and the other server is gone. -/
def silentOutside : List Question → (q : Question) → q.Reply
  | _, .node _ => .error (.io "down")
  | _, .forward _ _ => .error (.transport .closed)

/-- A request without parameters. -/
def sampleCall (method : String) (params : List Json) : Request :=
  .numbered 1 method (.array params)

/-- A session that has settled on a version and has a link to the other server. -/
def settledSession : Session where
  id := 0
  version := some .lowest
  linked := true

/-- A script hash that the other server does not take is not watched. -/
theorem refused_hash_unchanged :
    (((handleRequest {} (sampleCall "blockchain.scripthash.subscribe" [.string "aa"])).run
        silentOutside [] settledSession).value.error.isSome) ∧
      ((handleRequest {} (sampleCall "blockchain.scripthash.subscribe" [.string "aa"])).run
        silentOutside [] settledSession).session.registry = settledSession.registry := by
  have hrefused : ((handleRequest {} (sampleCall "blockchain.scripthash.subscribe"
      [.string "aa"])).run silentOutside [] settledSession).value.error.isSome := rfl
  refine ⟨hrefused, ?_⟩
  exact (refused_request_unchanged_iff _ _ _ _ _ hrefused).2.2.2.2 fun heq =>
    absurd heq (by decide)

/-- **A refused request that leaves a trace**: the full node is down, the request to watch the best
block is refused, and the best block is watched all the same. -/
theorem refused_headers_leaves_trace :
    ¬ ∀ (setting : ServiceSetting) (request : Request)
        (answer : List Question → (q : Question) → q.Reply) (asked : List Question) (s : Session),
      ((handleRequest setting request).run answer asked s).value.error.isSome →
        ((handleRequest setting request).run answer asked s).session.registry = s.registry ∧
        ((handleRequest setting request).run answer asked s).session.version = s.version ∧
        ((handleRequest setting request).run answer asked s).scans = [] := by
  intro hall
  have hregistry := (hall {} (sampleCall headersMethod []) silentOutside [] settledSession rfl).1
  exact absurd hregistry (by decide)

end SilentScan
