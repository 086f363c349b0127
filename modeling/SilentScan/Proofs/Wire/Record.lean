/-
The record of a link.

What matters about the course of a link is written down in the order in which it happens: the
requests that have been registered, the frames that have come, the turns that have ended and the
failings of the link. What a step can do to a link, and what it adds to the record, is said once,
by the cases of `Change`; whatever is kept along a course is kept by each of them.

* `LinkEvent`, `Link.log`: what is recorded, and the record of a course;
* `Link.frame?`: the frame that the reader takes in with a line;
* `Link.Change`, `Link.change_step`: what a step can do;
* `Link.calls_eq`, `Link.answers_eq`, `Link.sendings_eq`, `Link.notifications_eq`: what the record
  tells of the callers, of the lines written and of the notifications handed on.
-/
import Mathlib.Tactic.Common
import SilentScan.Wire.Link

namespace SilentScan

/-- What is recorded of a link. -/
inductive LinkEvent where
  /-- A caller has come. -/
  | came (c : LinkCall)
  /-- The request of a call has been registered under a number. -/
  | asked (id : Nat) (c : LinkCall)
  /-- The reader has taken in a frame. -/
  | took (f : Frame)
  /-- The turn of a call has ended; its request had a number or not. -/
  | ended (id : Option Nat) (c : LinkCall) (result : Except TransportError Response)
  /-- Nothing that was registered will be answered any more. -/
  | failed

/-- The number of the request, if it has one. -/
def TurnStage.id? : TurnStage → Option Nat
  | .numbered id | .registered id | .awaiting id => some id
  | .entered | .waiting => none

/-- The number of the request, if it is registered. -/
def TurnStage.registered? : TurnStage → Option Nat
  | .registered id | .awaiting id => some id
  | .entered | .waiting | .numbered _ => none

/-- A registered number is the number of the request. -/
lemma TurnStage.id?_of_registered? {stage : TurnStage} {id : Nat}
    (h : stage.registered? = some id) : stage.id? = some id := by
  cases stage <;> simp_all [registered?, id?]

/-- The call of a step, if the step is one. -/
def LinkStep.call? : LinkStep → Option LinkCall
  | .call c => some c
  | _ => none

namespace LinkEffect

/-- The line written to the stream. -/
def line? : LinkEffect → Option String
  | .send line => some line
  | _ => none

/-- The caller whose turn has ended, with the result. -/
def finished? : LinkEffect → Option (Nat × Except TransportError Response)
  | .finished caller result => some (caller, result)
  | _ => none

/-- The notification handed on. -/
def notification? : LinkEffect → Option Notification
  | .notified n => some n
  | _ => none

end LinkEffect

namespace LinkEvent

/-- The call that has come. -/
def came? : LinkEvent → Option LinkCall
  | .came c => some c
  | _ => none

/-- The call whose turn has ended, with the result. -/
def ended? : LinkEvent → Option (LinkCall × Except TransportError Response)
  | .ended _ c result => some (c, result)
  | _ => none

/-- The number of a request that has been registered, with its call. -/
def asked? : LinkEvent → Option (Nat × LinkCall)
  | .asked id c => some (id, c)
  | _ => none

/-- The notification taken in. -/
def notification? : LinkEvent → Option Notification
  | .took (.notification n) => some n
  | _ => none

end LinkEvent

namespace Link

/-- The frame that the reader takes in with a line. -/
def frame? (l : Link) (line : String) : Option Frame :=
  if l.started && l.reading && !(Text.trim line).isEmpty then
    (Frame.classify (Text.trim line)).toOption
  else none

/-- What a step by itself adds to the record. -/
def met (l : Link) : LinkStep → List LinkEvent
  | .call c => [.came c]
  | .receive line => (l.frame? line).toList.map .took
  | .failPending _ => [.failed]
  | _ => []

/-- What an effect adds to the record. -/
def noted (l : Link) : LinkEffect → Option LinkEvent
  | .send _ => l.turn.bind fun t => t.stage.id?.map (.asked · t.call)
  | .finished _ result => l.turn.map fun t => .ended t.stage.id? t.call result
  | .notified _ => none

/-- What is recorded of a step. -/
def events (l : Link) (s : LinkStep) : List LinkEvent :=
  l.met s ++ (l.step s).2.filterMap l.noted

/-- The record of several steps. -/
def log (l : Link) : List LinkStep → List LinkEvent
  | [] => []
  | s :: rest => l.events s ++ (l.step s).1.log rest

/-- The calls that have not ended, in the order of their turns. -/
def standing (l : Link) : List LinkCall :=
  (l.turn.map (·.call)).toList ++ l.queue

lemma run_append (l : Link) (ss rest : List LinkStep) :
    l.run (ss ++ rest)
      = (((l.run ss).1.run rest).1, (l.run ss).2 ++ ((l.run ss).1.run rest).2) := by
  induction ss generalizing l with
  | nil => rfl
  | cons s ss ih => simp only [List.cons_append, run, ih, List.append_assoc]

lemma log_append (l : Link) (ss rest : List LinkStep) :
    l.log (ss ++ rest) = l.log ss ++ (l.run ss).1.log rest := by
  induction ss generalizing l with
  | nil => rfl
  | cons s ss ih => simp only [List.cons_append, log, run, ih, List.append_assoc]

/-! ### What a step can do -/

/-- What a step can do to a link: the link after it, the effects, and what is recorded. -/
inductive Change (l : Link) : Link → List LinkEffect → List LinkEvent → Prop
  /-- Nothing happens. -/
  | stay : Change l l [] []
  /-- Another caller waits for its turn. -/
  | call (c : LinkCall) : Change l { l with queue := l.queue ++ [c] } [] [.came c]
  /-- The link is marked in some way. -/
  | mark (closed started reading : Bool) (hstarted : l.started = true → started = true) :
      Change l { l with closed, started, reading } [] []
  /-- The first in the queue gets its turn. -/
  | enter (c : LinkCall) (rest : List LinkCall) (hturn : l.turn = none)
      (hqueue : l.queue = c :: rest) :
      Change l { l with queue := rest, turn := some ⟨c, .entered⟩ } [] []
  /-- The link is open, and the caller waits for the reader. -/
  | wait (c : LinkCall) (hturn : l.turn = some ⟨c, .entered⟩) :
      Change l { l with turn := some ⟨c, .waiting⟩ } [] []
  /-- The request gets a number. -/
  | number (c : LinkCall) (hturn : l.turn = some ⟨c, .waiting⟩) :
      Change l { l with turn := some ⟨c, .numbered l.nextId⟩, nextId := l.nextId + 1 } [] []
  /-- The request is registered. -/
  | ask (id : Nat) (c : LinkCall) (hturn : l.turn = some ⟨c, .numbered id⟩)
      (hfailed : l.failed = none) :
      Change l { l with turn := some ⟨c, .registered id⟩, pending := (id, c.caller) :: l.pending }
        [.send (Request.numbered id c.method c.params).line] [.asked id c]
  /-- The line has been written. -/
  | wrote (id : Nat) (c : LinkCall) (hturn : l.turn = some ⟨c, .registered id⟩) :
      Change l { l with turn := some ⟨c, .awaiting id⟩ } [] []
  /-- The turn ends before the request is registered. -/
  | refuse (t : Turn) (e : TransportError) (hturn : l.turn = some t)
      (hstage : t.stage.registered? = none) :
      Change l { l with turn := none } [.finished t.call.caller (.error e)]
        [.ended t.stage.id? t.call (.error e)]
  /-- The turn ends with what has been delivered. -/
  | answer (id : Nat) (c : LinkCall) (result : Except TransportError Response)
      (hturn : l.turn = some ⟨c, .awaiting id⟩) (hlookup : l.delivered.lookup id = some result) :
      Change l { l with turn := none } [.finished c.caller result] [.ended (some id) c result]
  /-- The number is taken back, and the turn ends. -/
  | giveBack (id : Nat) (t : Turn) (e : TransportError) (hturn : l.turn = some t)
      (hstage : t.stage.registered? = some id) :
      Change l { l with turn := none, pending := l.pending.filter (·.1 != id) }
        [.finished t.call.caller (.error e)] [.ended (some id) t.call (.error e)]
  /-- A notification is handed on. -/
  | notify (n : Notification) : Change l l [.notified n] [.took (.notification n)]
  /-- A response comes that nobody waits for. -/
  | discard (r : Response)
      (hpending : ∀ id, r.numericId = some id → l.pending.any (·.1 == id) = false) :
      Change l l [] [.took (.response r)]
  /-- A response comes that is waited for. -/
  | deliver (id : Nat) (r : Response) (hid : r.numericId = some id)
      (hpending : l.pending.any (·.1 == id) = true) :
      Change l { l.cancel id with delivered := (id, .ok r) :: l.delivered } []
        [.took (.response r)]
  /-- The link fails. -/
  | fail (e : TransportError) : Change l (l.failPending e) [] [.failed]

/-- What the reader does about a line: whatever holds no frame is passed over. -/
lemma step_receive (l : Link) (line : String) :
    l.step (.receive line) = match l.frame? line with
      | some (.notification n) => (l, [.notified n])
      | some (.response r) => (l.deliver r, [])
      | none => (l, []) := by
  simp only [step, receive, frame?]
  cases hreads : l.started && l.reading with
  | false => rfl
  | true =>
    cases hblank : (Text.trim line).isEmpty with
    | true => rfl
    | false =>
      cases Frame.classify (Text.trim line) with
      | error e => rfl
      | ok f => cases f <;> rfl

/-- A step is known by what it comes to and by what is recorded of it. -/
lemma Change.of_step {l l' : Link} {s : LinkStep} {effects : List LinkEffect}
    {events : List LinkEvent} (change : l.Change l' effects events)
    (hstep : l.step s = (l', effects)) (hevents : l.met s ++ effects.filterMap l.noted = events) :
    l.Change (l.step s).1 (l.step s).2 (l.events s) := by
  rw [Link.events, hstep, hevents]
  exact change

/-- The turn goes on as far as nothing holds it up. -/
lemma change_proceed_of_turn {l : Link} {t : Turn} (hturn : l.turn = some t) :
    l.Change (l.step .proceed).1 (l.step .proceed).2 (l.events .proceed) := by
  obtain ⟨c, stage⟩ := t
  cases stage with
  | entered =>
    cases hclosed : l.closed with
    | true =>
      refine (Change.refuse _ .closed hturn rfl).of_step ?_ ?_
      · simp [step, proceed, hturn, proceedTurn, hclosed, endTurn]
      · simp [met, noted, hturn]
    | false =>
      refine (Change.wait c hturn).of_step ?_ rfl
      simp [step, proceed, hturn, proceedTurn, hclosed, moveTo]
  | waiting =>
    cases hstarted : l.started with
    | true =>
      refine (Change.number c hturn).of_step ?_ rfl
      simp [step, proceed, hturn, proceedTurn, hstarted, moveTo]
    | false =>
      cases hreading : l.reading with
      | true =>
        refine Change.stay.of_step ?_ rfl
        simp [step, proceed, hturn, proceedTurn, hstarted, hreading]
      | false =>
        refine (Change.refuse _ .closed hturn rfl).of_step ?_ ?_
        · simp [step, proceed, hturn, proceedTurn, hstarted, hreading, endTurn]
        · simp [met, noted, hturn]
  | numbered id =>
    cases hfailed : l.failed with
    | none =>
      refine (Change.ask id c hturn hfailed).of_step ?_ ?_
      · simp [step, proceed, hturn, proceedTurn, register, hfailed, moveTo]
      · simp [met, noted, hturn, TurnStage.id?]
    | some e =>
      refine (Change.refuse _ e hturn rfl).of_step ?_ ?_
      · simp [step, proceed, hturn, proceedTurn, register, hfailed, endTurn]
      · simp [met, noted, hturn]
  | registered id =>
    refine Change.stay.of_step ?_ rfl
    simp [step, proceed, hturn, proceedTurn]
  | awaiting id =>
    cases hlookup : l.delivered.lookup id with
    | none =>
      refine Change.stay.of_step ?_ rfl
      simp [step, proceed, hturn, proceedTurn, hlookup]
    | some result =>
      refine (Change.answer id c result hturn hlookup).of_step ?_ ?_
      · simp [step, proceed, hturn, proceedTurn, hlookup, endTurn]
      · simp [met, noted, hturn, TurnStage.id?]

/-- A number is taken back, and the turn ends. -/
lemma change_giveBack {l : Link} {t : Turn} {id : Nat} {e : TransportError} {s : LinkStep}
    (hturn : l.turn = some t) (hstage : t.stage.registered? = some id)
    (hstep : l.step s = (l.cancel id).endTurn t (.error e)) (hmet : l.met s = []) :
    l.Change (l.step s).1 (l.step s).2 (l.events s) := by
  refine (Change.giveBack id t e hturn hstage).of_step hstep ?_
  simp [hmet, noted, hturn, TurnStage.id?_of_registered? hstage]

/-- The reader takes in a line. -/
lemma change_receive (l : Link) (line : String) :
    l.Change (l.step (.receive line)).1 (l.step (.receive line)).2 (l.events (.receive line)) := by
  have hstep := step_receive l line
  cases hframe : l.frame? line with
  | none =>
    rw [hframe] at hstep
    exact Change.stay.of_step hstep (by simp [met, hframe])
  | some f =>
    rw [hframe] at hstep
    cases f with
    | notification n => exact (Change.notify n).of_step hstep (by simp [met, hframe, noted])
    | response r =>
      cases hid : r.numericId with
      | none =>
        refine (Change.discard r (by simp [hid])).of_step ?_ (by simp [met, hframe])
        rw [hstep]
        simp [deliver, hid]
      | some id =>
        cases hpending : l.pending.any (·.1 == id) with
        | true =>
          refine (Change.deliver id r hid hpending).of_step ?_ (by simp [met, hframe])
          rw [hstep]
          simp [deliver, hid, hpending]
        | false =>
          have hnobody : ∀ m, r.numericId = some m → l.pending.any (·.1 == m) = false := by
            rw [hid]
            rintro _ ⟨⟩
            exact hpending
          refine (Change.discard r hnobody).of_step ?_ (by simp [met, hframe])
          rw [hstep]
          simp [deliver, hid, hpending]

/-- **What a step can do to a link, with its effects and what is recorded.** -/
theorem change_step (l : Link) (s : LinkStep) :
    l.Change (l.step s).1 (l.step s).2 (l.events s) := by
  cases s with
  | call c => exact Change.call c
  | proceed =>
    cases hturn : l.turn with
    | some t => exact change_proceed_of_turn hturn
    | none =>
      cases hqueue : l.queue with
      | nil => exact Change.stay.of_step (by simp [step, proceed, hturn, hqueue]) rfl
      | cons c rest =>
        exact (Change.enter c rest hturn hqueue).of_step
          (by simp [step, proceed, hturn, hqueue]) rfl
  | giveUp =>
    cases hturn : l.turn with
    | none => exact Change.stay.of_step (by simp [step, hturn]) rfl
    | some t =>
      by_cases hwaits : t.stage = .waiting ∧ l.started = false
      · refine (Change.refuse t .notReady hturn (by rw [hwaits.1]; rfl)).of_step ?_ ?_
        · simp [step, hturn, hwaits, endTurn]
        · simp [met, noted, hturn]
      · exact Change.stay.of_step (by simp [step, hturn, hwaits]) rfl
  | wrote =>
    cases hturn : l.turn with
    | none => exact Change.stay.of_step (by simp [step, hturn]) rfl
    | some t =>
      obtain ⟨c, stage⟩ := t
      cases stage with
      | registered id => exact (Change.wrote id c hturn).of_step (by simp [step, hturn, moveTo]) rfl
      | _ => exact Change.stay.of_step (by simp [step, hturn]) rfl
  | writeFailed cause =>
    cases hturn : l.turn with
    | none => exact Change.stay.of_step (by simp [step, hturn]) rfl
    | some t =>
      obtain ⟨c, stage⟩ := t
      cases stage with
      | registered id =>
        exact change_giveBack (e := .io cause) hturn rfl (by simp only [step, hturn]) rfl
      | _ => exact Change.stay.of_step (by simp [step, hturn]) rfl
  | expire ms =>
    cases hturn : l.turn with
    | none => exact Change.stay.of_step (by simp [step, hturn]) rfl
    | some t =>
      obtain ⟨c, stage⟩ := t
      cases stage with
      | awaiting id =>
        by_cases hlookup : (l.delivered.lookup id).isSome
        · exact Change.stay.of_step (by simp [step, hturn, hlookup]) rfl
        · exact change_giveBack (e := .timeout ms) hturn rfl (by simp [step, hturn, hlookup]) rfl
      | _ => exact Change.stay.of_step (by simp [step, hturn]) rfl
  | start => exact Change.mark l.closed true l.reading fun _ => rfl
  | receive line => exact change_receive l line
  | markClosed => exact Change.mark true l.started l.reading id
  | stopReading => exact Change.mark l.closed l.started false id
  | failPending e => exact Change.fail e

/-! ### What the record tells -/

/-- Of a step one thing is recorded, or nothing. -/
lemma Change.events_cases {l l' : Link} {effects : List LinkEffect} {events : List LinkEvent}
    (change : l.Change l' effects events) : events = [] ∨ ∃ x, events = [x] := by
  cases change <;> simp

/-- A turn ends under the number of its request. -/
lemma Change.turn_of_ended {l l' : Link} {effects : List LinkEffect} {events : List LinkEvent}
    (change : l.Change l' effects events) {number : Option Nat} {c : LinkCall}
    {result : Except TransportError Response} (h : .ended number c result ∈ events) :
    ∃ t, l.turn = some t ∧ t.stage.id? = number := by
  cases change with
  | refuse t e hturn hstage => exact ⟨t, hturn, by simp_all⟩
  | answer id c' result' hturn hlookup => exact ⟨_, hturn, by simp_all [TurnStage.id?]⟩
  | giveBack id t e hturn hstage =>
    exact ⟨t, hturn, by simp_all [TurnStage.id?_of_registered? hstage]⟩
  | _ => simp at h

/-- Whatever is recorded is recorded of some step. -/
lemma exists_step_of_log {l : Link} {ss : List LinkStep} {x : LinkEvent} {pre suf : List LinkEvent}
    (h : l.log ss = pre ++ x :: suf) :
    ∃ first s rest, ss = first ++ s :: rest ∧ l.log first = pre
      ∧ (l.run first).1.events s = [x] := by
  induction ss generalizing l pre with
  | nil => simp [log] at h
  | cons s ss ih =>
    obtain hnone | ⟨y, hy⟩ := (l.change_step s).events_cases
    · rw [log, hnone, List.nil_append] at h
      obtain ⟨first, s', rest, rfl, rfl, hx⟩ := ih h
      exact ⟨s :: first, s', rest, rfl, by simp [log, hnone], hx⟩
    · rw [log, hy, List.singleton_append] at h
      cases pre with
      | nil =>
        obtain ⟨rfl, -⟩ := List.cons.inj h
        exact ⟨[], s, ss, rfl, rfl, hy⟩
      | cons z pre =>
        rw [List.cons_append, List.cons.injEq] at h
        obtain ⟨rfl, hrest⟩ := h
        obtain ⟨first, s', rest, rfl, rfl, hx⟩ := ih hrest
        exact ⟨s :: first, s', rest, rfl, by simp [log, hy], hx⟩

/-- What holds of a link and its record at first, and is kept by every change, holds at all
times. -/
lemma log_induction {P : Link → List LinkEffect → List LinkEvent → Prop} {l : Link}
    (start : P l [] [])
    (step : ∀ {l effects past l' more events},
      P l effects past → l.Change l' more events → P l' (effects ++ more) (past ++ events))
    (ss : List LinkStep) : P (l.run ss).1 (l.run ss).2 (l.log ss) := by
  suffices onward : ∀ l effects past, P l effects past →
      P (l.run ss).1 (effects ++ (l.run ss).2) (past ++ l.log ss) from onward _ _ _ start
  induction ss with
  | nil => simp [run, log]
  | cons s ss ih =>
    intro l effects past h
    have := ih _ _ _ (step h (l.change_step s))
    simpa only [run, log, List.append_assoc] using this

/-- Effects record nothing but that requests are registered and that turns end. -/
lemma filterMap_noted {α : Type} {p : LinkEvent → Option α}
    (hasked : ∀ id c, p (.asked id c) = none)
    (hended : ∀ id c result, p (.ended id c result) = none) (l : Link)
    (effects : List LinkEffect) : (effects.filterMap l.noted).filterMap p = [] := by
  rw [List.filterMap_filterMap, List.filterMap_eq_nil_iff]
  rintro (line | ⟨caller, result⟩ | n) -
  · obtain hturn | ⟨t, hturn⟩ := Option.eq_none_or_eq_some l.turn
    · simp [noted, hturn]
    · obtain hid | ⟨id, hid⟩ := Option.eq_none_or_eq_some t.stage.id? <;>
        simp [noted, hturn, hid, hasked]
  · obtain hturn | ⟨t, hturn⟩ := Option.eq_none_or_eq_some l.turn <;>
      simp [noted, hturn, hended]
  · rfl

/-- The callers that have come are those that have called. -/
lemma log_came (l : Link) (ss : List LinkStep) :
    (l.log ss).filterMap LinkEvent.came? = ss.filterMap LinkStep.call? := by
  induction ss generalizing l with
  | nil => rfl
  | cons s ss ih =>
    have hmet : (l.met s).filterMap LinkEvent.came? = s.call?.toList := by
      cases s with
      | receive line => cases hframe : l.frame? line <;> simp [met, hframe, LinkEvent.came?,
          LinkStep.call?, List.filterMap_cons]
      | _ => rfl
    rw [log, events, List.filterMap_append, List.filterMap_append,
      filterMap_noted (fun _ _ => rfl) (fun _ _ _ => rfl), hmet, ih]
    cases s <;> rfl

/-- Every call that has come has ended, or has its turn, or waits for it; and so in the order in
which the calls have come. -/
theorem calls_eq (ss : List LinkStep) :
    ss.filterMap LinkStep.call?
      = ((({} : Link).log ss).filterMap LinkEvent.ended?).map Prod.fst
        ++ (({} : Link).run ss).1.standing := by
  rw [← log_came]
  refine log_induction (P := fun l _ past => past.filterMap LinkEvent.came?
    = (past.filterMap LinkEvent.ended?).map Prod.fst ++ l.standing) rfl ?_ ss
  intro l effects past l' more events h change
  simp only [List.filterMap_append, h, List.map_append, List.append_assoc,
    List.append_cancel_left_eq]
  cases change <;>
    simp_all [standing, LinkEvent.came?, LinkEvent.ended?, failPending, cancel, List.filterMap_cons]

/-- The turns that have ended are what the callers have been told, in the same order. -/
theorem answers_eq (ss : List LinkStep) :
    (({} : Link).run ss).2.filterMap LinkEffect.finished?
      = ((({} : Link).log ss).filterMap LinkEvent.ended?).map fun (c, r) => (c.caller, r) := by
  refine log_induction (P := fun _ effects past => effects.filterMap LinkEffect.finished?
    = (past.filterMap LinkEvent.ended?).map fun (c, r) => (c.caller, r)) rfl ?_ ss
  intro l effects past l' more events h change
  rw [List.filterMap_append, List.filterMap_append, List.map_append, h]
  cases change <;> rfl

/-- The lines written are those of the requests that have been registered. -/
theorem sendings_eq (ss : List LinkStep) :
    (({} : Link).run ss).2.filterMap LinkEffect.line?
      = ((({} : Link).log ss).filterMap LinkEvent.asked?).map fun (id, c) =>
          (Request.numbered id c.method c.params).line := by
  refine log_induction (P := fun _ effects past => effects.filterMap LinkEffect.line?
    = (past.filterMap LinkEvent.asked?).map fun (id, c) =>
        (Request.numbered id c.method c.params).line) rfl ?_ ss
  intro l effects past l' more events h change
  rw [List.filterMap_append, List.filterMap_append, List.map_append, h]
  cases change <;> rfl

/-- The notifications handed on are those taken in, in the same order. -/
theorem notifications_eq {l : Link} (ss : List LinkStep) :
    (l.run ss).2.filterMap LinkEffect.notification?
      = (l.log ss).filterMap LinkEvent.notification? := by
  refine log_induction (P := fun _ effects past => effects.filterMap LinkEffect.notification?
    = past.filterMap LinkEvent.notification?) rfl ?_ ss
  intro l effects past l' more events h change
  rw [List.filterMap_append, List.filterMap_append, h]
  cases change <;> rfl

end Link
end SilentScan
