/-
From a reply to the end of the turn.

Once a request is registered, the first response to its number is kept for the caller, and the turn
ends with it, whatever else comes in between: responses to other numbers and notifications, other
callers, and even the failing of the link after the response has come.

* `Link.Open`, `Open.run`: a request that has been registered and not answered stays so;
* `Link.Holds`, `Holds.run`: a response that has been delivered waits for the caller;
* `Link.answer_of_reply`: the turn ends with the reply.
-/
import SilentScan.Proofs.Wire.Correlation

namespace SilentScan
namespace Link

/-! ### Requests that wait for their response -/

/-- That a call has its turn, its request is registered under a number, and no response to it has
been delivered. -/
structure Open (l : Link) (id : Nat) (c : LinkCall) : Prop where
  turn : ∃ stage, l.turn = some ⟨c, stage⟩ ∧ stage.registered? = some id
  pending : l.pending = [(id, c.caller)]
  delivered : l.delivered.lookup id = none

variable {l l' : Link} {id : Nat} {c : LinkCall} {past events : List LinkEvent}
  {more : List LinkEffect}

/-- A request that is registered is open. -/
lemma Conducted.open_of_ask (con : l.Conducted past) (change : l.Change l' more [.asked id c]) :
    l'.Open id c := by
  have con' := con.change change
  cases change with
  | ask _ _ hturn hfailed =>
    cases con'.exchange _ id rfl rfl with
    | isOpen _ _ _ _ _ hpending hlookup => exact ⟨⟨_, rfl, rfl⟩, hpending, hlookup⟩
    | answered _ _ _ _ _ _ _ _ hnone _ => cases hnone
    | dropped _ hnone _ => cases hnone

/-- An open request stays open as long as no response to it comes, the link does not fail, and the
turn does not end. -/
lemma Open.change (h : l.Open id c) (change : l.Change l' more events) (hsilent : Silent id events)
    (hend : ∀ c' result, .ended (some id) c' result ∉ events) : l'.Open id c := by
  obtain ⟨⟨stage, hturn, hstage⟩, hpending, hlookup⟩ := h
  cases change with
  | stay | call _ | mark _ _ _ _ | notify _ | discard _ _ =>
    exact ⟨⟨stage, hturn, hstage⟩, hpending, hlookup⟩
  | enter _ _ hnone _ => simp [hturn] at hnone
  | wait _ ht | number _ ht | ask _ _ ht _ =>
    obtain ⟨rfl, rfl⟩ := by simpa [hturn] using ht
    cases hstage
  | wrote id' c' ht =>
    obtain ⟨rfl, rfl⟩ := by simpa [hturn] using ht
    exact ⟨⟨_, rfl, hstage⟩, hpending, hlookup⟩
  | refuse t e ht hnone =>
    obtain rfl := by simpa [hturn] using ht
    simp [hstage] at hnone
  | answer id' c' result ht _ =>
    obtain ⟨rfl, rfl⟩ := by simpa [hturn] using ht
    obtain rfl : id' = id := by simpa [TurnStage.registered?] using hstage
    exact absurd (List.mem_singleton_self _) (hend c result)
  | giveBack id' t e ht hid' =>
    obtain rfl := by simpa [hturn] using ht
    obtain rfl : id' = id := Option.some.inj (hid'.symm.trans hstage)
    exact absurd (List.mem_singleton_self _) (hend c (.error e))
  | deliver id' r hid' hany =>
    obtain rfl : id = id' := by simpa [hpending] using hany
    exact absurd hid' (hsilent.2 r (List.mem_singleton_self _))
  | fail e => exact absurd (List.mem_singleton_self _) hsilent.1

lemma Open.run (h : l.Open id c) {ss : List LinkStep} (hsilent : Silent id (l.log ss))
    (hend : ∀ c' result, .ended (some id) c' result ∉ l.log ss) : (l.run ss).1.Open id c := by
  induction ss generalizing l with
  | nil => exact h
  | cons s ss ih =>
    rw [log] at hsilent hend
    have hstep : (l.step s).1.Open id c := by
      refine h.change (l.change_step s) ⟨?_, ?_⟩ ?_
      · exact fun hfailed => hsilent.1 (List.mem_append_left _ hfailed)
      · exact fun r hr => hsilent.2 r (List.mem_append_left _ hr)
      · exact fun c' result hmem => hend c' result (List.mem_append_left _ hmem)
    refine ih hstep ⟨?_, ?_⟩ ?_
    · exact fun hfailed => hsilent.1 (List.mem_append_right _ hfailed)
    · exact fun r hr => hsilent.2 r (List.mem_append_right _ hr)
    · exact fun c' result hmem => hend c' result (List.mem_append_right _ hmem)

/-! ### Responses that wait for their caller -/

/-- That a call has its turn and a response to its request has been delivered. -/
structure Holds (l : Link) (id : Nat) (c : LinkCall) (r : Response) : Prop where
  turn : ∃ stage, l.turn = some ⟨c, stage⟩ ∧ stage.registered? = some id
  pending : l.pending = []
  delivered : l.delivered.lookup id = some (.ok r)

variable {r : Response}

/-- The response to an open request is delivered. -/
lemma Open.receive (h : l.Open id c) {text : String} (hframe : l.frame? text = some (.response r))
    (hid : r.numericId = some id) : (l.step (.receive text)).1.Holds id c r := by
  obtain ⟨hturn, hpending, -⟩ := h
  rw [step_receive, hframe]
  have hany : l.pending.any (·.1 == id) = true := by simp [hpending]
  simp only [deliver, hid, hany, if_true]
  exact ⟨hturn, by simp [cancel, hpending], by simp⟩

/-- A call whose number is registered is being written, or waits for its response. -/
lemma Holds.turn_cases (h : l.Holds id c r) :
    l.turn = some ⟨c, .registered id⟩ ∨ l.turn = some ⟨c, .awaiting id⟩ := by
  obtain ⟨stage, hturn, hstage⟩ := h.turn
  cases stage <;> simp_all [TurnStage.registered?]

/-- A response that has been delivered stays, or the turn ends with it, unless the writing of the
request fails. -/
lemma Holds.step (h : l.Holds id c r) {s : LinkStep} (hs : ∀ cause, s ≠ .writeFailed cause) :
    (l.step s).1.Holds id c r ∨ .ended (some id) c (.ok r) ∈ l.events s := by
  have same (hstep : (l.step s).1 = l) :
      (l.step s).1.Holds id c r ∨ .ended (some id) c (.ok r) ∈ l.events s :=
    .inl (hstep.symm ▸ h)
  have hcases := h.turn_cases
  obtain ⟨hturn, hpending, hlookup⟩ := h
  cases s with
  | call _ | start | markClosed | stopReading => exact .inl ⟨hturn, hpending, hlookup⟩
  | writeFailed cause => exact absurd rfl (hs cause)
  | proceed =>
    obtain hregistered | hawaiting := hcases
    · exact same (by simp [Link.step, proceed, hregistered, proceedTurn])
    · exact .inr (by simp [events, met, Link.step, proceed, hawaiting, proceedTurn, hlookup,
        endTurn, noted, TurnStage.id?])
  | giveUp => exact same (by obtain ht | ht := hcases <;> simp [Link.step, ht])
  | wrote =>
    obtain hregistered | hawaiting := hcases
    · have hstep : (l.step .wrote).1 = l.moveTo ⟨c, .registered id⟩ (.awaiting id) := by
        simp [Link.step, hregistered]
      rw [hstep]
      exact .inl ⟨⟨_, rfl, rfl⟩, hpending, hlookup⟩
    · exact same (by simp [Link.step, hawaiting])
  | expire ms => exact same (by obtain ht | ht := hcases <;> simp [Link.step, ht, hlookup])
  | receive text =>
    refine same ?_
    rw [step_receive]
    cases l.frame? text with
    | none => rfl
    | some f => cases f with
      | notification n => rfl
      | response r' => cases hid : r'.numericId <;> simp [deliver, hid, hpending]
  | failPending e =>
    exact .inl ⟨hturn, rfl, by simpa [Link.step, failPending, hpending] using hlookup⟩

lemma Holds.run (h : l.Holds id c r) {ss : List LinkStep} (hs : ∀ cause, .writeFailed cause ∉ ss) :
    (l.run ss).1.Holds id c r ∨ .ended (some id) c (.ok r) ∈ l.log ss := by
  induction ss generalizing l with
  | nil => exact .inl h
  | cons s ss ih =>
    have hne : ∀ cause, s ≠ .writeFailed cause := fun cause heq => hs cause (by simp [heq])
    obtain hholds | hended := h.step hne
    · obtain hholds | hended := ih hholds fun cause hmem => hs cause (List.mem_cons_of_mem _ hmem)
      · exact .inl hholds
      · exact .inr (List.mem_append_right _ hended)
    · exact .inr (List.mem_append_left _ hended)

/-- Once its request is written and the caller goes on, the turn ends with the response. -/
lemma Holds.ends (h : l.Holds id c r) : .ended (some id) c (.ok r) ∈ l.log [.wrote, .proceed] := by
  have hlookup := h.delivered
  obtain hturn | hturn := h.turn_cases <;>
    simp [log, events, met, Link.step, proceed, hturn, proceedTurn, hlookup, endTurn, noted,
      TurnStage.id?, moveTo]

/-! ### The course of a request -/

/-- A turn ends once. -/
lemma ended_unique {ss : List LinkStep} {c' : LinkCall}
    {result result' : Except TransportError Response}
    (h : .ended (some id) c result ∈ ({} : Link).log ss)
    (h' : .ended (some id) c' result' ∈ ({} : Link).log ss) : c' = c ∧ result' = result := by
  obtain ⟨pre, suf, hsplit⟩ := List.append_of_mem h
  rw [hsplit, List.mem_append, List.mem_cons] at h'
  obtain hpre | heq | hsuf := h'
  · obtain ⟨before, between, rfl⟩ := List.append_of_mem hpre
    rw [List.append_assoc, List.cons_append] at hsplit
    exact absurd (by simp) (not_ended_again hsplit c result)
  · simp only [LinkEvent.ended.injEq] at heq
    exact heq.2
  · exact absurd hsuf (not_ended_again hsplit c' result')

/-- What a turn has ended with is what its caller is told. -/
lemma told_of_ended {ss : List LinkStep} {number : Option Nat}
    {result : Except TransportError Response}
    (h : .ended number c result ∈ ({} : Link).log ss) :
    .finished c.caller result ∈ (({} : Link).run ss).2 := by
  have hended : (c, result) ∈ (({} : Link).log ss).filterMap LinkEvent.ended? :=
    List.mem_filterMap.2 ⟨_, h, rfl⟩
  have htold : (c.caller, result) ∈ (({} : Link).run ss).2.filterMap LinkEffect.finished? := by
    rw [answers_eq]
    exact List.mem_map.2 ⟨_, hended, rfl⟩
  obtain ⟨effect, heffect, hof⟩ := List.mem_filterMap.1 htold
  cases effect with
  | finished caller result' =>
    obtain ⟨rfl, rfl⟩ := Prod.mk.inj (Option.some.inj hof)
    exact heffect
  | _ => cases hof

/-- **A request gets the reply.** Let the request of a call be registered under a number, and then
the turn not have ended, the link not have failed, and no other response to this number have come.
If now a reply to the number comes, then the turn ends with it as soon as the request is written
and the caller goes on, and with nothing else, whatever happens meanwhile. -/
theorem answer_of_reply {ss : List LinkStep} {since : List LinkEvent}
    (hlog : ({} : Link).log ss = past ++ .asked id c :: since) (hsilent : Silent id since)
    (hend : ∀ c' result, .ended (some id) c' result ∉ since) {text : String}
    (hframe : (({} : Link).run ss).1.frame? text = some (.response r))
    (hid : r.numericId = some id) {rest : List LinkStep}
    (hrest : ∀ cause, .writeFailed cause ∉ rest) :
    .ended (some id) c (.ok r)
        ∈ ({} : Link).log (ss ++ .receive text :: (rest ++ [.wrote, .proceed]))
      ∧ ∀ c' result, .ended (some id) c' result
          ∈ ({} : Link).log (ss ++ .receive text :: (rest ++ [.wrote, .proceed])) →
        c' = c ∧ result = .ok r := by
  obtain ⟨first, s, later, rfl, hfirst, hasked⟩ := exists_step_of_log hlog
  have hopen : (({} : Link).run (first ++ s :: later)).1.Open id c := by
    have hstep : ((({} : Link).run first).1.step s).1.Open id c :=
      (conducted_run first).open_of_ask (hasked ▸ change_step _ s)
    have hlater : ((({} : Link).run first).1.step s).1.log later = since := by
      rw [log_append, hfirst, log, hasked, List.append_cancel_left_eq] at hlog
      exact (List.cons.inj hlog).2
    rw [run_append]
    exact hstep.run (hlater ▸ hsilent) (hlater ▸ hend)
  have hmem : .ended (some id) c (.ok r) ∈ ({} : Link).log
      (first ++ s :: later ++ .receive text :: (rest ++ [.wrote, .proceed])) := by
    rw [log_append, log]
    refine List.mem_append_right _ (List.mem_append_right _ ?_)
    rw [log_append, List.mem_append]
    obtain hholds | hended := (hopen.receive hframe hid).run hrest
    · exact .inr hholds.ends
    · exact .inl hended
  exact ⟨hmem, fun c' result h => ended_unique hmem h⟩

end Link
end SilentScan
