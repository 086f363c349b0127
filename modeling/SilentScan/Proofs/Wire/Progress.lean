/-
After a link has failed every request ends.

A caller whose turn it is goes on by itself, but for two things: it waits for its line to be
written, and it may wait for the reader to start. A round is fair if in it the callers go on, a
line that is being written is written or fails to be, and whoever waits for the reader gives up.
Once the link has failed, every fair round brings the calls further, until none is left: nothing
is registered any more, and what was registered has been dropped.

* `Link.progress`: how far a link has come with its calls;
* `Change.progress`: a change brings it further or leaves it where it was held up;
* `Link.progress_round`: a fair round brings a failed link further;
* `Link.calls_end`: after enough fair rounds every call has ended;
* `Link.Faithful`, `Link.faithful_run`: how requests fare on a link.
-/
import Mathlib.Order.Nat
import SilentScan.Proofs.Wire.Correlation

namespace SilentScan

/-- How far a turn has come. -/
def TurnStage.rank : TurnStage → Nat
  | .entered => 1
  | .waiting => 2
  | .numbered _ => 3
  | .registered _ => 4
  | .awaiting _ => 5

/-- A fair round of steps: the callers go on, a write comes to its end, and the wait for the reader
comes to its end. Other steps may come in between. -/
structure FairRound (round : List LinkStep) : Prop where
  proceeds : .proceed ∈ round
  writes : .wrote ∈ round ∨ ∃ cause, .writeFailed cause ∈ round
  givesUp : .giveUp ∈ round

namespace Link

/-- The calls that have ended according to a record. -/
def endedCalls (past : List LinkEvent) : List LinkCall :=
  (past.filterMap LinkEvent.ended?).map Prod.fst

lemma endedCalls_append (past events : List LinkEvent) :
    endedCalls (past ++ events) = endedCalls past ++ endedCalls events := by
  simp [endedCalls]

/-- How far the turn under way has come, and whether the reader has started. -/
def rank (l : Link) : Nat :=
  (l.turn.elim 0 (·.stage.rank)) + l.started.toNat

lemma rank_le (l : Link) : l.rank ≤ 6 := by
  have hstarted : l.started.toNat ≤ 1 := Bool.toNat_le l.started
  have hturn : l.turn.elim 0 (·.stage.rank) ≤ 5 := by
    cases l.turn with
    | none => simp
    | some t => simp only [Option.elim]; cases t.stage <;> simp [TurnStage.rank]
  simp only [rank]
  omega

/-- How far a link has come with its calls. -/
def progress (l : Link) (past : List LinkEvent) : Nat :=
  6 * (endedCalls past).length + l.rank

/-- That a link is where another one was held up. -/
structure Held (l l' : Link) : Prop where
  turn : l'.turn = l.turn
  started : l'.started = l.started
  standing : l.standing ≠ [] → l'.standing ≠ []

section Change

variable {l l' : Link} {past events : List LinkEvent} {more : List LinkEffect}

/-- A link that has failed stays so. -/
lemma Change.failed (change : l.Change l' more events) (h : l.failed ≠ none) :
    l'.failed ≠ none := by
  cases change <;> simp_all [failPending, cancel]

/-- Where neither the turn nor the reader has changed, the link is held up as before. -/
lemma held_of_eq (hturn : l'.turn = l.turn) (hstarted : l'.started = l.started)
    (hqueue : ∃ arrived, l'.queue = l.queue ++ arrived) : l.Held l' := by
  obtain ⟨arrived, hqueue⟩ := hqueue
  refine ⟨hturn, hstarted, fun h => ?_⟩
  simp only [standing, hturn, hqueue, ← List.append_assoc]
  exact List.append_ne_nil_of_left_ne_nil h _

/-- Where a link is held up it has come as far as before. -/
lemma Held.progress_eq (held : l.Held l') (hevents : endedCalls events = []) :
    l'.progress (past ++ events) = l.progress past := by
  simp [progress, rank, endedCalls_append, hevents, held.turn, held.started]

/-- The end of a turn counts for more than all that a turn can come to. -/
lemma progress_lt_of_ended (hended : (endedCalls events).length = 1)
    (hstarted : l'.started = l.started) (hturn : l'.turn = none) :
    l.progress past < l'.progress (past ++ events) := by
  have hrank : l.rank ≤ 5 + l'.started.toNat := by
    have := l.rank_le
    cases hs : l.started with
    | true => simp_all
    | false =>
      simp only [rank, hs, hstarted]
      cases l.turn with
      | none => simp
      | some t => cases t with
        | mk c stage => cases stage <;> simp [TurnStage.rank]
  simp only [progress, endedCalls_append, List.length_append, hended]
  simp only [rank, hturn, Option.elim] at hrank ⊢
  omega

/-- **A change brings the calls further, or leaves the link where it was held up.** -/
lemma Change.progress (change : l.Change l' more events) (past : List LinkEvent) :
    l.progress past < l'.progress (past ++ events) ∨
      l.progress past = l'.progress (past ++ events) ∧ l.Held l' := by
  have stands (held : l.Held l') (hevents : endedCalls events = []) :
      l.progress past = l'.progress (past ++ events) ∧ l.Held l' :=
    ⟨(held.progress_eq hevents).symm, held⟩
  cases change with
  | stay | notify n | discard r hnobody | deliver id r hid hpending | fail e =>
    exact .inr (stands (held_of_eq rfl rfl ⟨[], by simp [cancel, failPending]⟩) rfl)
  | call c => exact .inr (stands (held_of_eq rfl rfl ⟨[c], rfl⟩) rfl)
  | mark closed started reading hstarted =>
    by_cases hsame : started = l.started
    · exact .inr (stands (held_of_eq rfl hsame ⟨[], by simp⟩) rfl)
    · left
      cases hs : l.started <;> simp_all [Link.progress, rank]
  | enter c rest hturn hqueue => left; simp [Link.progress, rank, hturn, TurnStage.rank]
  | wait c hturn => left; simp [Link.progress, rank, hturn, TurnStage.rank]
  | number c hturn => left; simp [Link.progress, rank, hturn, TurnStage.rank]
  | ask id c hturn hfailed =>
    left
    simp [Link.progress, rank, hturn, TurnStage.rank, endedCalls,
      LinkEvent.ended?, List.filterMap_cons]
  | wrote id c hturn => left; simp [Link.progress, rank, hturn, TurnStage.rank]
  | refuse t e hturn hstage => exact .inl (progress_lt_of_ended rfl rfl rfl)
  | answer id c result hturn hlookup => exact .inl (progress_lt_of_ended rfl rfl rfl)
  | giveBack id t e hturn hstage => exact .inl (progress_lt_of_ended rfl rfl rfl)

end Change

/-! ### Fair rounds -/

/-- Steps never bring the calls back. -/
lemma progress_run_le (l : Link) (past : List LinkEvent) (ss : List LinkStep) :
    l.progress past ≤ (l.run ss).1.progress (past ++ l.log ss) := by
  induction ss generalizing l past with
  | nil => simp [run, log]
  | cons s ss ih =>
    have hstep : l.progress past ≤ (l.step s).1.progress (past ++ l.events s) := by
      obtain hlt | ⟨heq, -⟩ := (l.change_step s).progress past
      · exact hlt.le
      · exact heq.le
    rw [run, log, ← List.append_assoc]
    exact hstep.trans (ih _ _)

/-- That a step makes the turn go on wherever a failed link is held up as this one. -/
def Decisive (l : Link) (s : LinkStep) : Prop :=
  ∀ l' past, l'.Conducted past → l'.failed ≠ none → l.Held l' → (l'.step s).1.turn ≠ l'.turn

lemma Held.trans {l l' l'' : Link} (h : l.Held l') (h' : l'.Held l'') : l.Held l'' :=
  ⟨h'.turn.trans h.turn, h'.started.trans h.started, h'.standing ∘ h.standing⟩

/-- If the decisive step is among some steps, these bring the calls further: those before it do, or
leave the link where it was held up. -/
lemma Decisive.progress_run {l : Link} {s : LinkStep} (dec : l.Decisive s) {ss : List LinkStep}
    (hs : s ∈ ss) {l' : Link} {past : List LinkEvent} (con : l'.Conducted past)
    (hfailed : l'.failed ≠ none) (held : l.Held l') :
    l'.progress past < (l'.run ss).1.progress (past ++ l'.log ss) := by
  induction ss generalizing l' past with
  | nil => simp at hs
  | cons s' ss ih =>
    rw [run, log, ← List.append_assoc]
    have change := l'.change_step s'
    have hrest := (l'.step s').1.progress_run_le (past ++ l'.events s') ss
    obtain hlt | ⟨heq, held'⟩ := change.progress past
    · exact hlt.trans_le hrest
    · obtain rfl | hs := List.mem_cons.1 hs
      · exact absurd held'.turn (dec l' past con hfailed held)
      · exact heq.trans_lt (ih hs (con.change change) (change.failed hfailed) (held.trans held'))

/-- What has been asked of a link that has failed is answered or dropped. -/
lemma Conducted.lookup_of_failed {l : Link} {past : List LinkEvent} (con : l.Conducted past)
    (hfailed : l.failed ≠ none) {c : LinkCall} {id : Nat}
    (hturn : l.turn = some ⟨c, .awaiting id⟩) :
    ∃ result, l.delivered.lookup id = some result := by
  cases con.exchange _ id hturn rfl with
  | isOpen before since hpast hbefore hsince _ _ =>
    have hmem := con.failed.2 hfailed
    simp [hpast, hbefore, hsince.1] at hmem
  | answered _ _ _ r _ _ _ _ _ hlookup => exact ⟨_, hlookup⟩
  | dropped e _ hlookup => exact ⟨_, hlookup⟩

/-- **In every fair round there is a step that makes the turn go on.** -/
lemma exists_decisive {l : Link} {round : List LinkStep} (fair : FairRound round)
    (hstanding : l.standing ≠ []) : ∃ s ∈ round, l.Decisive s := by
  cases hturn : l.turn with
  | none =>
    refine ⟨_, fair.proceeds, fun l' past _ _ held => ?_⟩
    have hnone : l'.turn = none := held.turn.trans hturn
    have hqueue : l'.queue ≠ [] := by simpa [standing, hnone] using held.standing hstanding
    obtain ⟨c, rest, hcons⟩ := List.exists_cons_of_ne_nil hqueue
    simp [step, proceed, hnone, hcons]
  | some t =>
    obtain ⟨c, stage⟩ := t
    cases stage with
    | entered =>
      refine ⟨_, fair.proceeds, fun l' past _ _ held => ?_⟩
      have hentered := held.turn.trans hturn
      cases hclosed : l'.closed <;>
        simp [step, proceed, hentered, proceedTurn, hclosed, endTurn, moveTo]
    | waiting =>
      cases hstarted : l.started with
      | true =>
        refine ⟨_, fair.proceeds, fun l' past _ _ held => ?_⟩
        have hwaiting := held.turn.trans hturn
        simp [step, proceed, hwaiting, proceedTurn, held.started.trans hstarted, moveTo]
      | false =>
        refine ⟨_, fair.givesUp, fun l' past _ _ held => ?_⟩
        have hwaiting := held.turn.trans hturn
        simp [step, hwaiting, held.started.trans hstarted, endTurn]
    | numbered id =>
      refine ⟨_, fair.proceeds, fun l' past _ hfailed held => ?_⟩
      have hnumbered := held.turn.trans hturn
      obtain ⟨e, he⟩ := Option.ne_none_iff_exists'.1 hfailed
      simp [step, proceed, hnumbered, proceedTurn, register, he, endTurn]
    | registered id =>
      obtain hwrote | ⟨cause, hcause⟩ := fair.writes
      · refine ⟨_, hwrote, fun l' past _ _ held => ?_⟩
        simp [step, held.turn.trans hturn, moveTo]
      · refine ⟨_, hcause, fun l' past _ _ held => ?_⟩
        simp [step, held.turn.trans hturn, endTurn]
    | awaiting id =>
      refine ⟨_, fair.proceeds, fun l' past con hfailed held => ?_⟩
      have hawaiting := held.turn.trans hturn
      obtain ⟨result, hresult⟩ := con.lookup_of_failed hfailed hawaiting
      simp [step, proceed, hawaiting, proceedTurn, hresult, endTurn]

/-- A fair round brings the calls of a failed link further. -/
lemma progress_round {l : Link} {past : List LinkEvent} (con : l.Conducted past)
    (hfailed : l.failed ≠ none) (hstanding : l.standing ≠ []) {round : List LinkStep}
    (fair : FairRound round) :
    l.progress past < (l.run round).1.progress (past ++ l.log round) := by
  obtain ⟨s, hs, dec⟩ := exists_decisive fair hstanding
  exact dec.progress_run hs con hfailed ⟨rfl, rfl, id⟩

/-- How far the calls have come after some steps. -/
def progressAfter (ss : List LinkStep) : Nat :=
  (({} : Link).run ss).1.progress (({} : Link).log ss)

/-- What has ended after some steps has ended after more. -/
lemma length_endedCalls_le (ss more : List LinkStep) :
    (endedCalls (({} : Link).log ss)).length
      ≤ (endedCalls (({} : Link).log (ss ++ more))).length := by
  simp [log_append, endedCalls_append]

/-- Every fair round after the failing brings the calls further, until those that have come have
all ended. -/
lemma progress_rounds {ss : List LinkStep} (hfailed : .failed ∈ ({} : Link).log ss) {count : Nat}
    (hcount : count ≤ (ss.filterMap LinkStep.call?).length) (rounds : List (List LinkStep))
    (fair : ∀ round ∈ rounds, FairRound round) :
    count ≤ (endedCalls (({} : Link).log (ss ++ rounds.flatten))).length
      ∨ progressAfter ss + rounds.length ≤ progressAfter (ss ++ rounds.flatten) := by
  induction rounds generalizing ss with
  | nil => simp
  | cons round rounds ih =>
    by_cases hstanding : (({} : Link).run ss).1.standing = []
    · left
      have hended := calls_eq ss
      rw [hstanding, List.append_nil] at hended
      rw [hended] at hcount
      exact hcount.trans (length_endedCalls_le ss _)
    · have con := conducted_run ss
      have hround : progressAfter ss < progressAfter (ss ++ round) := by
        simp only [progressAfter, run_append, log_append]
        exact progress_round con (con.failed.1 hfailed) hstanding (fair round (by simp))
      have hfailed' : .failed ∈ ({} : Link).log (ss ++ round) := by simp [log_append, hfailed]
      have hrest := ih hfailed' (by simp only [List.filterMap_append, List.length_append]; omega)
        (fun r hr => fair r (by simp [hr]))
      rw [List.append_assoc, ← List.flatten_cons] at hrest
      refine hrest.imp_right fun h => ?_
      simp only [List.length_cons]
      omega

/-- **After a link has failed, enough fair rounds bring every call that has come to its end.** -/
theorem calls_end {ss : List LinkStep} (hfailed : .failed ∈ ({} : Link).log ss)
    {rounds : List (List LinkStep)} (fair : ∀ round ∈ rounds, FairRound round)
    (hrounds : 6 * (ss.filterMap LinkStep.call?).length < rounds.length) :
    ss.filterMap LinkStep.call? <+: endedCalls (({} : Link).log (ss ++ rounds.flatten)) := by
  have hlength : (ss.filterMap LinkStep.call?).length
      ≤ (endedCalls (({} : Link).log (ss ++ rounds.flatten))).length := by
    obtain h | h := progress_rounds hfailed le_rfl rounds fair
    · exact h
    · have hrank := (({} : Link).run (ss ++ rounds.flatten)).1.rank_le
      simp only [progressAfter, progress] at h
      omega
  have hended : endedCalls (({} : Link).log (ss ++ rounds.flatten))
      <+: (ss ++ rounds.flatten).filterMap LinkStep.call? := ⟨_, (calls_eq _).symm⟩
  rw [List.filterMap_append] at hended
  exact List.prefix_of_prefix_length_le (List.prefix_append _ _) hended hlength

/-! ### How requests fare -/

/-- A link to which a failing has happened has failed. -/
lemma failed_mem_log {l : Link} {ss : List LinkStep} {e : TransportError}
    (h : .failPending e ∈ ss) : .failed ∈ l.log ss := by
  induction ss generalizing l with
  | nil => simp at h
  | cons s ss ih =>
    rw [log, List.mem_append]
    obtain rfl | h := List.mem_cons.1 h
    · exact .inl (by simp [events, met, step])
    · exact .inr (ih h)

/-- How requests and notifications fare in the course of some steps, from a link that nothing has
happened to. -/
structure Faithful (ss : List LinkStep) : Prop where
  /-- At most one request is registered. -/
  one_pending : (({} : Link).run ss).1.pending.length ≤ 1
  /-- Every call that has come has ended, or has its turn, or waits for it, in the order in which
  the calls have come. -/
  calls : ss.filterMap LinkStep.call?
    = endedCalls (({} : Link).log ss) ++ (({} : Link).run ss).1.standing
  /-- What the callers are told is what their turns have ended with. -/
  told : (({} : Link).run ss).2.filterMap LinkEffect.finished?
    = ((({} : Link).log ss).filterMap LinkEvent.ended?).map fun (c, r) => (c.caller, r)
  /-- The lines written are those of the requests registered, under their numbers. -/
  written : (({} : Link).run ss).2.filterMap LinkEffect.line?
    = ((({} : Link).log ss).filterMap LinkEvent.asked?).map fun (id, c) =>
        (Request.numbered id c.method c.params).line
  /-- No number is used twice. -/
  own_number : ∀ pre id c suf, ({} : Link).log ss = pre ++ .asked id c :: suf →
    ∀ c', .asked id c' ∉ suf
  /-- A caller that gets a response gets the first one to its own number that has come since the
  request was registered. -/
  first_response : ∀ pre number c r suf,
    ({} : Link).log ss = pre ++ .ended number c (.ok r) :: suf → Answered pre number c r
  /-- No response is handed to two callers. -/
  not_shared : ∀ pre number c r suf, ({} : Link).log ss = pre ++ .ended number c (.ok r) :: suf →
    ∀ number' c' r', .ended number' c' (.ok r') ∈ suf → r'.numericId ≠ r.numericId
  /-- A response to a request that has ended changes nothing. -/
  late : ∀ id c result, .ended (some id) c result ∈ ({} : Link).log ss →
    ∀ line r, (({} : Link).run ss).1.frame? line = some (.response r) → r.numericId = some id →
      (({} : Link).run ss).1.step (.receive line) = ((({} : Link).run ss).1, [])
  /-- The notifications taken in are handed on, each once and in the order of their coming. -/
  notified : (({} : Link).run ss).2.filterMap LinkEffect.notification?
    = (({} : Link).log ss).filterMap LinkEvent.notification?
  /-- Whoever gets a response after the link has failed had been answered before that. -/
  answered_before : ∀ pre suf, ({} : Link).log ss = pre ++ .failed :: suf →
    ∀ number c r, .ended number c (.ok r) ∈ suf → Answered pre number c r
  /-- After the link has failed every call ends, if the callers are not kept from going on. -/
  ends : ∀ e, .failPending e ∈ ss → ∀ rounds : List (List LinkStep),
    (∀ round ∈ rounds, FairRound round) →
    6 * (ss.filterMap LinkStep.call?).length < rounds.length →
      ss.filterMap LinkStep.call? <+: endedCalls (({} : Link).log (ss ++ rounds.flatten))

/-- **Whatever happens to a link, in whatever order: one request at a time is registered, each
caller gets the first response to its own number and nobody else does, what comes late does
nothing, notifications are handed on as they come, and after a failing every request that has not
been answered ends with an error.** -/
theorem faithful_run (ss : List LinkStep) : Faithful ss where
  one_pending := pending_length_le ss
  calls := calls_eq ss
  told := answers_eq ss
  written := sendings_eq ss
  own_number _ _ _ _ h := not_asked_again h
  first_response _ _ _ _ _ h := answered_of_ended h
  not_shared _ _ _ _ _ h _ _ _ h' := not_answered_again h h'
  late _ _ _ h _ _ hframe hid := step_late h hframe hid
  notified := notifications_eq ss
  answered_before _ _ h _ _ _ h' := answered_before_failing h h'
  ends _ h _ fair hrounds := calls_end (failed_mem_log h) fair hrounds

/-- Two callers, of whom the first is answered late and the second in time. -/
example : ((({} : Link).log
    [.start, .call ⟨0, "a", .null⟩, .call ⟨1, "b", .null⟩, .proceed, .proceed, .proceed, .proceed,
      .wrote, .expire 5, .proceed, .proceed, .proceed, .proceed, .wrote,
      .receive "\x7b\"id\":1,\"result\":true\x7d", .receive "\x7b\"id\":\"2\"\x7d",
      .proceed]).filterMap
    LinkEvent.ended?).map (fun (c, r) => (c.caller, r.toOption.map Response.numericId))
      = [(0, none), (1, some (some 2))] := by
  decide +kernel

end Link
end SilentScan
