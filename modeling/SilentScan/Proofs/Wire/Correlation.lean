/-
Which response a caller gets.

A number is registered for one request only, and the number registered is that of the caller whose
turn it is. So a response is delivered to the caller that has asked under its number, and to no
other, and only the first one is: the number is taken back with it. What stands between a caller
and its response is an `Exchange`: it is open, or answered, or dropped by the failing of the link.

* `Link.Numbered`: what has been recorded is recorded under numbers given out before;
* `Link.Exchange`, `Link.Conducted`: how the request under way stands, as the record tells it;
* `Link.Conducted.change`, `Link.conducted_run`: every change, and so every course, keeps to it;
* `Link.answered_of_ended`: a caller gets the first response to its own number;
* `Link.not_answered_again`, `Link.step_late`, `Link.answered_before_failing`: no response is handed
  to two callers, none that is late does anything, and none is handed on that comes after the
  failing of the link.
-/
import SilentScan.Proofs.Wire.Record

namespace SilentScan

/-- That among events there is no response to a number and no failing. -/
def Silent (id : Nat) (events : List LinkEvent) : Prop :=
  .failed ∉ events ∧ ∀ r, .took (.response r) ∈ events → r.numericId ≠ some id

namespace Link

/-! ### Numbers -/

/-- That the numbers given out so far are those below the next one, and that a request is
registered under its number no more than once and ends no more than once. -/
structure Numbered (l : Link) (past : List LinkEvent) : Prop where
  turn_lt : ∀ t id, l.turn = some t → t.stage.id? = some id → id < l.nextId
  asked_lt : ∀ id c, .asked id c ∈ past → id < l.nextId
  ended_lt : ∀ id c result, .ended (some id) c result ∈ past → id < l.nextId
  unasked : ∀ c id, l.turn = some ⟨c, .numbered id⟩ → ∀ c', .asked id c' ∉ past
  unended : ∀ t id, l.turn = some t → t.stage.id? = some id →
    ∀ c result, .ended (some id) c result ∉ past
  pending : ∀ id k, (id, k) ∈ l.pending → ∃ c, .asked id c ∈ past
  delivered : ∀ id x, (id, x) ∈ l.delivered → ∃ c, .asked id c ∈ past

/-- Every change keeps the numbers in order. -/
lemma Numbered.change {l l' : Link} {past events : List LinkEvent} {more : List LinkEffect}
    (num : l.Numbered past) (change : l.Change l' more events) : l'.Numbered (past ++ events) := by
  obtain ⟨hturn, hasked, hended, hunasked, hunended, hpending, hdelivered⟩ := num
  constructor
  · cases change <;> grind [TurnStage.id?, failPending, cancel]
  · cases change with
    | ask id c hask _ =>
      have hid : id < l.nextId := hturn _ id hask rfl
      grind
    | _ => grind [failPending, cancel]
  · cases change <;> grind [TurnStage.id?, TurnStage.id?_of_registered?, failPending, cancel]
  · cases change <;> grind [failPending, cancel]
  · cases change <;> grind [TurnStage.id?, failPending, cancel]
  · cases change <;> grind [failPending, cancel]
  · cases change <;> grind [failPending, cancel]

/-! ### The request under way -/

/-- How a registered request stands. -/
inductive Exchange (l : Link) (past : List LinkEvent) (id : Nat) (c : LinkCall) : Prop
  /-- No response to it has come, and the link has not failed. -/
  | isOpen (before since : List LinkEvent) (hpast : past = before ++ .asked id c :: since)
      (hbefore : .failed ∉ before) (hsince : Silent id since)
      (hpending : l.pending = [(id, c.caller)]) (hdelivered : l.delivered.lookup id = none)
  /-- The first response to it has been delivered. -/
  | answered (before since later : List LinkEvent) (r : Response)
      (hpast : past = before ++ .asked id c :: (since ++ .took (.response r) :: later))
      (hbefore : .failed ∉ before) (hsince : Silent id since) (hid : r.numericId = some id)
      (hpending : l.pending = []) (hdelivered : l.delivered.lookup id = some (.ok r))
  /-- The link has failed before any response to it has come. -/
  | dropped (e : TransportError) (hpending : l.pending = [])
      (hdelivered : l.delivered.lookup id = some (.error e))

/-- That no number is registered but that of the request under way, and how that one stands. -/
structure Conducted (l : Link) (past : List LinkEvent) : Prop where
  numbered : l.Numbered past
  failed : .failed ∈ past ↔ l.failed ≠ none
  exchange : ∀ t id, l.turn = some t → t.stage.registered? = some id → l.Exchange past id t.call
  idle : (∀ t, l.turn = some t → t.stage.registered? = none) → l.pending = []

/-- A registered request is not affected by what does not touch what is registered and delivered,
as long as no response to it comes. -/
lemma Exchange.pass {l l' : Link} {past events : List LinkEvent} {id : Nat} {c : LinkCall}
    (ex : l.Exchange past id c) (hpending : l'.pending = l.pending)
    (hdelivered : l'.delivered = l.delivered)
    (hevents : l.pending = [(id, c.caller)] → Silent id events) :
    l'.Exchange (past ++ events) id c := by
  cases ex with
  | isOpen before since hpast hbefore hsince hopen hlookup =>
    obtain ⟨hnofail, hnoresponse⟩ := hevents hopen
    refine .isOpen before (since ++ events) (by rw [hpast]; simp) hbefore ⟨?_, ?_⟩
      (hpending ▸ hopen) (hdelivered ▸ hlookup)
    · simpa only [List.mem_append, not_or] using ⟨hsince.1, hnofail⟩
    · intro r hr
      exact (List.mem_append.1 hr).elim (hsince.2 r) (hnoresponse r)
  | answered before since later r hpast hbefore hsince hid hnone hlookup =>
    exact .answered before since (later ++ events) r (by rw [hpast]; simp) hbefore hsince hid
      (hpending ▸ hnone) (hdelivered ▸ hlookup)
  | dropped e hnone hlookup => exact .dropped e (hpending ▸ hnone) (hdelivered ▸ hlookup)

section Change

variable {l l' : Link} {past events : List LinkEvent} {more : List LinkEffect}

/-- A change that leaves the turn as it is, and what is registered and delivered. -/
lemma Conducted.keep (con : l.Conducted past) (num : l'.Numbered (past ++ events))
    (hturn : l'.turn = l.turn) (hpending : l'.pending = l.pending)
    (hdelivered : l'.delivered = l.delivered) (hfailed : l'.failed = l.failed)
    (hnofail : .failed ∉ events)
    (hevents : ∀ id, l.pending.any (·.1 == id) = true → Silent id events) :
    l'.Conducted (past ++ events) where
  numbered := num
  failed := by simpa [hnofail, hfailed] using con.failed
  exchange t id ht hid := by
    refine (con.exchange t id (hturn ▸ ht) hid).pass hpending hdelivered fun hopen => ?_
    exact hevents id (by simp [hopen])
  idle hidle := hpending ▸ con.idle (hturn ▸ hidle)

/-- A change after which no number is registered. -/
lemma Conducted.settle (con : l.Conducted past) (num : l'.Numbered (past ++ events))
    (hturn : ∀ t, l'.turn = some t → t.stage.registered? = none) (hpending : l'.pending = [])
    (hfailed : l'.failed = l.failed) (hnofail : .failed ∉ events) :
    l'.Conducted (past ++ events) where
  numbered := num
  failed := by simpa [hnofail, hfailed] using con.failed
  exchange t id ht hid := by simp [hturn t ht] at hid
  idle _ := hpending

/-- No number is registered but that of the request under way. -/
lemma Conducted.pending_of_any (con : l.Conducted past) {id : Nat}
    (h : l.pending.any (·.1 == id) = true) :
    ∃ t, l.turn = some t ∧ t.stage.registered? = some id ∧ l.pending = [(id, t.call.caller)] := by
  obtain hidle | ⟨t, m, ht, hm⟩ : (∀ t, l.turn = some t → t.stage.registered? = none)
      ∨ ∃ t m, l.turn = some t ∧ t.stage.registered? = some m := by
    by_contra hno
    push Not at hno
    obtain ⟨⟨t, ht, hstage⟩, hno⟩ := hno
    obtain ⟨m, hm⟩ := Option.ne_none_iff_exists'.1 hstage
    exact hno t m ht hm
  · simp [con.idle hidle] at h
  · cases con.exchange t m ht hm with
    | isOpen before since hpast hbefore hsince hpending hdelivered =>
      obtain rfl : m = id := by simpa [hpending] using h
      exact ⟨t, ht, hm, hpending⟩
    | answered _ _ _ _ _ _ _ _ hpending _ => simp [hpending] at h
    | dropped _ hpending _ => simp [hpending] at h

/-- When the turn of a registered request ends, nothing is registered but its own number. -/
lemma Exchange.filter_pending {id : Nat} {c : LinkCall} (ex : l.Exchange past id c) :
    l.pending.filter (·.1 != id) = [] := by
  cases ex with
  | isOpen _ _ _ _ _ hpending _ => simp [hpending]
  | answered _ _ _ _ _ _ _ _ hpending _ => simp [hpending]
  | dropped _ hpending _ => simp [hpending]

/-- A response that is waited for answers the request under way. -/
lemma Conducted.deliver (con : l.Conducted past) {id : Nat} {r : Response}
    (num : ({ l.cancel id with delivered := (id, .ok r) :: l.delivered } : Link).Numbered
      (past ++ [.took (.response r)]))
    (hid : r.numericId = some id) (hpending : l.pending.any (·.1 == id) = true) :
    ({ l.cancel id with delivered := (id, .ok r) :: l.delivered } : Link).Conducted
      (past ++ [.took (.response r)]) := by
  obtain ⟨t, ht, hstage, hopen⟩ := con.pending_of_any hpending
  have hnone : (l.cancel id).pending = [] := by simp [cancel, hopen]
  refine ⟨num, by simpa [cancel] using con.failed, ?_, fun _ => hnone⟩
  intro t' id' ht' hid'
  obtain rfl : t = t' := Option.some.inj (ht.symm.trans ht')
  obtain rfl : id = id' := Option.some.inj (hstage.symm.trans hid')
  cases con.exchange t id ht hstage with
  | isOpen before since hpast hbefore hsince _ _ =>
    exact .answered before since [] r (by simp [hpast]) hbefore hsince hid hnone
      (by simp)
  | answered _ _ _ _ _ _ _ _ hpending _ => simp [hopen] at hpending
  | dropped _ hpending _ => simp [hopen] at hpending

/-- The failing of a link drops the request under way if it has not been answered. -/
lemma Conducted.fail (con : l.Conducted past) (e : TransportError)
    (num : (l.failPending e).Numbered (past ++ [.failed])) :
    (l.failPending e).Conducted (past ++ [.failed]) := by
  refine ⟨num, by simp [failPending], ?_, fun _ => rfl⟩
  intro t id ht hid
  cases con.exchange t id ht hid with
  | isOpen _ _ _ _ _ hopen hlookup =>
    exact .dropped e rfl (by simp [failPending, hopen])
  | answered before since later r hpast hbefore hsince hr hnone hlookup =>
    exact .answered before since (later ++ [.failed]) r (by simp [hpast]) hbefore hsince hr rfl
      (by simpa [failPending, hnone] using hlookup)
  | dropped e' hnone hlookup =>
    exact .dropped e' rfl (by simpa [failPending, hnone] using hlookup)

/-- **Every change keeps to the conduct of requests.** -/
theorem Conducted.change (con : l.Conducted past) (change : l.Change l' more events) :
    l'.Conducted (past ++ events) := by
  have num := con.numbered.change change
  have idle_of {t : Turn} (ht : l.turn = some t) (hstage : t.stage.registered? = none) :
      l.pending = [] := con.idle fun t' ht' => by
    obtain rfl := Option.some.inj (ht.symm.trans ht')
    exact hstage
  cases change with
  | stay | call c | mark closed started reading hstarted | notify n =>
    refine con.keep num rfl rfl rfl rfl (by simp) fun id _ => ⟨by simp, by simp⟩
  | discard r hnobody =>
    refine con.keep num rfl rfl rfl rfl (by simp) fun id hid => ⟨by simp, ?_⟩
    rintro r' hr' hnumber
    obtain rfl : r' = r := by simpa using hr'
    simp [hnobody id hnumber] at hid
  | enter c rest hturn hqueue =>
    refine con.settle num ?_ (con.idle (by simp [hturn])) rfl (by simp)
    rintro _ ⟨⟩
    rfl
  | wait c hturn | number c hturn =>
    refine con.settle num ?_ (idle_of hturn rfl) rfl (by simp)
    rintro _ ⟨⟩
    rfl
  | refuse t e hturn hstage =>
    exact con.settle num (by simp) (idle_of hturn hstage) rfl (by simp)
  | answer id c result hturn hlookup =>
    refine con.settle num (by simp) ?_ rfl (by simp)
    cases con.exchange _ id hturn rfl with
    | isOpen _ _ _ _ _ _ hnone => simp [hnone] at hlookup
    | answered _ _ _ _ _ _ _ _ hpending _ => exact hpending
    | dropped _ hpending _ => exact hpending
  | giveBack id t e hturn hstage =>
    exact con.settle num (by simp) (con.exchange t id hturn hstage).filter_pending rfl (by simp)
  | wrote id c hturn =>
    refine ⟨num, by simpa using con.failed, ?_, fun hidle => ?_⟩
    · rintro _ id' ⟨⟩ ⟨⟩
      exact (con.exchange _ id hturn rfl).pass rfl rfl fun _ => ⟨by simp, by simp⟩
    · cases hidle _ rfl
  | ask id c hturn hfailed =>
    refine ⟨num, by simpa using con.failed, ?_, fun hidle => ?_⟩
    · rintro _ id' ⟨⟩ ⟨⟩
      have hbefore : .failed ∉ past := fun h => con.failed.1 h hfailed
      have hnone : l.delivered.lookup id = none := by
        rw [List.lookup_eq_none_iff]
        rintro ⟨id', x⟩ hx
        obtain ⟨c', hc'⟩ := con.numbered.delivered id' x hx
        have hne : id ≠ id' := by
          rintro rfl
          exact con.numbered.unasked c id hturn c' hc'
        simpa using hne
      exact .isOpen past [] rfl hbefore ⟨by simp, by simp⟩ (by simp [idle_of hturn rfl]) hnone
    · cases hidle _ rfl
  | deliver id r hid hpending => exact con.deliver num hid hpending
  | fail e => exact con.fail e num

end Change

/-- A link that nothing has happened to. -/
lemma conducted_initial : ({} : Link).Conducted [] where
  numbered := ⟨by simp, by simp, by simp, by simp, by simp, by simp, by simp⟩
  failed := by simp
  exchange := by simp
  idle _ := rfl

/-- **Every course keeps to the conduct of requests.** -/
theorem conducted_run (ss : List LinkStep) :
    (({} : Link).run ss).1.Conducted (({} : Link).log ss) :=
  log_induction (P := fun l _ past => l.Conducted past) conducted_initial Conducted.change ss

/-! ### What has come of a request -/

/-- Whatever is recorded is recorded of a change from a link that keeps to the conduct of
requests. -/
lemma exists_change_of_log {ss : List LinkStep} {x : LinkEvent} {pre suf : List LinkEvent}
    (h : ({} : Link).log ss = pre ++ x :: suf) :
    ∃ (l l' : Link) (more : List LinkEffect), l.Conducted pre ∧ l.Change l' more [x] := by
  obtain ⟨first, s, rest, -, rfl, hx⟩ := exists_step_of_log h
  exact ⟨_, _, _, conducted_run first, hx ▸ change_step _ s⟩

/-- That a call has been answered with the first response to its own number. -/
def Answered (past : List LinkEvent) (number : Option Nat) (c : LinkCall) (r : Response) : Prop :=
  ∃ id before since later, number = some id
    ∧ past = before ++ .asked id c :: (since ++ .took (.response r) :: later)
    ∧ .failed ∉ before ∧ Silent id since ∧ r.numericId = some id

/-- **A caller that gets a response gets the first one to its own number, and this one has come
after the request was registered and before the link has failed.** -/
theorem answered_of_ended {ss : List LinkStep} {pre suf : List LinkEvent} {number : Option Nat}
    {c : LinkCall} {r : Response} (h : ({} : Link).log ss = pre ++ .ended number c (.ok r) :: suf) :
    Answered pre number c r := by
  obtain ⟨l, l', more, con, change⟩ := exists_change_of_log h
  cases change with
  | answer id _ _ hturn hlookup =>
    cases con.exchange _ id hturn rfl with
    | isOpen _ _ _ _ _ _ hnone => simp [hnone] at hlookup
    | answered before since later r' hpast hbefore hsince hid _ hanswer =>
      obtain rfl : r' = r := by simpa [hanswer] using hlookup
      exact ⟨id, before, since, later, rfl, hpast, hbefore, hsince, hid⟩
    | dropped e _ hanswer => simp [hanswer] at hlookup

/-- No two requests are registered under one number. -/
theorem not_asked_again {ss : List LinkStep} {pre suf : List LinkEvent} {id : Nat} {c : LinkCall}
    (h : ({} : Link).log ss = pre ++ .asked id c :: suf) (c' : LinkCall) : .asked id c' ∉ suf := by
  intro hmem
  obtain ⟨between, rest, rfl⟩ := List.append_of_mem hmem
  rw [← List.cons_append, ← List.append_assoc] at h
  obtain ⟨l, l', more, con, change⟩ := exists_change_of_log h
  cases change with
  | ask _ _ hturn _ => exact con.numbered.unasked c' id hturn c (by simp)

/-- No two turns end under one number. -/
lemma not_ended_again {ss : List LinkStep} {pre suf : List LinkEvent} {id : Nat} {c : LinkCall}
    {result : Except TransportError Response}
    (h : ({} : Link).log ss = pre ++ .ended (some id) c result :: suf) (c' : LinkCall)
    (result' : Except TransportError Response) : .ended (some id) c' result' ∉ suf := by
  intro hmem
  obtain ⟨between, rest, rfl⟩ := List.append_of_mem hmem
  rw [← List.cons_append, ← List.append_assoc] at h
  obtain ⟨l, l', more, con, change⟩ := exists_change_of_log h
  obtain ⟨t, ht, hid⟩ := change.turn_of_ended (List.mem_singleton_self _)
  exact con.numbered.unended t id ht hid c result (by simp)

/-- **No response is handed to two callers.** -/
theorem not_answered_again {ss : List LinkStep} {pre suf : List LinkEvent} {number : Option Nat}
    {c : LinkCall} {r : Response} (h : ({} : Link).log ss = pre ++ .ended number c (.ok r) :: suf)
    {number' : Option Nat} {c' : LinkCall} {r' : Response}
    (h' : .ended number' c' (.ok r') ∈ suf) : r'.numericId ≠ r.numericId := by
  intro hsame
  obtain ⟨id, -, -, -, rfl, -, -, -, hid⟩ := answered_of_ended h
  obtain ⟨between, rest, rfl⟩ := List.append_of_mem h'
  have h₂ := h
  rw [← List.cons_append, ← List.append_assoc] at h₂
  obtain ⟨id', -, -, -, rfl, -, -, -, hid'⟩ := answered_of_ended h₂
  obtain rfl : id' = id := Option.some.inj (hid'.symm.trans (hsame.trans hid))
  exact not_ended_again h c' (.ok r') h'

/-- What does not hold the first of something comes before it. -/
lemma exists_append_of_not_mem {α : Type} {x : α} {pre suf head tail : List α}
    (h : pre ++ x :: suf = head ++ tail) (hx : x ∉ head) : ∃ rest, pre = head ++ rest := by
  obtain ⟨more, rfl, hmore⟩ | ⟨rest, rfl, -⟩ := List.append_eq_append_iff.1 h
  · cases more with
    | nil => exact ⟨[], by simp⟩
    | cons y more =>
      obtain ⟨rfl, -⟩ := List.cons.inj hmore
      simp at hx
  · exact ⟨rest, rfl⟩

/-- **After a link has failed, only those get a response that had been answered before.** -/
theorem answered_before_failing {ss : List LinkStep} {pre suf : List LinkEvent}
    (h : ({} : Link).log ss = pre ++ .failed :: suf) {number : Option Nat} {c : LinkCall}
    {r : Response} (h' : .ended number c (.ok r) ∈ suf) : Answered pre number c r := by
  obtain ⟨between, rest, rfl⟩ := List.append_of_mem h'
  rw [← List.cons_append, ← List.append_assoc] at h
  obtain ⟨id, before, since, later, hnumber, hpast, hbefore, hsince, hid⟩ := answered_of_ended h
  -- Up to the response nothing has failed, so that the failing comes after it.
  have hsplit : pre ++ .failed :: between
      = (before ++ .asked id c :: (since ++ [.took (.response r)])) ++ later := by simp [hpast]
  obtain ⟨rest', rfl⟩ := exists_append_of_not_mem hsplit (by simp [hbefore, hsince.1])
  exact ⟨id, before, since, rest', hnumber, by simp, hbefore, hsince, hid⟩

/-- **A response that comes after its request has ended changes nothing.** -/
theorem step_late {ss : List LinkStep} {id : Nat} {c : LinkCall}
    {result : Except TransportError Response} (h : .ended (some id) c result ∈ ({} : Link).log ss)
    {line : String} {r : Response}
    (hframe : (({} : Link).run ss).1.frame? line = some (.response r))
    (hid : r.numericId = some id) :
    (({} : Link).run ss).1.step (.receive line) = ((({} : Link).run ss).1, []) := by
  have con := conducted_run ss
  have hnobody : (({} : Link).run ss).1.pending.any (·.1 == id) = false := by
    by_contra hany
    obtain ⟨t, ht, hstage, -⟩ := con.pending_of_any (by simpa using hany)
    exact con.numbered.unended t id ht (TurnStage.id?_of_registered? hstage) c result h
  rw [step_receive, hframe]
  simp [Link.deliver, hid, hnobody]

/-- **At most one request is registered.** -/
theorem pending_length_le (ss : List LinkStep) : (({} : Link).run ss).1.pending.length ≤ 1 := by
  cases hpending : (({} : Link).run ss).1.pending with
  | nil => simp
  | cons p rest =>
    have hany : (({} : Link).run ss).1.pending.any (·.1 == p.1) = true := by simp [hpending]
    obtain ⟨t, -, -, hone⟩ := (conducted_run ss).pending_of_any hany
    simp [← hpending, hone]

end Link
end SilentScan
