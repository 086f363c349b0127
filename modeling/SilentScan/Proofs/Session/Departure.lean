/-
Clients that have gone.

When a client goes, its session is closed, but much that concerns it is still on its way: events
that were published before are told to its listeners, and its scans go on until they find out that
nobody wants them. A session is there once and never comes again, and what is registered on the bus
belongs to a session that is connected. So a session that was closed is never registered again, and
as it watches nothing, it makes nothing of whatever it is still told.

* `Hub.Orderly`, `orderly_step`, `orderly_run`: the invariant of all sessions and registrations;
* `Session.gone`, `onEvent_gone`, `Hub.tell_gone`: what is left of a session that was closed;
* `Traffic.Unheard`: that no more of what a client has sent is dealt with;
* `Traffic.doer_of_step`: who may do something in a step;
* `Past.step`, `Past.run`: a session that has gone stays as it is, and does nothing;
* `departed_inert`: what follows after a session is closed.
-/
import SilentScan.Proofs.Session.Privacy

namespace SilentScan

/-- The session that a registration on the bus belongs to. -/
def Ear.owner? : Ear → Option SessionId
  | .session id | .reorg id => some id
  | .observer => none

/-- The session by which something was done: a scan dispatched, a line queued for the client. -/
def Deed.doer? : Deed → Option SessionId
  | .dispatched id _ _ | .pushed id _ _ | .replied id _ => some id
  | .found _ _ | .issued _ _ => none

namespace Hub

/-! ### Sessions are there once -/

/-- The ids of all sessions that there have been. -/
def roster (h : Hub) : List SessionId :=
  h.sessions.map (·.1)

lemma session?_isSome_iff {h : Hub} {id : SessionId} : (h.session? id).isSome ↔ id ∈ h.roster := by
  rw [session?, List.lookup_isSome_iff, roster, List.mem_map]
  constructor
  · rintro ⟨p, hp, heq⟩
    exact ⟨p, hp, (eq_of_beq heq).symm⟩
  · rintro ⟨p, hp, rfl⟩
    exact ⟨p, hp, beq_self_eq_true _⟩

lemma mem_roster {h : Hub} {id : SessionId} {s : Session} (hs : h.session? id = some s) :
    id ∈ h.roster :=
  session?_isSome_iff.1 (Option.isSome_of_eq_some hs)

/-- That sessions and registrations are in order: besides belonging together, every session is
there once, below the next id, and what is registered for a session is its own while it is
connected. -/
structure Orderly (h : Hub) : Prop extends Sound h where
  distinct : h.roster.Nodup
  known : ∀ id ∈ h.roster, id < h.nextSession
  claimed : ∀ l ∈ h.bus.listeners, ∀ id, l.2.owner? = some id →
    ∃ s, h.session? id = some s ∧ s.connected = true ∧ l.1 ∈ s.listeners

lemma orderly_empty : ({} : Hub).Orderly where
  toSound := sound_empty
  distinct := List.nodup_nil
  known _ hid := absurd hid List.not_mem_nil
  claimed _ hl := absurd hl List.not_mem_nil

/-- What leaves the sessions as they are, and adds none, leaves them in order. -/
lemma Orderly.of_keeps {h h' : Hub} (orderly : h.Orderly) (keeps : h.Keeps h')
    (hroster : h'.roster = h.roster) (hnext : h'.nextSession = h.nextSession) : h'.Orderly where
  toSound := orderly.toSound.of_keeps keeps
  distinct := hroster ▸ orderly.distinct
  known := by
    rw [hroster, hnext]
    exact orderly.known
  claimed l hl id howner := by
    rw [keeps.bus] at hl
    obtain ⟨s, hs, hconnected, hmem⟩ := orderly.claimed l hl id howner
    obtain ⟨s', hs'⟩ := Option.isSome_iff_exists.1
      (session?_isSome_iff.2 (hroster ▸ mem_roster hs))
    obtain ⟨_, hsame, hkeeps⟩ := keeps.session id s' hs'
    obtain rfl := Option.some.inj (hs.symm.trans hsame)
    exact ⟨s', hs', hkeeps.connected.trans hconnected, hkeeps.listeners ▸ hmem⟩

/-- A session that is put in its own place leaves everything as it is. -/
lemma Orderly.putSession_self {h : Hub} (orderly : h.Orderly) {id : SessionId} {s : Session}
    (hs : h.session? id = some s) : h.putSession s = h := by
  have hsame : ∀ p ∈ h.sessions, (p.1, if p.1 = s.id then s else p.2) = p := by
    rintro ⟨i, t⟩ hp
    by_cases hi : i = s.id
    · have hid : i = id := hi.trans (orderly.keyed id s hs)
      have hst := List.inj_on_of_nodup_map orderly.distinct hp (mem_of_lookup hs) hid
      rw [if_pos hi, (Prod.mk.inj hst).2]
    · rw [if_neg hi]
  rw [putSession, List.map_congr_left hsame, List.map_id']

@[simp] lemma roster_putSession (h : Hub) (s : Session) : (h.putSession s).roster = h.roster := by
  simp [roster, putSession]

section Dispatch

variable (settings : ScanSettings)

@[simp] lemma nextSession_dispatchAll (h : Hub) (rs : List ScanRequest) :
    (dispatchAll settings h rs).1.nextSession = h.nextSession := by
  induction rs generalizing h with
  | nil => rfl
  | cons r rs ih => exact ih _

lemma Orderly.tell {h : Hub} (orderly : h.Orderly) (e : Event) (ear : Ear) :
    (h.tell settings e ear).1.Orderly := by
  refine orderly.of_keeps (keeps_tell settings orderly.keyed e ear) ?_ ?_ <;>
    cases ear with
    | observer => rfl
    | _ =>
      rw [Hub.tell]
      split <;> simp [carryOut, putSession, roster]

lemma Orderly.move {h : Hub} (orderly : h.Orderly) (s : Scheme) (id : SessionId) (m : Move) :
    (h.act s settings (.move id m)).1.Orderly := by
  refine orderly.of_keeps (keeps_move s settings orderly.keyed id m) ?_ ?_ <;>
    rw [act] <;> split <;> simp [putSession, roster]

end Dispatch

lemma Orderly.deafen {h : Hub} (orderly : h.Orderly) (id : SessionId) : (h.deafen id).Orderly := by
  refine orderly.of_keeps (keeps_deafen orderly.keyed id) ?_ ?_ <;>
    rw [Hub.deafen] <;> split <;> simp [putSession, roster]

lemma Orderly.observe {h : Hub} (orderly : h.Orderly) (s : Scheme) (settings : ScanSettings) :
    h.observe.Orderly where
  toSound := orderly.toSound.act s settings .observe
  distinct := orderly.distinct
  known := orderly.known
  claimed l hl id howner := by
    rcases List.mem_append.1 hl with hl | hl
    · exact orderly.claimed l hl id howner
    · rw [List.mem_singleton.1 hl] at howner
      cases howner

lemma Orderly.putScan {h : Hub} (orderly : h.Orderly) (k : Nat) (run : ScanRun Double) :
    (h.putScan k run).Orderly :=
  { orderly with toSound := orderly.toSound.putScan k run }

/-- **The sessions once another has come**: the newcomer under the next id, and the others. -/
lemma Orderly.session?_openSession {h : Hub} (orderly : h.Orderly) (peer : Option String)
    (linked : Bool) (id : SessionId) :
    (h.openSession peer linked).2.1.session? id
      = if id = h.nextSession then some (h.newcomer peer linked) else h.session? id := by
  have hlookup : (h.openSession peer linked).2.1.session? id
      = (h.sessions ++ [(h.nextSession, h.newcomer peer linked)]).lookup id := rfl
  rw [hlookup, List.lookup_append]
  by_cases hid : id = h.nextSession
  · subst hid
    have hnone : h.sessions.lookup h.nextSession = none := by
      cases hs : h.sessions.lookup h.nextSession with
      | none => rfl
      | some s => exact absurd (orderly.known _ (mem_roster hs)) (Nat.lt_irrefl _)
    simp [hnone]
  · have hother : (id == h.nextSession) = false := by simpa using hid
    simp [hid, hother, session?, List.lookup_cons]

lemma Orderly.openSession {h : Hub} (orderly : h.Orderly) (peer : Option String) (linked : Bool) :
    (h.openSession peer linked).2.1.Orderly where
  toSound := orderly.toSound.openSession peer linked
  distinct := by
    have hroster : (h.openSession peer linked).2.1.roster = h.roster ++ [h.nextSession] := by
      simp [roster, Hub.openSession]
    rw [hroster, List.nodup_append_comm]
    exact List.nodup_cons.2 ⟨fun hmem => Nat.lt_irrefl _ (orderly.known _ hmem), orderly.distinct⟩
  known id hid := by
    have hmem : id ∈ h.roster ++ [h.nextSession] := by
      simpa [roster, Hub.openSession] using hid
    refine Nat.lt_succ_iff.2 ?_
    rcases List.mem_append.1 hmem with hmem | hmem
    · exact (orderly.known id hmem).le
    · exact (List.mem_singleton.1 hmem).le
  claimed l hl id howner := by
    rw [orderly.session?_openSession]
    have hcases : l ∈ h.bus.listeners ∨ l = (h.bus.nextId, .session h.nextSession)
        ∨ l = (h.bus.nextId + 1, .reorg h.nextSession) := by
      simpa [Hub.openSession, Bus.register] using hl
    rcases hcases with hl | rfl | rfl
    · obtain ⟨s, hs, hs'⟩ := orderly.claimed l hl id howner
      rw [if_neg (orderly.known id (mem_roster hs)).ne]
      exact ⟨s, hs, hs'⟩
    all_goals
      obtain rfl := Option.some.inj howner
      exact ⟨_, if_pos rfl, rfl, by simp [newcomer]⟩

/-- The others, once a session is closed. -/
lemma session?_closeSession_of_ne {h : Hub} (keyed : h.Keyed) {i id : SessionId} (hne : id ≠ i) :
    (h.closeSession i).1.session? id = h.session? id := by
  cases ht : h.session? i with
  | none => rw [closeSession, ht]
  | some t =>
    cases hconnected : t.connected with
    | false => simp [closeSession, ht, hconnected]
    | true =>
      obtain ⟨heq, _, hid, _⟩ := closeSession_eq ht hconnected
      have hput : (h.closeSession i).1.session? id = (h.putSession t.close.1).session? id := by
        rw [heq]
        rfl
      rw [hput, session?_putSession, hid, keyed i t ht]
      simp [hne]

lemma Orderly.closeSession {h : Hub} (orderly : h.Orderly) (i : SessionId) :
    (h.closeSession i).1.Orderly := by
  cases ht : h.session? i with
  | none => simpa [Hub.closeSession, ht] using orderly
  | some t =>
    cases hconnected : t.connected with
    | false => simpa [Hub.closeSession, ht, hconnected] using orderly
    | true =>
      obtain ⟨heq, _⟩ := closeSession_eq ht hconnected
      have hroster : (h.closeSession i).1.roster = h.roster := by
        rw [heq]
        exact roster_putSession h t.close.1
      refine ⟨orderly.toSound.closeSession i, hroster ▸ orderly.distinct, ?_, ?_⟩
      · rw [hroster, heq]
        exact orderly.known
      · intro l hl id howner
        have hleft : l ∈ (unregisterAll h.bus t.listeners).listeners := by rwa [heq] at hl
        obtain ⟨hl, hnot⟩ := mem_unregisterAll.1 hleft
        obtain ⟨s, hs, hopen, hmem⟩ := orderly.claimed l hl id howner
        -- what was registered for the session that is closed has been removed
        have hne : id ≠ i := by
          rintro rfl
          obtain rfl := Option.some.inj (hs.symm.trans ht)
          exact hnot hmem
        exact ⟨s, (session?_closeSession_of_ne orderly.keyed hne).trans hs, hopen, hmem⟩

end Hub

namespace Traffic

variable (settings : ScanSettings) (setting : ServiceSetting)

/-- A dialogue leaves the hub alone, or takes a step that concerns its session. -/
lemma hub_go (t : Traffic) (i : Nat) (id : SessionId) (answer : (q : Question) → q.Reply)
    (d : Dialogue (Option String)) :
    (t.go settings setting i id answer d).1.hub = t.hub
      ∨ ∃ m, (t.go settings setting i id answer d).1.hub
          = (t.hub.act setting.scheme settings (.move id m)).1 := by
  cases d with
  | done reply => exact Or.inl rfl
  | ask q next => exact Or.inl rfl
  | move m next =>
    cases hs : t.hub.session? id with
    | none => exact Or.inl (by simp [go, hs])
    | some s => exact Or.inr ⟨m, by simp [go, hs]⟩

/-- **Sessions and registrations** stay in order, whatever happens. -/
lemma orderly_step {t : Traffic} (orderly : t.hub.Orderly) (o : Occasion) :
    (t.step settings setting o).1.hub.Orderly := by
  cases o with
  | connect peer linked => exact orderly.openSession peer linked
  | line id text => exact orderly
  | go i answer =>
    simp only [step]
    split
    · rename_i id d _
      rcases hub_go settings setting t i id answer d with heq | ⟨m, heq⟩ <;> rw [heq]
      · exact orderly
      · exact orderly.move settings setting.scheme id m
    · exact orderly
  | close id => exact orderly.closeSession id
  | deafen id => exact orderly.deafen id
  | observe => exact orderly.observe setting.scheme settings
  | arise e => exact orderly
  | publish i =>
    simp only [step]
    split <;> exact orderly
  | tell i =>
    simp only [step]
    split
    · exact orderly.tell settings _ _
    · exact orderly
  | scan k input =>
    simp only [step]
    split
    · exact orderly.putScan k _
    · exact orderly

lemma orderly_run {t : Traffic} (orderly : t.hub.Orderly) (occasions : List Occasion) :
    (t.run settings setting occasions).1.hub.Orderly := by
  induction occasions generalizing t with
  | nil => exact orderly
  | cons o rest ih => exact ih (orderly_step settings setting orderly o)

end Traffic

/-! ### What is left of a session -/

/-- A session once it has been closed. All that can still happen to it is that its client's lines
find no receiver any more. -/
def Session.gone (s : Session) (receiving : Bool) : Session :=
  { s with connected := false, listeners := [], registry := {}, receiving }

namespace Session

variable (s : Session) (receiving : Bool)

lemma close_of_connected (hconnected : s.connected = true) : s.close.1 = s.gone s.receiving := by
  simp [close, hconnected, gone, Registry.clear]

lemma isLive_gone (key : String) : (s.gone receiving).isLive key = false := rfl

/-- A session that has gone makes nothing of any event. Pages do not find it connected; for all
other events there is nothing in its registry. -/
lemma onEvent_gone (e : Event) : (s.gone receiving).onEvent e = (s.gone receiving, []) := by
  cases e with
  | scanPage p => simp [onEvent, onPage, isLive_gone]
  | _ => rfl

lemma onReorg_gone (e : Event) : (s.gone receiving).onReorg e = s.gone receiving := by
  cases e <;> rfl

end Session

namespace Hub

variable {h : Hub} {id : SessionId} {s : Session} {receiving : Bool}

/-- **Whatever is still told** to one of its listeners, a session that has gone does nothing. -/
lemma tell_gone (settings : ScanSettings) (orderly : h.Orderly)
    (hs : h.session? id = some (s.gone receiving)) (e : Event) {ear : Ear}
    (hear : ear.owner? = some id) : h.tell settings e ear = (h, []) := by
  have hput := orderly.putSession_self hs
  cases ear with
  | session i =>
    obtain rfl := Option.some.inj hear
    simp [tell, hs, Session.onEvent_gone, carryOut, dispatchAll, hput]
  | reorg i =>
    obtain rfl := Option.some.inj hear
    simp [tell, hs, Session.onReorg_gone, hput]
  | observer => cases hear

lemma closeSession_gone (hs : h.session? id = some (s.gone receiving)) :
    h.closeSession id = (h, []) := by
  rw [closeSession, hs]
  rfl

/-- A session that has gone wants no scan. -/
lemma wants_gone (hs : h.session? id = some (s.gone receiving)) {r : ScanRequest}
    (hr : r.owner = id) : h.wants r = false := by
  rw [wants, hr, hs]
  rfl

/-- A session that has gone is not registered. -/
lemma Orderly.owner?_ne_of_gone (orderly : h.Orderly)
    (hs : h.session? id = some (s.gone receiving)) {l : Nat × Ear} (hl : l ∈ h.bus.listeners) :
    l.2.owner? ≠ some id := by
  intro howner
  obtain ⟨t, ht, hconnected, _⟩ := orderly.claimed l hl id howner
  obtain rfl := Option.some.inj (hs.symm.trans ht)
  cases hconnected

lemma session?_closeSession_self (hkeyed : h.Keyed) (hs : h.session? id = some s)
    (hconnected : s.connected = true) :
    (h.closeSession id).1.session? id = some (s.gone s.receiving) := by
  obtain ⟨heq, _, hid, _⟩ := closeSession_eq hs hconnected
  have hput : (h.closeSession id).1.session? id = (h.putSession s.close.1).session? id := by
    rw [heq]
    rfl
  rw [hput, session?_putSession, hid, hkeyed id s hs, hs, s.close_of_connected hconnected]
  simp

lemma session?_deafen_gone (keyed : h.Keyed) (hs : h.session? id = some (s.gone receiving))
    (i : SessionId) : ∃ receiving, (h.deafen i).session? id = some (s.gone receiving) := by
  rw [deafen]
  split
  · rename_i u hu
    have hkeeps : u.Keeps { u with receiving := false } := ⟨rfl, rfl, rfl, fun tidy => tidy⟩
    simp only [session?_putSession_of_keeps keyed hu hkeeps]
    by_cases hi : i = id
    · subst hi
      obtain rfl := Option.some.inj (hs.symm.trans hu)
      exact ⟨false, if_pos rfl⟩
    · exact ⟨receiving, (if_neg hi).trans hs⟩
  · exact ⟨receiving, hs⟩

/-- A step of a dialogue concerns its own session only. -/
lemma session?_move_of_ne (keyed : h.Keyed) (scheme : Scheme) (settings : ScanSettings)
    {i : SessionId} (hne : i ≠ id) (m : Move) :
    (h.act scheme settings (.move i m)).1.session? id = h.session? id := by
  cases ht : h.session? i with
  | none => simp [act, ht]
  | some t =>
    simp only [act, ht, session?_dispatchAll]
    rw [session?_putSession_of_keeps keyed ht (m.keeps_perform t), if_neg hne]

end Hub

/-! ### What follows -/

namespace Traffic

variable (settings : ScanSettings) (setting : ServiceSetting)

/-- That no dialogue with the client of a session takes a step. -/
def Unheard (id : SessionId) : Traffic → List Occasion → Prop
  | _, [] => True
  | t, o :: rest =>
    (∀ i answer d, o = .go i answer → t.talks[i]? ≠ some (id, d))
      ∧ Unheard id (t.step settings setting o).1 rest

/-- What is left of a session, with all sessions in order. -/
structure Past (id : SessionId) (s : Session) (t : Traffic) : Prop where
  orderly : t.hub.Orderly
  gone : ∃ receiving, t.hub.session? id = some (s.gone receiving)

variable {settings setting} {t : Traffic} {id : SessionId} {s : Session}

/-- What a session launches is its own doing. -/
lemma doer?_of_launched {i : SessionId} {h h' : Hub} {deed : Deed}
    (hdeed : deed ∈ h.launched i h') : deed.doer? = some i := by
  obtain ⟨p, _, rfl⟩ := List.mem_map.1 hdeed
  rfl

/-- What is done in a dialogue is the doing of its session. -/
lemma doer?_of_go {i : Nat} {j : SessionId} {answer : (q : Question) → q.Reply}
    {d : Dialogue (Option String)} {deed : Deed}
    (hdeed : deed ∈ (t.go settings setting i j answer d).2) : deed.doer? = some j := by
  cases d with
  | done reply =>
    obtain ⟨text, _, rfl⟩ := List.mem_map.1 hdeed
    rfl
  | ask q next => cases hdeed
  | move m next =>
    simp only [Traffic.go] at hdeed
    split at hdeed
    · exact doer?_of_launched hdeed
    · cases hdeed

/-- What is done when a listener is told of an event is the doing of the session that listens. -/
lemma exists_doer_of_tell {h : Hub} {e : Event} {ear : Ear} {deed : Deed}
    (hdeed : deed ∈ ear.launched h (h.tell settings e ear).1
      ++ (h.tell settings e ear).2.filterMap HubEffect.deed?) :
    ∃ i, ear = .session i ∧ deed.doer? = some i := by
  rcases List.mem_append.1 hdeed with hdeed | hdeed
  · cases ear with
    | session i => exact ⟨i, rfl, doer?_of_launched hdeed⟩
    | _ => cases hdeed
  · obtain ⟨effect, heffect, hof⟩ := List.mem_filterMap.1 hdeed
    cases effect with
    | push i cause line =>
      obtain rfl := Option.some.inj hof
      exact ⟨i, (Hub.push_of_tell heffect).1, rfl⟩
    | _ => cases hof

/-- **Whoever does something** in a step takes a step in the dialogue with its client, or is told of
an event. -/
lemma doer_of_step {o : Occasion} {deed : Deed}
    (hdeed : deed ∈ (t.step settings setting o).2) (hdoer : deed.doer? = some id) :
    (∃ i answer d, o = .go i answer ∧ t.talks[i]? = some (id, d))
      ∨ ∃ i e, o = .tell i ∧ t.tellings[i]? = some (e, .session id) := by
  cases o with
  | go i answer =>
    simp only [Traffic.step] at hdeed
    split at hdeed
    · rename_i j d htalk
      obtain rfl := Option.some.inj ((doer?_of_go hdeed).symm.trans hdoer)
      exact Or.inl ⟨i, answer, d, rfl, htalk⟩
    · cases hdeed
  | publish i =>
    simp only [Traffic.step] at hdeed
    split at hdeed <;> cases hdeed
  | tell i =>
    simp only [Traffic.step] at hdeed
    split at hdeed
    · rename_i e ear htelling
      obtain ⟨j, rfl, hj⟩ := exists_doer_of_tell hdeed
      obtain rfl := Option.some.inj (hj.symm.trans hdoer)
      exact Or.inr ⟨i, e, rfl, htelling⟩
    · cases hdeed
  | scan k input =>
    simp only [Traffic.step] at hdeed
    split at hdeed
    · rcases List.mem_append.1 hdeed with hdeed | hdeed
      · cases input with
        | push m =>
          rw [List.mem_singleton.1 hdeed] at hdoer
          cases hdoer
        | _ => cases hdeed
      · obtain ⟨p, _, rfl⟩ := List.mem_map.1 hdeed
        cases hdoer
    · cases hdeed
  | _ => cases hdeed

/-- A dialogue with another client leaves a session that has gone as it is. -/
lemma Past.gone_go (settings : ScanSettings) (setting : ServiceSetting) (past : t.Past id s)
    (i : Nat) {j : SessionId} (hne : j ≠ id) (answer : (q : Question) → q.Reply)
    (d : Dialogue (Option String)) :
    ∃ receiving, (t.go settings setting i j answer d).1.hub.session? id
      = some (s.gone receiving) := by
  rcases hub_go settings setting t i j answer d with heq | ⟨m, heq⟩ <;> rw [heq]
  · exact past.gone
  · rw [Hub.session?_move_of_ne past.orderly.keyed setting.scheme settings hne m]
    exact past.gone

/-- Telling a listener of an event leaves a session that has gone as it is. -/
lemma Past.gone_tell (settings : ScanSettings) (past : t.Past id s) (e : Event) (ear : Ear) :
    ∃ receiving, (t.hub.tell settings e ear).1.session? id = some (s.gone receiving) := by
  obtain ⟨receiving, hs⟩ := past.gone
  refine ⟨receiving, ?_⟩
  by_cases hear : ear.owner? = some id
  · rw [Hub.tell_gone settings past.orderly hs e hear, hs]
  · rw [Hub.session?_tell settings past.orderly.keyed, Hub.map_heard_of_ne, hs]
    · rintro rfl
      exact hear rfl
    · rintro rfl
      exact hear rfl

/-- A session that has gone does nothing when it is told of an event. -/
lemma Past.not_told (past : t.Past id s) {i : Nat} {e : Event}
    (htelling : t.tellings[i]? = some (e, .session id)) :
    (t.step settings setting (.tell i)).2 = [] := by
  obtain ⟨receiving, hs⟩ := past.gone
  have htell : t.hub.tell settings e (.session id) = (t.hub, []) :=
    Hub.tell_gone settings past.orderly hs e rfl
  simp [Traffic.step, htelling, htell, Ear.launched, Hub.launched]

/-- **One step**: a session that has gone stays as it is, and does nothing, unless its client is
heard. -/
lemma Past.step (past : t.Past id s) (o : Occasion)
    (hunheard : ∀ i answer d, o = .go i answer → t.talks[i]? ≠ some (id, d)) :
    (t.step settings setting o).1.Past id s
      ∧ ∀ deed ∈ (t.step settings setting o).2, deed.doer? ≠ some id := by
  refine ⟨⟨orderly_step settings setting past.orderly o, ?_⟩, fun deed hdeed hdoer => ?_⟩
  · obtain ⟨receiving, hs⟩ := past.gone
    cases o with
    | connect peer linked =>
      have hne : id ≠ t.hub.nextSession := (past.orderly.known id (Hub.mem_roster hs)).ne
      exact ⟨receiving,
        (past.orderly.session?_openSession peer linked id).trans ((if_neg hne).trans hs)⟩
    | go i answer =>
      simp only [Traffic.step]
      split
      · rename_i j d htalk
        have hne : j ≠ id := by
          rintro rfl
          exact hunheard i answer d rfl htalk
        exact past.gone_go settings setting i hne answer d
      · exact past.gone
    | close i =>
      refine ⟨receiving, ?_⟩
      by_cases hi : id = i
      · subst hi
        rw [Traffic.step, Hub.closeSession_gone hs]
        exact hs
      · exact (Hub.session?_closeSession_of_ne past.orderly.keyed hi).trans hs
    | deafen i => exact Hub.session?_deafen_gone past.orderly.keyed hs i
    | line i text => exact past.gone
    | observe => exact past.gone
    | arise e => exact past.gone
    | publish i =>
      simp only [Traffic.step]
      split <;> exact past.gone
    | tell i =>
      simp only [Traffic.step]
      split
      · exact past.gone_tell settings _ _
      · exact past.gone
    | scan k input =>
      simp only [Traffic.step]
      split <;> exact past.gone
  · rcases doer_of_step hdeed hdoer with ⟨i, answer, d, rfl, htalk⟩ | ⟨i, e, rfl, htelling⟩
    · exact hunheard i answer d rfl htalk
    · rw [past.not_told htelling] at hdeed
      cases hdeed

/-- **A session that has gone** stays as it is, and does nothing, as long as its client is not
heard. -/
lemma Past.run (past : t.Past id s) {later : List Occasion}
    (hunheard : t.Unheard settings setting id later) :
    (t.run settings setting later).1.Past id s
      ∧ ∀ deed ∈ (t.run settings setting later).2, deed.doer? ≠ some id := by
  induction later generalizing t with
  | nil => exact ⟨past, by simp [Traffic.run]⟩
  | cons o rest ih =>
    obtain ⟨past', hfirst⟩ := past.step o hunheard.1
    obtain ⟨past'', hrest⟩ := ih past' hunheard.2
    exact ⟨past'', List.forall_mem_append.2 ⟨hfirst, hrest⟩⟩

variable (settings setting)

/-- **A client that has gone is done with.** Whatever has happened before a session is closed, and
whatever happens later, as long as nothing more that the client has sent is dealt with: the session
stays as closing has left it, watching nothing, up to the receiver of its client's lines. None of
its listeners is registered, none of its scans is wanted, and telling any event to one of them, as a
publish does that had begun before, changes nothing and has no effect; nor has closing it again. It
has queued no line for its client and dispatched no scan since. -/
theorem departed_inert (occasions later : List Occasion) (id : SessionId) (s : Session)
    (hs : (({} : Traffic).run settings setting occasions).1.hub.session? id = some s)
    (hconnected : s.connected = true)
    (hunheard : ((({} : Traffic).run settings setting occasions).1.step settings setting
      (.close id)).1.Unheard settings setting id later) :
    let closed := ((({} : Traffic).run settings setting occasions).1.step settings setting
      (.close id)).1
    let t := (closed.run settings setting later).1
    let deeds := (closed.run settings setting later).2
    (∃ receiving, t.hub.session? id
        = some { s with connected := false, listeners := [], registry := {}, receiving })
      ∧ (∀ l ∈ t.hub.bus.listeners, l.2 ≠ .session id ∧ l.2 ≠ .reorg id)
      ∧ (∀ r : ScanRequest, r.owner = id → t.hub.wants r = false)
      ∧ (∀ e, t.hub.tell settings e (.session id) = (t.hub, [])
          ∧ t.hub.tell settings e (.reorg id) = (t.hub, []))
      ∧ t.hub.closeSession id = (t.hub, [])
      ∧ ∀ deed ∈ deeds, deed.doer? ≠ some id := by
  intro closed t deeds
  have horderly := orderly_run settings setting (t := {}) Hub.orderly_empty occasions
  have hclosed : closed.Past id s :=
    ⟨orderly_step settings setting horderly (.close id), s.receiving,
      Hub.session?_closeSession_self horderly.keyed hs hconnected⟩
  obtain ⟨past, hdeeds⟩ := hclosed.run hunheard
  obtain ⟨receiving, hgone⟩ := past.gone
  refine ⟨⟨receiving, hgone⟩, fun l hl => ?_, fun r hr => Hub.wants_gone hgone hr, fun e => ?_,
    Hub.closeSession_gone hgone, hdeeds⟩
  · have hnot := past.orderly.owner?_ne_of_gone hgone hl
    refine ⟨fun heq => hnot ?_, fun heq => hnot ?_⟩ <;>
      rw [heq, Ear.owner?]
  · exact ⟨Hub.tell_gone settings past.orderly hgone e rfl,
      Hub.tell_gone settings past.orderly hgone e rfl⟩

/-- A client watches an address; a page of its own and the news of an unconfirmed transaction have
been published, but nobody has been told. -/
def sampleBusy : Traffic :=
  (({} : Traffic).run {} { scheme := plainScheme }
    (sampleOccasions ++ [.arise ⟨.mempoolAdded [], fun _ h => by cases h⟩, .publish 0])).1

/-- The client goes: when both its listeners are told, no line is queued and no scan is
dispatched. -/
theorem news_on_its_way_untold :
    sampleBusy.tellings.map (·.2) = [.session 0, .reorg 0, .session 0, .reorg 0]
      ∧ (∃ s, sampleBusy.hub.session? 0 = some s ∧ s.connected = true
          ∧ s.registry.subscriptions.length = 1)
      ∧ ∀ deed ∈ ((sampleBusy.step {} { scheme := plainScheme } (.close 0)).1.run {}
            { scheme := plainScheme } (List.replicate 4 (.tell 0))).2, deed.doer? ≠ some 0 := by
  have hstate : (sampleBusy.tellings.map (·.2) == [.session 0, .reorg 0, .session 0, .reorg 0]
      && (sampleBusy.hub.session? 0).any
        fun s => s.connected && s.registry.subscriptions.length == 1) = true := by decide +kernel
  obtain ⟨htellings, hsession⟩ := Bool.and_eq_true_iff.1 hstate
  obtain ⟨s, hs, hopen⟩ := (Option.any_eq_true _ _).1 hsession
  obtain ⟨hconnected, hlength⟩ := Bool.and_eq_true_iff.1 hopen
  have hunheard : (sampleBusy.step {} { scheme := plainScheme } (.close 0)).1.Unheard {}
      { scheme := plainScheme } 0 (List.replicate 4 (.tell 0)) := by
    simp [List.replicate, Unheard]
  rw [sampleBusy] at htellings hs hunheard ⊢
  exact ⟨eq_of_beq htellings, ⟨s, hs, hconnected, eq_of_beq hlength⟩,
    (departed_inert {} { scheme := plainScheme } _ _ 0 s hs hconnected hunheard).2.2.2.2.2⟩

end Traffic
end SilentScan
