/-
Sessions with their links.

Every session may have a link to the other server, and its requests about script hashes go out on
it. What comes in on any of these links is told over the one bus that all sessions listen on, so
that a session passes on the statuses of the hashes it watches whoever's link has brought them up.
Here the links, their readers, the dialogues that wait for them and the sessions go on side by side,
each at its own pace: a reader tells one listener after another of a status, and anything else may
happen between any two of them.

* `Uplink`, `Talk`, `Switchboard`, with `Juncture`, `Switchboard.step` and `run`: all that is going
  on, and how it goes on;
* `Act`: what has been done;
* `Session.Attends`, `Hub.Attends`: that a client gets the statuses of a hash;
* `Switchboard.due`, `Switchboard.Conveys`: statuses on their way, and that none is lost or doubled;
* `conveyed_step`, `conveyed_run`: one step after another conveys them.
-/
import SilentScan.Proofs.Session.Departure
import SilentScan.Protocol.Forwarding
import SilentScan.Proofs.Wire.Record

namespace SilentScan

/-! ### All that is going on -/

/-- A link with what its reader is about: the listeners that it has still to tell of an event. -/
structure Uplink where
  link : Link := {}
  telling : List (Event × Ear) := []

/-- Whether a step of a link can be taken now. Callers come from dialogues only, and the reader
takes in no line while it is telling listeners of an event. -/
def Uplink.ready (up : Uplink) : LinkStep → Bool
  | .call _ => false
  | .receive _ => up.telling.isEmpty
  | _ => true

/-- A dialogue with the client of a session. -/
structure Talk where
  id : SessionId
  dialogue : Dialogue (Option String)
  /-- Whether it waits for what its call on the link comes to. -/
  calling : Bool := false

/-- The hub with the links of the sessions and the dialogues with their clients. -/
structure Switchboard where
  hub : Hub := {}
  uplinks : SessionId → Uplink := fun _ => {}
  talks : Nat → Option Talk := fun _ => none
  nextTalk : Nat := 0

/-- An event that is no status of a script hash. -/
abbrev News : Type :=
  { e : Event // ∀ hash status, e ≠ .scriptHashStatus hash status }

/-- What can happen next. -/
inductive Juncture where
  | connect (peer : Option String) (linked : Bool)
  /-- A client sends a line. -/
  | line (id : SessionId) (text : String)
  /-- A dialogue takes its next step; a question to the full node is answered somehow. -/
  | go (talk : Nat) (answer : (q : NodeQuery) → Except ChainError q.Answer)
  /-- Something happens to the link of a session. -/
  | link (id : SessionId) (s : LinkStep)
  /-- The reader of the link of a session tells the next listener. -/
  | hand (id : SessionId)
  /-- A listener is told of something that has not come in on a link. -/
  | tell (e : News) (ear : Ear)
  | close (id : SessionId)
  | deafen (id : SessionId)

/-- What has been done. -/
inductive Act where
  /-- The link of a session has brought up an event. -/
  | carried (link : SessionId) (e : Event)
  /-- A line was queued for a client because of an event, which a link has brought up or not. -/
  | pushed (link : Option SessionId) (id : SessionId) (cause : Event) (line : String)
  /-- A line was queued for a client in reply to one of its own. -/
  | replied (id : SessionId) (line : String)
  /-- A dialogue has done something to its session. -/
  | moved (id : SessionId) (m : Move)
  | closed (id : SessionId)
  | deafened (id : SessionId)

/-- The act that an effect of telling a listener is, if it is one. -/
def HubEffect.act? (link : Option SessionId) : HubEffect → Option Act
  | .push id cause line => some (.pushed link id cause line)
  | _ => none

/-- What comes of telling a listener is queued because of the event, for the session told. -/
lemma pushed_of_tell {settings : ScanSettings} {h : Hub} {e : Event} {ear : Ear}
    {link : Option SessionId} {act : Act}
    (hact : act ∈ (h.tell settings e ear).2.filterMap (HubEffect.act? link)) :
    ∃ id line s, act = .pushed link id e line ∧ ear = .session id ∧ h.session? id = some s
      ∧ .push line ∈ (s.onEvent e).2 := by
  obtain ⟨effect, heffect, hof⟩ := List.mem_filterMap.1 hact
  cases effect with
  | push id cause line =>
    obtain rfl := Option.some.inj hof
    obtain ⟨rfl, rfl, s, hs, hpush⟩ := Hub.push_of_tell heffect
    exact ⟨id, line, s, rfl, rfl, hs, hpush⟩
  | _ => cases hof

namespace Switchboard

/-- Puts the link of a session in its place. -/
def setUplink (t : Switchboard) (id : SessionId) (up : Uplink) : Switchboard :=
  { t with uplinks := fun i => if i = id then up else t.uplinks i }

/-- Puts a dialogue in its place, or removes it. -/
def setTalk (t : Switchboard) (k : Nat) (talk : Option Talk) : Switchboard :=
  { t with talks := fun i => if i = k then talk else t.talks i }

/-- A dialogue is told what its call has come to. -/
def settle (t : Switchboard) (k : Nat) (result : Except TransportError Response) : Switchboard :=
  match t.talks k with
  | some ⟨id, .ask (.forward _ _) next, true⟩ =>
    t.setTalk k (some ⟨id, next (forwardReply result), false⟩)
  | _ => t

variable (settings : ScanSettings) (setting : ServiceSetting)

/-- A dialogue takes its next step. What is to be answered by the other server becomes a call on the
link, and the dialogue waits. -/
def go (t : Switchboard) (k : Nat) (talk : Talk)
    (answer : (q : NodeQuery) → Except ChainError q.Answer) : Switchboard × List Act :=
  match talk.dialogue with
  | .done reply => (t.setTalk k none, reply.toList.map (.replied talk.id))
  | .ask (.node q) next => (t.setTalk k (some { talk with dialogue := next (answer q) }), [])
  | .ask (.forward method params) _ =>
    if talk.calling then (t, [])
    else
      let up := t.uplinks talk.id
      let up := { up with link := (up.link.step (.call ⟨k, method, params⟩)).1 }
      ((t.setUplink talk.id up).setTalk k (some { talk with calling := true }), [])
  | .move m next =>
    match t.hub.session? talk.id with
    | some session =>
      let hub := (t.hub.act setting.scheme settings (.move talk.id m)).1
      ({ t with hub }.setTalk k (some { talk with dialogue := next (m.perform session).1 }),
        [.moved talk.id m])
    | none => (t, [])

/-- The events that the effects of a link bring up. -/
def broughtUp (effects : List LinkEffect) : List Event :=
  (effects.filterMap LinkEffect.notification?).filterMap Event.ofNotification?

/-- Something happens to the link of a session: what it brings up is to be told to those who listen
now, and the callers that it has finished with go on. -/
def linkStep (t : Switchboard) (id : SessionId) (s : LinkStep) : Switchboard × List Act :=
  let up := t.uplinks id
  if (t.hub.session? id).any (·.linked) && up.ready s then
    let (link, effects) := up.link.step s
    let events := broughtUp effects
    let telling := up.telling ++ events.flatMap fun e => t.hub.ears.map (e, ·)
    ((effects.filterMap LinkEffect.finished?).foldl (fun t answer => t.settle answer.1 answer.2)
      (t.setUplink id { link, telling }), events.map (.carried id))
  else (t, [])

/-- Something happens. -/
def step (t : Switchboard) : Juncture → Switchboard × List Act
  | .connect peer linked => ({ t with hub := (t.hub.openSession peer linked).2.1 }, [])
  | .line id text =>
    ({ t.setTalk t.nextTalk (some { id, dialogue := handleLine setting text }) with
        nextTalk := t.nextTalk + 1 }, [])
  | .go k answer =>
    match t.talks k with
    | some talk => t.go settings setting k talk answer
    | none => (t, [])
  | .link id s => t.linkStep id s
  | .hand id =>
    match (t.uplinks id).telling with
    | (e, ear) :: rest =>
      let (hub, effects) := t.hub.tell settings e ear
      ({ t with hub }.setUplink id { t.uplinks id with telling := rest },
        effects.filterMap (HubEffect.act? (some id)))
    | [] => (t, [])
  | .tell e ear =>
    let (hub, effects) := t.hub.tell settings e.1 ear
    ({ t with hub }, effects.filterMap (HubEffect.act? none))
  | .close id => ({ t with hub := (t.hub.closeSession id).1 }, [.closed id])
  | .deafen id => ({ t with hub := t.hub.deafen id }, [.deafened id])

/-- Things happen one after another; what has been done is recorded. -/
def run : Switchboard → List Juncture → Switchboard × List Act
  | t, [] => (t, [])
  | t, o :: rest =>
    let (t, acts) := t.step settings setting o
    let (t, more) := run t rest
    (t, acts ++ more)

end Switchboard

/-! ### Clients that get the statuses of a hash -/

/-- The line that tells a client of the status of a script hash. -/
def statusLine (hash : String) (status : Option String) : String :=
  Notification.line { method := scriptHashMethod, params := .array [.string hash, .ofText? status] }

/-- The status of a script hash that an event tells of. -/
def Event.statusOf? (hash : String) : Event → Option (Option String)
  | .scriptHashStatus h status => if h = hash then some status else none
  | _ => none

lemma Event.statusOf?_eq_some {hash : String} {status : Option String} {e : Event} :
    e.statusOf? hash = some status ↔ e = .scriptHashStatus hash status := by
  cases e <;> simp [statusOf?]

namespace Session

/-- That a session is open, its client is there, and it watches a script hash. -/
structure Attends (s : Session) (hash : String) : Prop where
  isConnected : s.isConnected = true
  watches : s.registry.watchesHash hash = true

variable {s : Session} {hash : String}

/-- No event changes the hashes watched, or whether the client is there. -/
lemma Attends.onEvent (h : s.Attends hash) (e : Event) : (s.onEvent e).1.Attends hash := by
  cases e with
  | scanPage p =>
    rw [Session.onEvent, onPage]
    split
    · exact ⟨h.isConnected, h.watches⟩
    · exact h
  | _ => exact ⟨h.isConnected, h.watches⟩

lemma Attends.onReorg (h : s.Attends hash) (e : Event) : (s.onReorg e).Attends hash := by
  cases e <;> exact ⟨h.isConnected, h.watches⟩

/-- A step of a dialogue that does not drop the hash. -/
lemma Attends.perform (h : s.Attends hash) {m : Move} (hm : m ≠ .dropHash hash) :
    (m.perform s).2.1.Attends hash := by
  have hmem : hash ∈ s.registry.scriptHashes := List.contains_iff_mem.1 h.watches
  cases m with
  | watchHash other =>
    refine ⟨h.isConnected, List.contains_iff_mem.2 ?_⟩
    simp only [Move.perform, Registry.subscribeHash]
    split
    · exact hmem
    · exact List.mem_append_left _ hmem
  | dropHash other =>
    have hne : hash ≠ other := fun heq => hm (heq ▸ rfl)
    exact ⟨h.isConnected, List.contains_iff_mem.2 (List.mem_filter.2 ⟨hmem, bne_iff_ne.2 hne⟩)⟩
  | _ => exact ⟨h.isConnected, h.watches⟩

/-- A hash that comes to be watched. -/
lemma attends_watchHash (h : s.isConnected = true) (hash : String) :
    ((Move.watchHash hash).perform s).2.1.Attends hash := by
  refine ⟨h, ?_⟩
  simp only [Move.perform, Registry.watchesHash, Registry.subscribeHash]
  split
  · assumption
  · simp

/-- A session that gets the statuses of a hash passes each on. -/
lemma Attends.onEvent_status (h : s.Attends hash) (status : Option String) :
    s.onEvent (.scriptHashStatus hash status) = (s, [.push (statusLine hash status)]) := by
  have hreceiving : s.receiving = true := by
    have hconnected := h.isConnected
    rw [Session.isConnected, Bool.and_eq_true] at hconnected
    exact hconnected.2
  simp [Session.onEvent, h.watches, notify, hreceiving, statusLine]

end Session

namespace Hub

/-- That a session is open, its client is there, and it watches a script hash. -/
def Attends (h : Hub) (id : SessionId) (hash : String) : Prop :=
  ∃ s, h.session? id = some s ∧ s.Attends hash

variable {h : Hub} {id : SessionId} {hash : String}

lemma Attends.tell (settings : ScanSettings) (keyed : h.Keyed) (attends : h.Attends id hash)
    (e : Event) (ear : Ear) : (h.tell settings e ear).1.Attends id hash := by
  obtain ⟨s, hs, hattends⟩ := attends
  refine ⟨heard e id ear s, by rw [session?_tell settings keyed, hs]; rfl, ?_⟩
  cases ear with
  | session i =>
    rw [heard]
    split
    · exact hattends.onEvent e
    · exact hattends
  | reorg i =>
    rw [heard]
    split
    · exact hattends.onReorg e
    · exact hattends
  | observer => exact hattends

/-- The session after a step of a dialogue with its client. -/
lemma session?_move_self (keyed : h.Keyed) (scheme : Scheme) (settings : ScanSettings)
    {s : Session} (hs : h.session? id = some s) (m : Move) :
    (h.act scheme settings (.move id m)).1.session? id = some (m.perform s).2.1 := by
  simp only [act, hs, session?_dispatchAll]
  rw [session?_putSession_of_keeps keyed hs (m.keeps_perform s), if_pos rfl]

lemma Attends.move (keyed : h.Keyed) (scheme : Scheme) (settings : ScanSettings)
    (attends : h.Attends id hash) {i : SessionId} {m : Move} (hm : i = id → m ≠ .dropHash hash) :
    (h.act scheme settings (.move i m)).1.Attends id hash := by
  obtain ⟨s, hs, hattends⟩ := attends
  by_cases hi : i = id
  · subst hi
    exact ⟨_, session?_move_self keyed scheme settings hs m, hattends.perform (hm rfl)⟩
  · exact ⟨s, by rwa [session?_move_of_ne keyed scheme settings hi], hattends⟩

lemma Attends.deafen (keyed : h.Keyed) (attends : h.Attends id hash) {i : SessionId}
    (hi : i ≠ id) : (h.deafen i).Attends id hash := by
  obtain ⟨s, hs, hattends⟩ := attends
  refine ⟨s, ?_, hattends⟩
  rw [Hub.deafen]
  split
  · rename_i u hu
    have hkeeps : u.Keeps { u with receiving := false } := ⟨rfl, rfl, rfl, fun tidy => tidy⟩
    rw [session?_putSession_of_keeps keyed hu hkeeps, if_neg hi]
    exact hs
  · exact hs

/-- **An open session listens once**: its first listener stands once among those registered. -/
lemma Orderly.ears_session (orderly : h.Orderly) {s : Session} (hs : h.session? id = some s)
    (hconnected : s.connected = true) :
    h.ears.filter (· = .session id) = [.session id] := by
  obtain ⟨a, b, hids, ha, hb⟩ := orderly.registered id s hs hconnected
  have hnodup : h.bus.listeners.Nodup := List.Nodup.of_map _ orderly.nodup
  -- An entry for the session has one of its two ids, and the other id is the second listener's.
  have honly : ∀ l, l ∈ h.bus.listeners.filter (·.2 = .session id) ↔ l ∈ [(a, .session id)] := by
    intro l
    simp only [List.mem_filter, decide_eq_true_eq, List.mem_singleton]
    refine ⟨fun ⟨hl, hear⟩ => ?_, fun heq => heq ▸ ⟨ha, rfl⟩⟩
    obtain ⟨t, ht, -, hmem⟩ := orderly.claimed l hl id (by rw [hear, Ear.owner?])
    obtain rfl := Option.some.inj (ht.symm.trans hs)
    rw [hids] at hmem
    obtain hfirst | hsecond : l.1 = a ∨ l.1 = b := by simpa using hmem
    · exact Prod.ext hfirst hear
    · have hreorg := List.inj_on_of_nodup_map orderly.nodup hl hb hsecond
      simp [hreorg] at hear
  have hfilter : h.bus.listeners.filter (·.2 = .session id) = [(a, .session id)] :=
    List.perm_singleton.1
      ((List.perm_ext_iff_of_nodup (hnodup.filter _) (List.nodup_singleton _)).2 honly)
  rw [ears, Bus.recipients, List.filter_map]
  simpa [Function.comp_def] using congrArg (List.map (·.2)) hfilter

end Hub

/-! ### Statuses on their way -/

/-- The status of a hash that the link of a session has brought up. -/
def Act.carried? (link : SessionId) (hash : String) : Act → Option (Option String)
  | .carried l e => if l = link then e.statusOf? hash else none
  | _ => none

/-- The status of a hash that was queued for a client and that the link of a session has brought
up. -/
def Act.queued? (link id : SessionId) (hash : String) : Act → Option (Option String)
  | .pushed (some l) i cause _ => if l = link ∧ i = id then cause.statusOf? hash else none
  | _ => none

/-- The status of a hash that is to be told to a session. -/
def statusFor? (id : SessionId) (hash : String) (x : Event × Ear) : Option (Option String) :=
  if x.2 = .session id then x.1.statusOf? hash else none

/-- The statuses of a hash that the reader of a link has still to tell a session. -/
def Switchboard.due (t : Switchboard) (link id : SessionId) (hash : String) :
    List (Option String) :=
  (t.uplinks link).telling.filterMap (statusFor? id hash)

section Tell

variable (settings : ScanSettings) {h : Hub} {id : SessionId} {hash : String}

/-- **What is queued by a telling** for a client that gets the statuses of a hash: the status, if
its session is told of one. -/
lemma Hub.Attends.queued_tell (attends : h.Attends id hash) (l link : SessionId) (e : Event)
    (ear : Ear) :
    ((h.tell settings e ear).2.filterMap (HubEffect.act? (some l))).filterMap
        (Act.queued? link id hash)
      = if l = link then (statusFor? id hash (e, ear)).toList else [] := by
  cases hstatus : statusFor? id hash (e, ear) with
  | none =>
    -- Whatever is queued is queued because of the event and for the session that is told.
    have hnone : ∀ act ∈ (h.tell settings e ear).2.filterMap (HubEffect.act? (some l)),
        act.queued? link id hash = none := by
      intro act hact
      obtain ⟨i, line, -, rfl, rfl, -, -⟩ := pushed_of_tell hact
      rw [Act.queued?]
      split
      · rename_i hid
        rwa [statusFor?, if_pos (by rw [hid.2])] at hstatus
      · rfl
    rw [List.filterMap_eq_nil_iff.2 hnone]
    simp
  | some status =>
    obtain ⟨s, hs, hattends⟩ := attends
    obtain ⟨rfl, he⟩ : ear = .session id ∧ e.statusOf? hash = some status := by
      rw [statusFor?] at hstatus
      split at hstatus
      · exact ⟨‹_›, hstatus⟩
      · cases hstatus
    obtain rfl := Event.statusOf?_eq_some.1 he
    have heffects : (h.tell settings (.scriptHashStatus hash status) (.session id)).2
        = [.push id (.scriptHashStatus hash status) (statusLine hash status)] := by
      simp [Hub.tell, hs, hattends.onEvent_status, Hub.carryOut, Hub.dispatchAll]
    rw [heffects]
    by_cases hlink : l = link <;> simp [HubEffect.act?, Act.queued?, Event.statusOf?, hlink]

/-- **What is told to a session** of an event that is published now: the event, once. -/
lemma Hub.Attends.filterMap_ears (orderly : h.Orderly) (attends : h.Attends id hash) (e : Event) :
    (h.ears.map (e, ·)).filterMap (statusFor? id hash) = (e.statusOf? hash).toList := by
  obtain ⟨s, hs, hattends⟩ := attends
  have hconnected : s.connected = true := by
    have hopen := hattends.isConnected
    rw [Session.isConnected, Bool.and_eq_true] at hopen
    exact hopen.1
  have hone := orderly.ears_session hs hconnected
  have hfilter : (h.ears.map (e, ·)).filterMap (statusFor? id hash)
      = (h.ears.filter (· = .session id)).filterMap fun _ => e.statusOf? hash := by
    rw [List.filterMap_map, List.filterMap_filter]
    congr 1
    funext ear
    simp [statusFor?]
  rw [hfilter, hone]
  cases e.statusOf? hash <;> simp

/-- What is told to a session of events that are published now: each, once and in order. -/
lemma Hub.Attends.filterMap_flatMap_ears (orderly : h.Orderly) (attends : h.Attends id hash)
    (events : List Event) :
    (events.flatMap fun e => h.ears.map (e, ·)).filterMap (statusFor? id hash)
      = events.filterMap (Event.statusOf? hash) := by
  induction events with
  | nil => rfl
  | cons e events ih =>
    rw [List.flatMap_cons, List.filterMap_append, ih, attends.filterMap_ears orderly,
      List.filterMap_cons]
    cases e.statusOf? hash <;> rfl

end Tell

/-! ### One step -/

/-- That an act ends the time in which a client gets the statuses of a hash. -/
def Act.ends (id : SessionId) (hash : String) : Act → Bool
  | .moved i (.dropHash h) => i == id && h == hash
  | .closed i | .deafened i => i == id
  | _ => false

namespace Switchboard

variable (settings : ScanSettings) (setting : ServiceSetting) {t : Switchboard}
  {id : SessionId} {hash : String}

lemma settle_eq (t : Switchboard) (k : Nat) (result : Except TransportError Response) :
    ∃ talks, t.settle k result = { t with talks } := by
  rw [settle]
  split
  · exact ⟨_, rfl⟩
  · exact ⟨t.talks, rfl⟩

/-- Callers that go on leave everything but their dialogues as it is. -/
lemma foldl_settle_eq (answers : List (Nat × Except TransportError Response)) (t : Switchboard) :
    ∃ talks, answers.foldl (fun t answer => t.settle answer.1 answer.2) t = { t with talks } := by
  induction answers generalizing t with
  | nil => exact ⟨t.talks, rfl⟩
  | cons answer answers ih =>
    obtain ⟨talks, hfirst⟩ := settle_eq t answer.1 answer.2
    obtain ⟨talks', hrest⟩ := ih { t with talks }
    exact ⟨talks', by rw [List.foldl_cons, hfirst, hrest]⟩

/-- **Sessions and registrations** stay in order, whatever happens. -/
lemma orderly_step (orderly : t.hub.Orderly) (o : Juncture) :
    (t.step settings setting o).1.hub.Orderly := by
  cases o with
  | connect peer linked => exact orderly.openSession peer linked
  | line i text => exact orderly
  | go k answer =>
    simp only [step]
    split
    · rename_i talk _
      unfold go
      split
      · exact orderly
      · exact orderly
      · split <;> exact orderly
      · split
        · exact orderly.move settings setting.scheme talk.id _
        · exact orderly
    · exact orderly
  | link i s =>
    simp only [step, linkStep]
    split
    · obtain ⟨talks, heq⟩ := foldl_settle_eq (((t.uplinks i).link.step s).2.filterMap
        LinkEffect.finished?) (t.setUplink i _)
      rw [heq]
      exact orderly
    · exact orderly
  | hand i =>
    simp only [step]
    split
    · exact orderly.tell settings _ _
    · exact orderly
  | tell e ear => exact orderly.tell settings e.1 ear
  | close i => exact orderly.closeSession i
  | deafen i => exact orderly.deafen i

/-- That on the way from one state to another no status of a hash is lost or doubled that some link
brings up: those that a session had still to be told at first and those that were brought up since
are those that were queued for its client and those that it has still to be told. -/
def Conveys (id : SessionId) (hash : String) (t : Switchboard) (acts : List Act)
    (t' : Switchboard) : Prop :=
  ∀ link, t.due link id hash ++ acts.filterMap (Act.carried? link hash)
    = acts.filterMap (Act.queued? link id hash) ++ t'.due link id hash

lemma Conveys.trans {t' t'' : Switchboard} {acts more : List Act}
    (first : Conveys id hash t acts t') (second : Conveys id hash t' more t'') :
    Conveys id hash t (acts ++ more) t'' := by
  intro link
  rw [List.filterMap_append, List.filterMap_append, ← List.append_assoc, first link,
    List.append_assoc, second link, List.append_assoc]

/-- What has nothing to do with statuses. -/
lemma conveys_of_silent {t' : Switchboard} {acts : List Act}
    (hsame : ∀ link, (t'.uplinks link).telling = (t.uplinks link).telling)
    (hsilent : ∀ act ∈ acts, ∀ link,
      act.carried? link hash = none ∧ act.queued? link id hash = none) :
    Conveys id hash t acts t' := by
  intro link
  have hcarried : acts.filterMap (Act.carried? link hash) = [] :=
    List.filterMap_eq_nil_iff.2 fun act hact => (hsilent act hact link).1
  have hqueued : acts.filterMap (Act.queued? link id hash) = [] :=
    List.filterMap_eq_nil_iff.2 fun act hact => (hsilent act hact link).2
  rw [hcarried, hqueued, List.append_nil, List.nil_append, due, due, hsame]

/-- A dialogue takes its next step. -/
lemma conveyed_go (orderly : t.hub.Orderly) (attends : t.hub.Attends id hash) (k : Nat)
    (talk : Talk) (answer : (q : NodeQuery) → Except ChainError q.Answer)
    (hends : ∀ act ∈ (t.go settings setting k talk answer).2, act.ends id hash = false) :
    (t.go settings setting k talk answer).1.hub.Attends id hash
      ∧ Conveys id hash t (t.go settings setting k talk answer).2
          (t.go settings setting k talk answer).1 := by
  obtain ⟨i, dialogue, calling⟩ := talk
  cases dialogue with
  | done reply =>
    refine ⟨attends, conveys_of_silent (fun _ => rfl) fun act hact link => ?_⟩
    obtain ⟨line, -, rfl⟩ := List.mem_map.1 hact
    exact ⟨rfl, rfl⟩
  | ask q next =>
    cases q with
    | node q => exact ⟨attends, conveys_of_silent (fun _ => rfl) (by simp [go])⟩
    | forward method params =>
      simp only [go]
      split
      · exact ⟨attends, conveys_of_silent (fun _ => rfl) (by simp)⟩
      · refine ⟨attends, conveys_of_silent (fun link => ?_) (by simp)⟩
        simp only [setTalk, setUplink]
        split
        · rename_i hlink
          rw [hlink]
        · rfl
  | move m next =>
    cases hs : t.hub.session? i with
    | none =>
      simp only [go, hs]
      exact ⟨attends, conveys_of_silent (fun _ => rfl) (by simp)⟩
    | some s =>
      simp only [go, hs] at hends ⊢
      refine ⟨attends.move orderly.keyed setting.scheme settings ?_,
        conveys_of_silent (fun _ => rfl) (by simp [Act.carried?, Act.queued?])⟩
      rintro rfl rfl
      simp [Act.ends] at hends

/-- The link of a session goes on. -/
lemma conveyed_link (orderly : t.hub.Orderly) (attends : t.hub.Attends id hash) (i : SessionId)
    (s : LinkStep) :
    (t.linkStep i s).1.hub.Attends id hash
      ∧ Conveys id hash t (t.linkStep i s).2 (t.linkStep i s).1 := by
  rw [linkStep]
  dsimp only
  split
  · generalize hevents : broughtUp ((t.uplinks i).link.step s).2 = events
    obtain ⟨talks, heq⟩ := foldl_settle_eq (((t.uplinks i).link.step s).2.filterMap
      LinkEffect.finished?) (t.setUplink i ⟨((t.uplinks i).link.step s).1,
        (t.uplinks i).telling ++ events.flatMap fun e => t.hub.ears.map (e, ·)⟩)
    rw [heq]
    refine ⟨attends, fun link => ?_⟩
    have hqueued : (events.map (Act.carried i)).filterMap (Act.queued? link id hash) = [] := by
      simp [Act.queued?]
    rw [hqueued, List.nil_append, due, due]
    by_cases hlink : link = i
    · subst hlink
      have hcarried : (events.map (Act.carried link)).filterMap (Act.carried? link hash)
          = events.filterMap (Event.statusOf? hash) := by
        simp [List.filterMap_map, Function.comp_def, Act.carried?]
      have hdue := attends.filterMap_flatMap_ears orderly events
      simp [setUplink, hcarried, hdue]
    · have hcarried : (events.map (Act.carried i)).filterMap (Act.carried? link hash) = [] := by
        simp [Act.carried?, Ne.symm hlink]
      simp [setUplink, hcarried, hlink]
  · exact ⟨attends, conveys_of_silent (fun _ => rfl) (by simp)⟩

/-- The reader of a link tells the next listener. -/
lemma conveyed_hand (orderly : t.hub.Orderly) (attends : t.hub.Attends id hash) (i : SessionId) :
    (t.step settings setting (.hand i)).1.hub.Attends id hash
      ∧ Conveys id hash t (t.step settings setting (.hand i)).2
          (t.step settings setting (.hand i)).1 := by
  simp only [step]
  split
  · rename_i e ear rest htelling
    refine ⟨attends.tell settings orderly.keyed e ear, fun link => ?_⟩
    have hqueued := attends.queued_tell settings i link e ear
    have hcarried : ((t.hub.tell settings e ear).2.filterMap (HubEffect.act? (some i))).filterMap
        (Act.carried? link hash) = [] := by
      refine List.filterMap_eq_nil_iff.2 fun act hact => ?_
      obtain ⟨_, _, _, rfl, _⟩ := pushed_of_tell hact
      rfl
    rw [hqueued, hcarried, List.append_nil, due, due]
    by_cases hlink : link = i
    · subst hlink
      rw [if_pos rfl, htelling, List.filterMap_cons]
      cases statusFor? id hash (e, ear) <;> simp [setUplink]
    · simp [setUplink, hlink, Ne.symm hlink]
  · exact ⟨attends, conveys_of_silent (fun _ => rfl) (by simp)⟩

/-- A listener is told of something else. -/
lemma conveyed_tell (orderly : t.hub.Orderly) (attends : t.hub.Attends id hash) (e : News)
    (ear : Ear) :
    (t.step settings setting (.tell e ear)).1.hub.Attends id hash
      ∧ Conveys id hash t (t.step settings setting (.tell e ear)).2
          (t.step settings setting (.tell e ear)).1 := by
  refine ⟨attends.tell settings orderly.keyed e.1 ear,
    conveys_of_silent (fun _ => rfl) fun act hact link => ?_⟩
  obtain ⟨_, _, _, rfl, _⟩ := pushed_of_tell hact
  exact ⟨rfl, rfl⟩

/-- **One step** neither loses nor doubles a status. -/
lemma conveyed_step (orderly : t.hub.Orderly) (attends : t.hub.Attends id hash) (o : Juncture)
    (hends : ∀ act ∈ (t.step settings setting o).2, act.ends id hash = false) :
    (t.step settings setting o).1.hub.Attends id hash
      ∧ Conveys id hash t (t.step settings setting o).2 (t.step settings setting o).1 := by
  cases o with
  | connect peer linked =>
    obtain ⟨s, hs, hattends⟩ := attends
    refine ⟨⟨s, ?_, hattends⟩, conveys_of_silent (fun _ => rfl) (by simp [step])⟩
    have hne : id ≠ t.hub.nextSession := (orderly.known id (Hub.mem_roster hs)).ne
    exact (orderly.session?_openSession peer linked id).trans ((if_neg hne).trans hs)
  | line i text => exact ⟨attends, conveys_of_silent (fun _ => rfl) (by simp [step])⟩
  | go k answer =>
    simp only [step] at hends ⊢
    split at hends
    · exact conveyed_go settings setting orderly attends k _ answer hends
    · exact ⟨attends, conveys_of_silent (fun _ => rfl) (by simp)⟩
  | link i s => exact conveyed_link orderly attends i s
  | hand i => exact conveyed_hand settings setting orderly attends i
  | tell e ear => exact conveyed_tell settings setting orderly attends e ear
  | close i =>
    have hi : i ≠ id := by simpa [step, Act.ends] using hends
    obtain ⟨s, hs, hattends⟩ := attends
    refine ⟨⟨s, ?_, hattends⟩, conveys_of_silent (fun _ => rfl) ?_⟩
    · exact (Hub.session?_closeSession_of_ne orderly.keyed hi.symm).trans hs
    · simp [step, Act.carried?, Act.queued?]
  | deafen i =>
    have hi : i ≠ id := by simpa [step, Act.ends] using hends
    exact ⟨attends.deafen orderly.keyed hi,
      conveys_of_silent (fun _ => rfl) (by simp [step, Act.carried?, Act.queued?])⟩

lemma orderly_run (orderly : t.hub.Orderly) (junctures : List Juncture) :
    (t.run settings setting junctures).1.hub.Orderly := by
  induction junctures generalizing t with
  | nil => exact orderly
  | cons o rest ih => exact ih (orderly_step settings setting orderly o)

/-- **A whole course** neither loses nor doubles a status, as long as the client gets them. -/
lemma conveyed_run (orderly : t.hub.Orderly) (attends : t.hub.Attends id hash)
    (window : List Juncture)
    (hends : ∀ act ∈ (t.run settings setting window).2, act.ends id hash = false) :
    Conveys id hash t (t.run settings setting window).2 (t.run settings setting window).1 := by
  induction window generalizing t with
  | nil => exact conveys_of_silent (fun _ => rfl) (by simp [run])
  | cons o rest ih =>
    rw [run] at hends
    obtain ⟨hfirst, hrest⟩ := List.forall_mem_append.1 hends
    obtain ⟨attends', conveys⟩ := conveyed_step settings setting orderly attends o hfirst
    exact conveys.trans (ih (orderly_step settings setting orderly o) attends' hrest)

end Switchboard
end SilentScan
