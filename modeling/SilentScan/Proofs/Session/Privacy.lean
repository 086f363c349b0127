/-
What clients learn of payments.

The pages of all scans travel over one bus, and every session hears of every page. What is going on
is cut up here as finely as it can be: dialogues with clients stand between any two of their steps,
pages wait to be published, and what has been published waits to be told to each listener, all in
any order. A record of what has been done shows whose a page is: a scan is dispatched by the session
that is its owner, its pages name the owner, and a session passes on only pages of its own that are
still wanted.

* `Traffic`, `Occasion`, `Traffic.step`, `Traffic.run`: all that is going on, and how it goes on;
* `Deed`: what has been done;
* `Accounts`: that a page is one of a scan of its owner, with entries found by the scan;
* `Traffic.Private`, `Private.step`, `Private.run`: the invariant that ties them together;
* `pushed_page_own`: a notification about an address is a page of a scan of the client itself.
-/
import SilentScan.Proofs.Protocol.Refusal
import SilentScan.Proofs.Protocol.Terms
import SilentScan.Proofs.Scan.Lifetime
import SilentScan.Proofs.Session.Account

namespace SilentScan

/-! ### All that is going on -/

/-- The hub with what is under way: dialogues with clients, events that have arisen but are not
published, and published ones that are still to be told to a listener. -/
structure Traffic where
  hub : Hub := {}
  talks : List (SessionId × Dialogue (Option String)) := []
  arisen : List Event := []
  tellings : List (Event × Ear) := []

/-- An event that is no page of a scan. -/
abbrev Tidings : Type :=
  { e : Event // ∀ p, e ≠ .scanPage p }

/-- What can happen next. -/
inductive Occasion where
  | connect (peer : Option String) (linked : Bool)
  /-- A client sends a line. -/
  | line (id : SessionId) (text : String)
  /-- A dialogue takes its next step; a question is answered somehow. -/
  | go (talk : Nat) (answer : (q : Question) → q.Reply)
  | close (id : SessionId)
  | deafen (id : SessionId)
  | observe
  /-- The index, the full node or the other server brings something up. -/
  | arise (e : Tidings)
  /-- An event is published to those who are registered now. -/
  | publish (event : Nat)
  /-- A listener is told of an event. -/
  | tell (telling : Nat)
  | scan (k : Nat) (input : ScanInput)

/-- What has been done. -/
inductive Deed where
  /-- A session has dispatched a scan. -/
  | dispatched (id : SessionId) (k : Nat) (r : ScanRequest)
  /-- The store has sent a row to a scan. -/
  | found (k : Nat) (m : RawMatch)
  /-- A scan has brought up a page. -/
  | issued (k : Nat) (p : ScanPage Double)
  /-- A line was queued for a client because of an event. -/
  | pushed (id : SessionId) (cause : Event) (line : String)
  /-- A line was queued for a client in reply to one of its own. -/
  | replied (id : SessionId) (line : String)

/-- The scans that a session has dispatched between two states of a hub. -/
def Hub.launched (id : SessionId) (h h' : Hub) : List Deed :=
  (h'.scans.drop h.scans.length).map fun p => .dispatched id p.1 p.2.request

/-- The scans that a listener has dispatched between two states of a hub. -/
def Ear.launched (h h' : Hub) : Ear → List Deed
  | .session id => h.launched id h'
  | _ => []

/-- The deed that an effect is, if it is one. -/
def HubEffect.deed? : HubEffect → Option Deed
  | .push id cause line => some (.pushed id cause line)
  | _ => none

/-- The rows that come with something that happens to a scan. -/
def ScanInput.found (k : Nat) : ScanInput → List Deed
  | .push m => [.found k m]
  | _ => []

namespace Traffic

variable (settings : ScanSettings) (setting : ServiceSetting)

/-- A dialogue takes its next step. -/
def go (t : Traffic) (i : Nat) (id : SessionId) (answer : (q : Question) → q.Reply) :
    Dialogue (Option String) → Traffic × List Deed
  | .done reply => ({ t with talks := t.talks.eraseIdx i }, reply.toList.map (.replied id))
  | .ask q next => ({ t with talks := t.talks.set i (id, next (answer q)) }, [])
  | .move m next =>
    match t.hub.session? id with
    | some session =>
      let hub := (t.hub.act setting.scheme settings (.move id m)).1
      ({ t with hub, talks := t.talks.set i (id, next (m.perform session).1) },
        t.hub.launched id hub)
    | none => (t, [])

/-- Something happens. -/
def step (t : Traffic) : Occasion → Traffic × List Deed
  | .connect peer linked => ({ t with hub := (t.hub.openSession peer linked).2.1 }, [])
  | .line id text => ({ t with talks := t.talks ++ [(id, handleLine setting text)] }, [])
  | .go i answer =>
    match t.talks[i]? with
    | some (id, d) => t.go settings setting i id answer d
    | none => (t, [])
  | .close id => ({ t with hub := (t.hub.closeSession id).1 }, [])
  | .deafen id => ({ t with hub := t.hub.deafen id }, [])
  | .observe => ({ t with hub := t.hub.observe }, [])
  | .arise e => ({ t with arisen := t.arisen ++ [e.1] }, [])
  | .publish i =>
    match t.arisen[i]? with
    | some e =>
      ({ t with arisen := t.arisen.eraseIdx i, tellings := t.tellings ++ t.hub.ears.map (e, ·) },
        [])
    | none => (t, [])
  | .tell i =>
    match t.tellings[i]? with
    | some (e, ear) =>
      let (hub, effects) := t.hub.tell settings e ear
      ({ t with hub, tellings := t.tellings.eraseIdx i },
        ear.launched t.hub hub ++ effects.filterMap HubEffect.deed?)
    | none => (t, [])
  | .scan k input =>
    match t.hub.scan? k with
    | some run =>
      let (run, effects) := run.step setting.scheme settings.batchSize input
      let pages := pagesOf effects
      ({ t with hub := t.hub.putScan k run, arisen := t.arisen ++ pages.map .scanPage },
        input.found k ++ pages.map (.issued k))
    | none => (t, [])

/-- Things happen one after another; the deeds are recorded. -/
def run : Traffic → List Occasion → Traffic × List Deed
  | t, [] => (t, [])
  | t, o :: rest =>
    let (t, deeds) := t.step settings setting o
    let (t, more) := run t rest
    (t, deeds ++ more)

end Traffic

/-! ### Whose pages are -/

/-- The entries that a scan has found. -/
def Finds (c : Curve) (deeds : List Deed) (k : Nat) (e : TxEntry) : Prop :=
  ∃ m, .found k m ∈ deeds ∧ toEntry c m = some e

/-- That a page was brought up by a scan that its owner has dispatched, belongs to the request of
that scan, and has entries that the scan has found. -/
def Accounts (c : Curve) (deeds : List Deed) (p : ScanPage Double) : Prop :=
  ∃ k r, .dispatched p.owner k r ∈ deeds ∧ r.owner = p.owner ∧ p.subscription = r.key
    ∧ .issued k p ∈ deeds ∧ ∀ e ∈ p.history, Finds c deeds k e

/-- That an event is accounted for, if it is a page. -/
def EventAccounts (c : Curve) (deeds : List Deed) (e : Event) : Prop :=
  ∀ p, e = .scanPage p → Accounts c deeds p

/-- That a scan was dispatched by its owner, and holds entries that it has found. -/
def ScanAccounts (c : Curve) (deeds : List Deed) (p : Nat × ScanRun Double) : Prop :=
  .dispatched p.2.request.owner p.1 p.2.request ∈ deeds
    ∧ ∀ e ∈ p.2.held c, Finds c deeds p.1 e

section Grow

variable {c : Curve} {deeds deeds' : List Deed} (hsub : ∀ deed ∈ deeds, deed ∈ deeds')
include hsub

lemma Finds.mono {k : Nat} {e : TxEntry} (h : Finds c deeds k e) : Finds c deeds' k e := by
  obtain ⟨m, hm, he⟩ := h
  exact ⟨m, hsub _ hm, he⟩

lemma Accounts.mono {p : ScanPage Double} (h : Accounts c deeds p) : Accounts c deeds' p := by
  obtain ⟨k, r, hdispatched, howner, hkey, hissued, hfinds⟩ := h
  exact ⟨k, r, hsub _ hdispatched, howner, hkey, hsub _ hissued,
    fun e he => (hfinds e he).mono hsub⟩

lemma EventAccounts.mono {e : Event} (h : EventAccounts c deeds e) : EventAccounts c deeds' e :=
  fun p hp => (h p hp).mono hsub

lemma ScanAccounts.mono {p : Nat × ScanRun Double} (h : ScanAccounts c deeds p) :
    ScanAccounts c deeds' p :=
  ⟨hsub _ h.1, fun e he => (h.2 e he).mono hsub⟩

end Grow

/-- The terms of a dialogue with the client of a session: it looks at that session, and dispatches
scans that this session owns. -/
def ownTerms (id : SessionId) : Terms where
  asks _ := True
  told _ _ := True
  does m := ∀ r, m = .scan r → r.owner = id
  sees
    | .look, s => s.id = id
    | _, _ => True

/-- That a dialogue keeps to the terms of a session. -/
structure Dialogue.OwnedBy (id : SessionId) (d : Dialogue (Option String)) : Prop where
  keeps : d.Keeps (ownTerms id) fun _ => True

/-- Whatever a client sends, the scans that come of it belong to its session. -/
lemma ownedBy_handleLine (id : SessionId) (setting : ServiceSetting) (line : String) :
    (handleLine setting line).OwnedBy id := by
  have suit : (ownTerms id).Suit (fun _ => True) fun _ => True :=
    { asks := fun _ => True.intro
      does := fun m _ hm r hr => absurd hr (hm r)
      scan := fun s r hs howner r' hr => by
        obtain rfl := Move.scan.inj hr
        exact howner.trans hs
      invalid := fun _ => True.intro
      unlinked := fun _ => True.intro
      unknown := fun _ => True.intro
      failed := fun _ _ _ => True.intro
      forwarded := fun _ _ r _ => by cases r <;> exact True.intro
      null := True.intro
      text := fun _ => True.intro
      features := fun _ => True.intro
      tip := fun _ _ => True.intro
      fee := fun _ _ _ _ => True.intro
      relayFee := fun _ _ => True.intro
      transaction := fun _ _ _ _ => True.intro }
  have settling : (ownTerms id).SuitSettling fun _ => True :=
    { asks := fun _ => True.intro
      look := fun r hr => by cases hr
      invalid := fun _ => True.intro
      unlinked := fun _ => True.intro
      unsupported := fun _ => True.intro
      nonsense := fun _ => True.intro
      failed := fun _ _ _ => True.intro }
  exact ⟨keeps_handleLine suit settling (fun _ _ _ => True.intro) (fun v _ r hr => by cases hr)
    (fun _ => True.intro) setting line⟩

/-- What ties all that is going on to what has been done. -/
structure Traffic.Private (c : Curve) (t : Traffic) (deeds : List Deed) : Prop where
  sound : t.hub.Sound
  talks : ∀ talk ∈ t.talks, talk.2.OwnedBy talk.1
  arisen : ∀ e ∈ t.arisen, EventAccounts c deeds e
  tellings : ∀ x ∈ t.tellings, EventAccounts c deeds x.1
  scans : ∀ p ∈ t.hub.scans, ScanAccounts c deeds p

/-! ### Scans that are dispatched -/

/-- The scans that an event makes a session ask for are its own. -/
lemma Session.owner_of_mem_onEvent {s : Session} {e : Event} {r : ScanRequest}
    (h : .scan r ∈ (s.onEvent e).2) : r.owner = s.id := by
  cases e with
  | newTip tip =>
    simp only [onEvent, notify] at h
    split at h <;> [split at h; skip] <;> simp at h
  | scriptHashStatus hash status =>
    simp only [onEvent, notify] at h
    split at h <;> [split at h; skip] <;> simp at h
  | scanPage p =>
    simp only [onEvent, onPage, notify] at h
    split at h <;> [split at h; skip] <;> simp at h
  | blocksIndexed lo hi n =>
    obtain ⟨sub, _, hsub⟩ := List.mem_map.1 h
    rw [← SessionEffect.scan.inj hsub]
  | mempoolAdded txids =>
    obtain ⟨⟨key, sub⟩, _, hsub⟩ := List.mem_map.1 h
    rw [← SessionEffect.scan.inj hsub]
  | mempoolRemoved txids => cases h
  | reorg start => cases h

namespace Hub

variable (settings : ScanSettings)

/-- Scans that are dispatched stand behind the others. -/
lemma scans_dispatchAll (h : Hub) (rs : List ScanRequest) :
    ∃ fresh, (dispatchAll settings h rs).1.scans = h.scans ++ fresh
      ∧ ∀ p ∈ fresh, ∃ r ∈ rs, p.2 = .new settings r := by
  induction rs generalizing h with
  | nil => exact ⟨[], (List.append_nil _).symm, by simp⟩
  | cons r rs ih =>
    obtain ⟨fresh, hscans, hfresh⟩ := ih (dispatch settings h r).1
    refine ⟨(h.nextScan, .new settings r) :: fresh, ?_, List.forall_mem_cons.2 ⟨?_, ?_⟩⟩
    · rw [dispatchAll, hscans]
      simp [dispatch]
    · exact ⟨r, List.mem_cons_self, rfl⟩
    · intro p hp
      obtain ⟨r', hr', hnew⟩ := hfresh p hp
      exact ⟨r', List.mem_cons_of_mem _ hr', hnew⟩

/-- **Scans that a session dispatches** are accounted for, if they are its own. -/
lemma accounts_dispatchAll {c : Curve} {deeds : List Deed} {h : Hub} {id : SessionId}
    {rs : List ScanRequest} (hscans : ∀ p ∈ h.scans, ScanAccounts c deeds p)
    (howner : ∀ r ∈ rs, r.owner = id) :
    ∀ p ∈ (dispatchAll settings h rs).1.scans,
      ScanAccounts c (deeds ++ h.launched id (dispatchAll settings h rs).1) p := by
  obtain ⟨fresh, heq, hfresh⟩ := scans_dispatchAll settings h rs
  intro p hp
  rw [launched, heq, List.drop_left]
  rw [heq] at hp
  rcases List.mem_append.1 hp with hp | hp
  · exact (hscans p hp).mono fun _ hd => List.mem_append_left _ hd
  · obtain ⟨r, hr, hnew⟩ := hfresh p hp
    have hrequest : p.2.request = r := by rw [hnew]; rfl
    refine ⟨List.mem_append_right _ (List.mem_map.2 ⟨p, hp, ?_⟩), fun e he => ?_⟩
    · rw [hrequest, howner r hr]
    · rw [hnew] at he
      cases he

end Hub

/-! ### One step -/

namespace Traffic

variable (settings : ScanSettings) (setting : ServiceSetting) {t : Traffic} {deeds : List Deed}

/-- What does not concern dialogues, events and scans. -/
lemma Private.of_hub {c : Curve} (priv : t.Private c deeds) {h : Hub} (sound : h.Sound)
    (hscans : h.scans = t.hub.scans) : Private c { t with hub := h } deeds :=
  { priv with sound, scans := hscans ▸ priv.scans }

/-- What is recorded besides. -/
lemma Private.mono {c : Curve} (priv : t.Private c deeds) (deeds' : List Deed)
    (hsub : ∀ deed ∈ deeds, deed ∈ deeds') : t.Private c deeds' where
  sound := priv.sound
  talks := priv.talks
  arisen e he := (priv.arisen e he).mono hsub
  tellings x hx := (priv.tellings x hx).mono hsub
  scans p hp := (priv.scans p hp).mono hsub

/-- A dialogue goes on. -/
lemma Private.go (priv : t.Private setting.scheme.curve deeds) (i : Nat) {id : SessionId}
    (answer : (q : Question) → q.Reply) {d : Dialogue (Option String)}
    (hd : d.OwnedBy id) :
    (t.go settings setting i id answer d).1.Private setting.scheme.curve
      (deeds ++ (t.go settings setting i id answer d).2) := by
  have hset : ∀ d' : Dialogue (Option String), d'.OwnedBy id →
      ∀ talk ∈ t.talks.set i (id, d'), talk.2.OwnedBy talk.1 := by
    intro d' hd' talk htalk
    rcases List.mem_or_eq_of_mem_set htalk with htalk | rfl
    · exact priv.talks talk htalk
    · exact hd'
  cases d with
  | done reply =>
    have priv' := priv.mono (deeds ++ reply.toList.map (.replied id))
      fun _ hdeed => List.mem_append_left _ hdeed
    exact { priv' with talks := fun talk htalk => priv.talks talk (List.mem_of_mem_eraseIdx htalk) }
  | ask q next =>
    simp only [Traffic.go, List.append_nil]
    exact { priv with talks := hset _ ⟨hd.keeps.2 _ True.intro⟩ }
  | move m next =>
    cases hsession : t.hub.session? id with
    | none =>
      simp only [Traffic.go, hsession, List.append_nil]
      exact priv
    | some session =>
      have hid := priv.sound.keyed id session hsession
      have hsees : (ownTerms id).sees m (m.perform session).1 := by
        cases m with
        | look => exact hid
        | _ => exact True.intro
      have howner : ∀ r ∈ (m.perform session).2.2, r.owner = id := by
        intro r hr
        cases m with
        | scan r' =>
          obtain rfl := List.mem_singleton.1 hr
          exact hd.keeps.1 _ rfl
        | _ => cases hr
      have hscans := Hub.accounts_dispatchAll settings
        (h := t.hub.putSession (m.perform session).2.1) priv.scans howner
      simp only [Traffic.go, hsession]
      have priv' := priv.mono (deeds
        ++ t.hub.launched id (t.hub.act setting.scheme settings (.move id m)).1)
        fun _ hdeed => List.mem_append_left _ hdeed
      refine { priv' with
        sound := priv.sound.act setting.scheme settings (.move id m)
        talks := hset _ ⟨hd.keeps.2 _ hsees⟩
        scans := ?_ }
      simp only [Hub.act, hsession]
      exact hscans

/-- The scans after a listener is told of an event. -/
lemma accounts_tell {c : Curve} {h : Hub} (keyed : h.Keyed)
    (hscans : ∀ p ∈ h.scans, ScanAccounts c deeds p) (e : Event) (ear : Ear) :
    ∀ p ∈ (h.tell settings e ear).1.scans,
      ScanAccounts c (deeds ++ ear.launched h (h.tell settings e ear).1) p := by
  have hsame : ∀ h' : Hub, h'.scans = h.scans → ∀ launched,
      ∀ p ∈ h'.scans, ScanAccounts c (deeds ++ launched) p := fun h' heq launched p hp =>
    (hscans p (heq ▸ hp)).mono fun _ hdeed => List.mem_append_left _ hdeed
  cases ear with
  | session id =>
    cases hs : h.session? id with
    | none => exact hsame _ (by simp [Hub.tell, hs]) _
    | some s =>
      simp only [Hub.tell, hs, Hub.carryOut, Ear.launched]
      refine Hub.accounts_dispatchAll settings (h := h.putSession (s.onEvent e).1) hscans ?_
      intro r hr
      obtain ⟨effect, heffect, hscan⟩ := List.mem_filterMap.1 hr
      cases effect with
      | push line => cases hscan
      | scan r' =>
        obtain rfl := Option.some.inj hscan
        exact (Session.owner_of_mem_onEvent heffect).trans (keyed id s hs)
  | reorg id =>
    refine hsame _ ?_ _
    simp only [Hub.tell]
    split <;> rfl
  | observer => exact hsame _ rfl _

/-- A scan goes on: its pages are accounted for, and so is what it holds. -/
lemma accounts_scan {s : Scheme} (batchSize : Option Nat) {k : Nat}
    {run : ScanRun Double} (hrun : ScanAccounts s.curve deeds (k, run)) (input : ScanInput) :
    let deeds' := deeds ++ (input.found k
      ++ (pagesOf (run.step s batchSize input).2).map (.issued k))
    ScanAccounts s.curve deeds' (k, (run.step s batchSize input).1)
      ∧ ∀ p ∈ pagesOf (run.step s batchSize input).2, Accounts s.curve deeds' p := by
  intro deeds'
  obtain ⟨hdispatched, hheld⟩ := hrun
  have hrequest := (ScanRun.request_step s batchSize run input).1
  have hold : ∀ deed ∈ deeds, deed ∈ deeds' := fun _ hdeed => List.mem_append_left _ hdeed
  have hfinds : ∀ e, e ∈ published (run.step s batchSize input).2
      ∨ e ∈ (run.step s batchSize input).1.held s.curve → Finds s.curve deeds' k e := by
    intro e he
    rcases ScanRun.mem_held_step he with he | ⟨m, rfl, hentry⟩
    · exact (hheld e he).mono hold
    · have hfound : Deed.found k m ∈ (ScanInput.push m).found k := List.mem_cons_self
      exact ⟨m, List.mem_append_right _ (List.mem_append_left _ hfound), hentry⟩
  refine ⟨⟨?_, fun e he => hfinds e (Or.inr he)⟩, fun p hp => ?_⟩
  · rw [hrequest]
    exact hold _ hdispatched
  · obtain ⟨_, howner, hkey, _⟩ := ScanRun.of_mem_step hp
    refine ⟨k, run.request, ?_, howner.symm, hkey, ?_, fun e he => hfinds e (Or.inl ?_)⟩
    · rw [howner]
      exact hold _ hdispatched
    · exact List.mem_append_right _ (List.mem_append_right _ (List.mem_map.2 ⟨p, hp, rfl⟩))
    · exact List.mem_flatMap.2 ⟨p, hp, he⟩

/-- A client sends a line. -/
lemma Private.line {c : Curve} (priv : t.Private c deeds) (id : SessionId) (text : String) :
    Private c { t with talks := t.talks ++ [(id, handleLine setting text)] } deeds := by
  refine { priv with talks := List.forall_mem_append.2 ⟨priv.talks, fun talk htalk => ?_⟩ }
  obtain ⟨htalker, hdialogue⟩ := Prod.mk.inj (List.mem_singleton.1 htalk)
  rw [htalker, hdialogue]
  exact ownedBy_handleLine id setting text

/-- An event is published, and is to be told to those who are registered. -/
lemma Private.publish {c : Curve} (priv : t.Private c deeds) {i : Nat} {e : Event}
    (he : t.arisen[i]? = some e) :
    Private c
      { t with arisen := t.arisen.eraseIdx i, tellings := t.tellings ++ t.hub.ears.map (e, ·) }
      deeds := by
  have haccounts := priv.arisen e (List.mem_of_getElem? he)
  refine { priv with
    arisen := fun e' he' => priv.arisen e' (List.mem_of_mem_eraseIdx he')
    tellings := List.forall_mem_append.2 ⟨priv.tellings, fun x hx => ?_⟩ }
  obtain ⟨ear, _, rfl⟩ := List.mem_map.1 hx
  exact haccounts

/-- A listener is told of an event. -/
lemma Private.tell {c : Curve} (priv : t.Private c deeds) (i : Nat) (e : Event) (ear : Ear) :
    Private c { t with hub := (t.hub.tell settings e ear).1, tellings := t.tellings.eraseIdx i }
      (deeds ++ (ear.launched t.hub (t.hub.tell settings e ear).1
        ++ (t.hub.tell settings e ear).2.filterMap HubEffect.deed?)) := by
  have hscans := accounts_tell settings priv.sound.keyed priv.scans e ear
  rw [← List.append_assoc]
  have priv' := priv.mono (deeds ++ ear.launched t.hub (t.hub.tell settings e ear).1
    ++ (t.hub.tell settings e ear).2.filterMap HubEffect.deed?)
    fun _ hdeed => List.mem_append_left _ (List.mem_append_left _ hdeed)
  exact { priv' with
    sound := priv.sound.of_keeps (Hub.keeps_tell settings priv.sound.keyed e ear)
    tellings := fun x hx => priv'.tellings x (List.mem_of_mem_eraseIdx hx)
    scans := fun p hp => (hscans p hp).mono fun _ hdeed => List.mem_append_left _ hdeed }

/-- A scan goes on, and its pages are to be published. -/
lemma Private.scan {s : Scheme} (priv : t.Private s.curve deeds) {k : Nat}
    {run : ScanRun Double} (hrun : t.hub.scan? k = some run) (input : ScanInput) :
    let next := run.step s settings.batchSize input
    Private s.curve
      { t with hub := t.hub.putScan k next.1, arisen := t.arisen ++ (pagesOf next.2).map .scanPage }
      (deeds ++ (input.found k ++ (pagesOf next.2).map (.issued k))) := by
  intro next
  obtain ⟨hscan, hpages⟩ :=
    accounts_scan settings.batchSize (priv.scans _ (mem_of_lookup hrun)) input
  have priv' := priv.mono _ fun _ hdeed => List.mem_append_left
    (input.found k ++ (pagesOf next.2).map (.issued k)) hdeed
  refine { priv' with
    sound := priv.sound.putScan k _
    arisen := List.forall_mem_append.2 ⟨priv'.arisen, fun e he => ?_⟩
    scans := fun p hp => ?_ }
  · obtain ⟨p, hp, rfl⟩ := List.mem_map.1 he
    rintro p' h
    obtain rfl := Event.scanPage.inj h
    exact hpages p hp
  · obtain ⟨⟨k', run'⟩, hmem, rfl⟩ := List.mem_map.1 hp
    by_cases hk : k' = k
    · subst hk
      simpa using hscan
    · simpa [hk] using priv'.scans _ hmem

/-- **The invariant is kept** by whatever happens. -/
lemma Private.step (priv : t.Private setting.scheme.curve deeds) (o : Occasion) :
    (t.step settings setting o).1.Private setting.scheme.curve
      (deeds ++ (t.step settings setting o).2) := by
  have hsame : t.Private setting.scheme.curve (deeds ++ []) := by simpa using priv
  cases o with
  | connect peer linked =>
    simp only [Traffic.step, List.append_nil]
    exact priv.of_hub (priv.sound.openSession peer linked) rfl
  | line id text =>
    simp only [Traffic.step, List.append_nil]
    exact priv.line setting id text
  | go i answer =>
    simp only [Traffic.step]
    split
    · rename_i id d htalk
      exact priv.go settings setting i answer (priv.talks _ (List.mem_of_getElem? htalk))
    · exact hsame
  | close id =>
    simp only [Traffic.step, List.append_nil]
    exact priv.of_hub (priv.sound.closeSession id) (Hub.scans_closeSession _ _)
  | deafen id =>
    simp only [Traffic.step, List.append_nil]
    refine priv.of_hub (priv.sound.of_keeps (Hub.keeps_deafen priv.sound.keyed id)) ?_
    rw [Hub.deafen]
    split <;> rfl
  | observe =>
    simp only [Traffic.step, List.append_nil]
    exact priv.of_hub (priv.sound.act setting.scheme settings .observe) rfl
  | arise e =>
    simp only [Traffic.step, List.append_nil]
    refine { priv with arisen := List.forall_mem_append.2 ⟨priv.arisen, fun e' he' => ?_⟩ }
    rw [List.mem_singleton.1 he']
    exact fun p hp => absurd hp (e.2 p)
  | publish i =>
    simp only [Traffic.step]
    split
    · rename_i e he
      simpa using priv.publish he
    · exact hsame
  | tell i =>
    simp only [Traffic.step]
    split
    · exact priv.tell settings i _ _
    · exact hsame
  | scan k input =>
    simp only [Traffic.step]
    split
    · rename_i run hrun
      exact priv.scan settings hrun input
    · exact hsame

/-- **The invariant holds** throughout, from the beginning on. -/
lemma Private.run (priv : t.Private setting.scheme.curve deeds) (occasions : List Occasion) :
    (t.run settings setting occasions).1.Private setting.scheme.curve
      (deeds ++ (t.run settings setting occasions).2) := by
  induction occasions generalizing t deeds with
  | nil => simpa [Traffic.run] using priv
  | cons o rest ih =>
    have hrest := ih (priv.step settings setting o)
    rw [List.append_assoc] at hrest
    exact hrest

lemma private_empty (c : Curve) : ({} : Traffic).Private c [] where
  sound := Hub.sound_empty
  talks _ h := by cases h
  arisen _ h := by cases h
  tellings _ h := by cases h
  scans _ h := by cases h

end Traffic

/-! ### What clients are told -/

/-- A notification tells its method: none of another method is one about an address. -/
lemma Notification.line_ne {method : String} {params params' : Json}
    (hmethod : method = headersMethod ∨ method = scriptHashMethod) :
    Notification.line { method, params }
      ≠ Notification.line { method := silentPaymentsMethod, params := params' } := by
  intro h
  have hchars := String.ofList_injective h
  rcases hmethod with rfl | rfl <;>
    simp [Notification.toRecord, Json.print, Json.printFields, Json.printString, frameVersion,
      headersMethod, scriptHashMethod, silentPaymentsMethod, Json.printChar] at hchars

/-- What a session queues because of a page tells just this page. -/
lemma Session.line_of_page {s : Session} {p : ScanPage Double} {line : String}
    (h : .push line ∈ (s.onEvent (.scanPage p)).2) :
    p.owner = s.id ∧ s.isLive p.subscription.address = true
      ∧ line = Notification.line { method := silentPaymentsMethod, params := pageParams p } := by
  simp only [onEvent, onPage, notify] at h
  split at h
  · rename_i hown
    split at h
    · exact ⟨hown.1, hown.2, SessionEffect.push.inj (List.mem_singleton.1 h)⟩
    · cases h
  · cases h

/-- **What a session queues about an address** is a page of its own that is still wanted. -/
lemma Session.push_of_onEvent {s : Session} {e : Event} {params : Json}
    (h : .push (Notification.line { method := silentPaymentsMethod, params }) ∈ (s.onEvent e).2) :
    ∃ p, e = .scanPage p ∧ p.owner = s.id ∧ s.isLive p.subscription.address = true
      ∧ Notification.line { method := silentPaymentsMethod, params }
          = Notification.line { method := silentPaymentsMethod, params := pageParams p } := by
  cases e with
  | newTip tip =>
    simp only [onEvent, notify] at h
    split at h <;> [split at h; skip] <;> simp at h
    exact absurd h.symm (Notification.line_ne (Or.inl rfl))
  | scriptHashStatus hash status =>
    simp only [onEvent, notify] at h
    split at h <;> [split at h; skip] <;> simp at h
    exact absurd h.symm (Notification.line_ne (Or.inr rfl))
  | scanPage p => exact ⟨p, rfl, line_of_page h⟩
  | blocksIndexed lo hi n =>
    obtain ⟨sub, _, hsub⟩ := List.mem_map.1 h
    cases hsub
  | mempoolAdded txids =>
    obtain ⟨⟨key, sub⟩, _, hsub⟩ := List.mem_map.1 h
    cases hsub
  | mempoolRemoved txids => cases h
  | reorg start => cases h

/-- **A page of another** changes nothing in a session and queues nothing. -/
lemma Hub.tell_of_other {settings : ScanSettings} {h : Hub} (keyed : h.Keyed)
    {p : ScanPage Double} {id : SessionId} (howner : p.owner ≠ id) :
    (h.tell settings (.scanPage p) (.session id)).2 = []
      ∧ ∀ i, (h.tell settings (.scanPage p) (.session id)).1.session? i = h.session? i := by
  have hother : ∀ s : Session, h.session? id = some s → s.onEvent (.scanPage p) = (s, []) := by
    intro s hs
    have hid : p.owner ≠ s.id := (keyed id s hs).symm ▸ howner
    simp [Session.onEvent, Session.onPage, hid]
  refine ⟨?_, fun i => ?_⟩
  · cases hs : h.session? id with
    | none => simp [tell, hs]
    | some s => simp [tell, hs, hother s hs, carryOut, dispatchAll]
  · rw [session?_tell settings keyed]
    cases hs : h.session? i with
    | none => rfl
    | some s =>
      by_cases hi : id = i
      · subst hi
        simp [heard, hother s hs]
      · simp [heard, hi]

/-- What is queued for a client by a telling comes from its session. -/
lemma Hub.push_of_tell {settings : ScanSettings} {h : Hub} {e cause : Event} {ear : Ear}
    {id : SessionId} {line : String} (hpush : .push id cause line ∈ (h.tell settings e ear).2) :
    ear = .session id ∧ cause = e ∧ ∃ s, h.session? id = some s ∧ .push line ∈ (s.onEvent e).2 := by
  cases ear with
  | session i =>
    rw [tell] at hpush
    split at hpush
    · rename_i s hs
      rcases List.mem_append.1 hpush with hpush | hpush
      · obtain ⟨effect, heffect, heq⟩ := List.mem_filterMap.1 hpush
        cases effect with
        | scan r => cases heq
        | push line' =>
          obtain ⟨rfl, rfl, rfl⟩ := HubEffect.push.inj (Option.some.inj heq)
          exact ⟨rfl, rfl, s, hs, heffect⟩
      · obtain ⟨k, hk⟩ := mem_effects_dispatchAll settings hpush
        cases hk
    · cases hpush
  | reorg i =>
    rw [tell] at hpush
    split at hpush <;> cases hpush
  | observer => cases List.mem_singleton.1 hpush

namespace Traffic

variable (settings : ScanSettings) (setting : ServiceSetting)

/-- What is launched queues no line. -/
lemma not_pushed_launched {i id : SessionId} {h h' : Hub} {cause : Event} {line : String} :
    .pushed id cause line ∉ h.launched i h' := by
  intro hmem
  obtain ⟨p, _, hp⟩ := List.mem_map.1 hmem
  cases hp

/-- A dialogue queues no line because of an event. -/
lemma not_pushed_go {t : Traffic} {i : Nat} {j id : SessionId} {answer : (q : Question) → q.Reply}
    {d : Dialogue (Option String)} {cause : Event} {line : String} :
    .pushed id cause line ∉ (t.go settings setting i j answer d).2 := by
  intro hmem
  cases d with
  | done reply =>
    obtain ⟨text, _, htext⟩ := List.mem_map.1 hmem
    cases htext
  | ask q next => cases hmem
  | move m next =>
    simp only [Traffic.go] at hmem
    split at hmem
    · exact not_pushed_launched hmem
    · cases hmem

/-- A line that is queued when a listener is told of an event is queued by a session, because of
that event. -/
lemma pushed_of_tell {h : Hub} {e cause : Event} {ear : Ear} {id : SessionId} {line : String}
    (hpushed : .pushed id cause line ∈ ear.launched h (h.tell settings e ear).1
      ++ (h.tell settings e ear).2.filterMap HubEffect.deed?) :
    ear = .session id ∧ cause = e ∧ ∃ s, h.session? id = some s ∧ .push line ∈ (s.onEvent e).2 := by
  rcases List.mem_append.1 hpushed with hmem | hmem
  · cases ear with
    | session j => exact absurd hmem not_pushed_launched
    | _ => cases hmem
  · obtain ⟨effect, heffect, hdeed⟩ := List.mem_filterMap.1 hmem
    cases effect with
    | push i' cause' line' =>
      obtain ⟨rfl, rfl, rfl⟩ := Deed.pushed.inj (Option.some.inj hdeed)
      exact Hub.push_of_tell heffect
    | _ => cases hdeed

/-- A line is queued because of an event only where a session is told of it. -/
lemma push_of_step {t : Traffic} {o : Occasion} {id : SessionId} {cause : Event} {line : String}
    (hpushed : .pushed id cause line ∈ (t.step settings setting o).2) :
    (cause, .session id) ∈ t.tellings
      ∧ ∃ s, t.hub.session? id = some s ∧ .push line ∈ (s.onEvent cause).2 := by
  cases o with
  | go i answer =>
    simp only [step] at hpushed
    split at hpushed
    · exact absurd hpushed (not_pushed_go settings setting)
    · cases hpushed
  | publish i =>
    simp only [step] at hpushed
    split at hpushed <;> cases hpushed
  | tell i =>
    simp only [step] at hpushed
    split at hpushed
    · rename_i e ear htelling
      obtain ⟨rfl, rfl, hs⟩ := pushed_of_tell settings hpushed
      exact ⟨List.mem_of_getElem? htelling, hs⟩
    · cases hpushed
  | scan k input =>
    simp only [step] at hpushed
    split at hpushed
    · rcases List.mem_append.1 hpushed with hmem | hmem
      · cases input <;> simp [ScanInput.found] at hmem
      · obtain ⟨p, _, hp⟩ := List.mem_map.1 hmem
        cases hp
    · cases hpushed
  | _ => cases hpushed

/-- **No client learns of the payments of another.** Whatever has happened: if a notification about
an address is queued for a client next, it is a page that was brought up by a scan which this
client's own session has dispatched; it belongs to the request of this scan, its entries were found
by this scan, and the session watches the address. And a session that is told of a page of another
changes nothing and queues nothing. -/
theorem pushed_page_own (occasions : List Occasion) (o : Occasion) :
    let t := (({} : Traffic).run settings setting occasions).1
    let deeds := (({} : Traffic).run settings setting occasions).2
    (∀ id cause params, .pushed id cause
          (Notification.line { method := silentPaymentsMethod, params })
        ∈ (t.step settings setting o).2 →
      ∃ p k r s, cause = .scanPage p
        ∧ Notification.line { method := silentPaymentsMethod, params }
            = Notification.line { method := silentPaymentsMethod, params := Session.pageParams p }
        ∧ p.owner = id ∧ .dispatched id k r ∈ deeds ∧ r.owner = id ∧ p.subscription = r.key
        ∧ .issued k p ∈ deeds
        ∧ (∀ e ∈ p.history, ∃ m, .found k m ∈ deeds ∧ toEntry setting.scheme.curve m = some e)
        ∧ t.hub.session? id = some s ∧ s.registry.watches p.subscription.address = true)
      ∧ ∀ p id, p.owner ≠ id → (t.hub.tell settings (.scanPage p) (.session id)).2 = []
        ∧ ∀ i, (t.hub.tell settings (.scanPage p) (.session id)).1.session? i
          = t.hub.session? i := by
  intro t deeds
  have priv : t.Private setting.scheme.curve deeds :=
    (private_empty _).run settings setting occasions
  refine ⟨fun id cause params hpushed => ?_, fun p id howner => ?_⟩
  · obtain ⟨htelling, s, hs, hpush⟩ := push_of_step settings setting hpushed
    obtain ⟨p, rfl, howner, hlive, hline⟩ := Session.push_of_onEvent hpush
    obtain ⟨k, r, hdispatched, hr, hkey, hissued, hfinds⟩ := priv.tellings _ htelling p rfl
    have hid : p.owner = id := howner.trans (priv.sound.keyed id s hs)
    rw [hid] at hdispatched hr
    exact ⟨p, k, r, s, rfl, hline, hid, hdispatched, hr, hkey, hissued, hfinds, hs,
      (Bool.and_eq_true_iff.1 hlive).2⟩
  · exact Hub.tell_of_other priv.sound.keyed howner

/-- Whether a page was queued for the first client. -/
def isPagePush : Deed → Bool
  | .pushed 0 (.scanPage _) _ => true
  | _ => false

/-- A client settles on a version and watches an address; a row is found, and a page published. -/
def sampleOccasions : List Occasion :=
  [.connect none false, .line 0 "\x7b\"method\":\"server.version\"\x7d"]
    ++ List.replicate 3 (.go 0 (silentOutside []))
    ++ [.line 0 ("\x7b\"method\":\"blockchain.silentpayments.subscribe\",\"params\":["
      ++ "\"0000000000000000000000000000000000000000000000000000000000000001\","
      ++ "\"0279be667ef9dcbbac55a06295ce870b07029bfcdb2dce28d959f2815b16f81798\"]\x7d")]
    ++ List.replicate 5 (.go 0 (silentOutside []))
    ++ [.scan 0 (.begin true), .scan 0 (.push (sampleRow 5)), .scan 0 (.count 1 2),
      .scan 0 (.tick true), .publish 0]

/-- When the session is told then, the client is told of the page, which is one of a scan of its
own. -/
theorem page_of_own_scan_pushed :
    ∃ p k r,
      .pushed 0 (.scanPage p)
          (Notification.line { method := silentPaymentsMethod, params := Session.pageParams p })
        ∈ ((({} : Traffic).run {} { scheme := plainScheme } sampleOccasions).1.step {}
            { scheme := plainScheme } (.tell 0)).2
      ∧ .dispatched 0 k r ∈ (({} : Traffic).run {} { scheme := plainScheme } sampleOccasions).2
      ∧ p.subscription = r.key := by
  have hany : ((({} : Traffic).run {} { scheme := plainScheme } sampleOccasions).1.step {}
      { scheme := plainScheme } (.tell 0)).2.any isPagePush = true := by decide +kernel
  obtain ⟨deed, hdeed, hpage⟩ := List.any_eq_true.1 hany
  unfold isPagePush at hpage
  split at hpage
  · rename_i p line
    obtain ⟨_, s, _, hpush⟩ := push_of_step {} { scheme := plainScheme } hdeed
    obtain ⟨_, _, rfl⟩ := Session.line_of_page hpush
    obtain ⟨p', k, r, _, hcause, _, _, hdispatched, _, hkey, _⟩ :=
      (pushed_page_own {} { scheme := plainScheme } sampleOccasions (.tell 0)).1 0 _ _ hdeed
    obtain rfl := Event.scanPage.inj hcause
    exact ⟨p, k, r, hdeed, hdispatched, hkey⟩
  · cases hpage

end Traffic
end SilentScan
