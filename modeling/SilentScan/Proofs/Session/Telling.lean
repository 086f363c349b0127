/-
What events do to the sessions of a hub.

An event is told to the listeners one after another, and the pages of a scan are events again. So
all that happens to the sessions is made up of single tellings, and what holds of one telling and
of one thing after another holds of everything. The mark of a subscription is raised by the very
entries that go out to its client, as long as no blocks are disconnected.

* `Hub.Keyed`, `session?_putSession`, `session?_tell`: the sessions after an event;
* `delivered`: the entries that go out to the client of a session for an address;
* `Hub.Keeps`, `Hub.Passes`: what a course of events leaves, and how it moves the marks;
* `passes_tell`, `passes_publish`, `passes_scanEffects`: courses without disconnected blocks;
* `mark?_publish_reorg`: the marks after blocks are disconnected;
* `requests_publish_blocks`: the scans that new blocks start.
-/
import SilentScan.Proofs.Session.Marks
import SilentScan.Session.Hub

namespace SilentScan

/-- A scan of a subscription over some blocks. -/
def Subscription.scanOver (sub : Subscription) (owner : SessionId) (fromHeight toHeight : Int) :
    ScanRequest where
  owner := owner
  address := sub.address
  labels := sub.labels
  startHeight := some fromHeight
  endHeight := some toHeight

/-- The scans of a session for new blocks: of the addresses whose mark is below the blocks. -/
def Session.due (s : Session) (fromHeight toHeight : Int) : List ScanRequest :=
  ((s.registry.subscriptions.map (·.2)).filter (·.highest < fromHeight)).map
    (·.scanOver s.id fromHeight toHeight)

/-! ### Sessions and scans of a hub -/

namespace Hub

/-- Those who are registered, in order. -/
def ears (h : Hub) : List Ear :=
  h.bus.recipients.map (·.2)

/-- The mark of a session for an address that it watches. -/
def mark? (h : Hub) (id : SessionId) (key : String) : Option Int :=
  (h.session? id).bind (·.mark? key)

/-- The requests of all scans, in the order in which they were started. -/
def requests (h : Hub) : List ScanRequest :=
  h.scans.map (·.2.request)

/-- That every session is found under its own id. -/
def Keyed (h : Hub) : Prop :=
  ∀ id s, h.session? id = some s → s.id = id

lemma session?_putSession (h : Hub) (s : Session) (id : SessionId) :
    (h.putSession s).session? id = (h.session? id).map fun t => if id = s.id then s else t :=
  lookup_map_snd (fun id t => if id = s.id then s else t) h.sessions id

variable (settings : ScanSettings)

@[simp] lemma bus_dispatchAll (h : Hub) (rs : List ScanRequest) :
    (dispatchAll settings h rs).1.bus = h.bus := by
  induction rs generalizing h with
  | nil => rfl
  | cons r rs ih => exact ih _

@[simp] lemma sessions_dispatchAll (h : Hub) (rs : List ScanRequest) :
    (dispatchAll settings h rs).1.sessions = h.sessions := by
  induction rs generalizing h with
  | nil => rfl
  | cons r rs ih => exact ih _

lemma session?_dispatchAll (h : Hub) (rs : List ScanRequest) (id : SessionId) :
    (dispatchAll settings h rs).1.session? id = h.session? id := by
  rw [session?, sessions_dispatchAll]
  rfl

/-- A scan that is started stands behind all others. -/
lemma requests_dispatchAll (h : Hub) (rs : List ScanRequest) :
    (dispatchAll settings h rs).1.requests = h.requests ++ rs := by
  induction rs generalizing h with
  | nil => exact (List.append_nil _).symm
  | cons r rs ih =>
    have hone : (dispatch settings h r).1.requests = h.requests ++ [r] := by
      simp [requests, dispatch, ScanRun.new]
    rw [dispatchAll, ih, hone, List.append_assoc]
    rfl

/-- The scans after some are started are those before and scans that have not begun. -/
lemma mem_scans_dispatchAll {h : Hub} {rs : List ScanRequest} {p : Nat × ScanRun Double}
    (hp : p ∈ (dispatchAll settings h rs).1.scans) :
    p ∈ h.scans ∨ ∃ r, p.2 = .new settings r := by
  induction rs generalizing h with
  | nil => exact Or.inl hp
  | cons r rs ih =>
    rcases ih hp with hp | hp
    · rcases List.mem_append.1 hp with hp | hp
      · exact Or.inl hp
      · rw [List.mem_singleton.1 hp]
        exact Or.inr ⟨r, rfl⟩
    · exact Or.inr hp

/-- Starting scans has no effect but that they wait to begin. -/
lemma mem_effects_dispatchAll {h : Hub} {rs : List ScanRequest} {effect : HubEffect}
    (he : effect ∈ (dispatchAll settings h rs).2) : ∃ k, effect = .started k := by
  induction rs generalizing h with
  | nil => simp [dispatchAll] at he
  | cons r rs ih =>
    rcases List.mem_append.1 he with he | he
    · exact ⟨h.nextScan, List.mem_singleton.1 he⟩
    · exact ih he

end Hub

/-! ### Entries that go out -/

/-- The entries for an address that go out to the client of a session by an effect. -/
def HubEffect.entries (id : SessionId) (key : String) : HubEffect → List TxEntry
  | .push i (.scanPage p) _ => if i = id ∧ p.subscription.address = key then p.history else []
  | _ => []

/-- The entries for an address that go out to the client of a session. -/
def delivered (id : SessionId) (key : String) (effects : List HubEffect) : List TxEntry :=
  effects.flatMap (·.entries id key)

@[simp] lemma delivered_nil (id : SessionId) (key : String) : delivered id key [] = [] := rfl

@[simp] lemma delivered_append (id : SessionId) (key : String) (a b : List HubEffect) :
    delivered id key (a ++ b) = delivered id key a ++ delivered id key b :=
  List.flatMap_append

lemma delivered_eq_nil {id : SessionId} {key : String} {effects : List HubEffect}
    (h : ∀ effect ∈ effects, effect.entries id key = []) : delivered id key effects = [] :=
  List.flatMap_eq_nil_iff.2 h

lemma delivered_dispatchAll (settings : ScanSettings) (h : Hub) (rs : List ScanRequest)
    (id : SessionId) (key : String) : delivered id key (Hub.dispatchAll settings h rs).2 = [] := by
  refine delivered_eq_nil fun effect he => ?_
  obtain ⟨k, rfl⟩ := Hub.mem_effects_dispatchAll settings he
  rfl

/-- What goes out because of an event to a session is what the session passes on. -/
lemma delivered_carryOut (settings : ScanSettings) (h : Hub) (s : Session) (i : SessionId)
    (e : Event) (id : SessionId) (key : String) :
    delivered id key (Hub.carryOut settings h i e (s.onEvent e).2).2
      = if i = id then s.passes key e else [] := by
  rw [Hub.carryOut, delivered_append, delivered_dispatchAll, List.append_nil]
  cases e with
  | scanPage p =>
    simp only [Session.onEvent, Session.onPage, Session.passes]
    split
    · rename_i hown
      have hreceiving : s.receiving = true := by
        have hlive := hown.2
        simp only [Session.isLive, Session.isConnected, Bool.and_eq_true] at hlive
        exact hlive.1.2
      simp only [Session.notify, hreceiving, if_true, List.filterMap_cons, List.filterMap_nil,
        delivered, List.flatMap_cons, List.flatMap_nil, HubEffect.entries, List.append_nil]
      by_cases hi : i = id
      · simp [hi, hown]
      · simp [hi]
    · rename_i hown
      simp [hown]
  | _ =>
    refine (delivered_eq_nil fun effect he => ?_).trans (by simp [Session.passes])
    obtain ⟨x, _, hx⟩ := List.mem_filterMap.1 he
    cases x with
    | push line =>
      obtain rfl : HubEffect.push i _ line = effect := by simpa using hx
      rfl
    | scan r => simp at hx

/-! ### One thing after another -/

namespace Hub

/-- What events leave: the bus, the sessions as the same ones, and the scans, to which others may
be added that have not begun. -/
structure Keeps (h h' : Hub) : Prop where
  bus : h'.bus = h.bus
  session : ∀ id s', h'.session? id = some s' → ∃ s, h.session? id = some s ∧ s.Keeps s'
  scans : ∀ p ∈ h'.scans, p ∈ h.scans ∨ ∃ settings r, p.2 = .new settings r

/-- A course of events, with its effects, in which every mark is raised by just the entries that
go out. -/
structure Passes (h : Hub) (effects : List HubEffect) (h' : Hub) : Prop extends Keeps h h' where
  mark : h.Keyed → ∀ id key,
    h'.mark? id key = (h.mark? id key).map (raised · (delivered id key effects))

lemma Keeps.refl (h : Hub) : h.Keeps h :=
  ⟨rfl, fun _ s hs => ⟨s, hs, Session.Keeps.refl s⟩, fun _ hp => Or.inl hp⟩

lemma Keeps.trans {h h' h'' : Hub} (first : h.Keeps h') (second : h'.Keeps h'') : h.Keeps h'' where
  bus := second.bus.trans first.bus
  session id s'' hs'' := by
    obtain ⟨s', hs', hkeeps'⟩ := second.session id s'' hs''
    obtain ⟨s, hs, hkeeps⟩ := first.session id s' hs'
    exact ⟨s, hs, hkeeps.trans hkeeps'⟩
  scans p hp := by
    rcases second.scans p hp with hp | hp
    · exact first.scans p hp
    · exact Or.inr hp

lemma Keeps.keyed {h h' : Hub} (keeps : h.Keeps h') (keyed : h.Keyed) : h'.Keyed := by
  intro id s' hs'
  obtain ⟨s, hs, hsame⟩ := keeps.session id s' hs'
  exact hsame.id.trans (keyed id s hs)

lemma Passes.refl (h : Hub) : h.Passes [] h where
  toKeeps := Keeps.refl h
  mark _ id key := by simp

/-- One course after another. -/
lemma Passes.trans {h h' h'' : Hub} {a b : List HubEffect} (first : h.Passes a h')
    (second : h'.Passes b h'') : h.Passes (a ++ b) h'' where
  toKeeps := first.toKeeps.trans second.toKeeps
  mark keyed id key := by
    rw [second.mark (first.toKeeps.keyed keyed), first.mark keyed, Option.map_map,
      delivered_append]
    congr 1
    funext m
    exact (raised_append m _ _).symm

/-- Nothing that goes out to no client matters. -/
lemma Passes.of_mark_eq {h h' : Hub} {effects : List HubEffect} (keeps : h.Keeps h')
    (hmark : ∀ id key, h'.mark? id key = h.mark? id key)
    (hnone : ∀ id key, delivered id key effects = []) : h.Passes effects h' where
  toKeeps := keeps
  mark _ id key := by simp [hmark, hnone]

/-! ### Events that are told -/

variable (settings : ScanSettings)

/-- What a listener of a hub makes of the session with an id. -/
def heard (e : Event) (id : SessionId) (ear : Ear) (s : Session) : Session :=
  match ear with
  | .session i => if i = id then (s.onEvent e).1 else s
  | .reorg i => if i = id then s.onReorg e else s
  | .observer => s

lemma keeps_heard (e : Event) (id : SessionId) (ear : Ear) (s : Session) :
    s.Keeps (heard e id ear s) := by
  cases ear with
  | session i =>
    rw [heard]
    split
    · exact s.keeps_onEvent e
    · exact Session.Keeps.refl s
  | reorg i =>
    rw [heard]
    split
    · exact s.keeps_onReorg e
    · exact Session.Keeps.refl s
  | observer => exact Session.Keeps.refl s

lemma map_heard_of_ne (e : Event) {id : SessionId} {ear : Ear} (hfirst : ear ≠ .session id)
    (hsecond : ear ≠ .reorg id) (o : Option Session) : o.map (heard e id ear) = o := by
  cases o with
  | none => rfl
  | some s => cases ear <;> simp_all [heard]

/-- Putting the changed session in its place. -/
lemma session?_putSession_of_keeps {h : Hub} (keyed : h.Keyed) {i : SessionId} {s s' : Session}
    (hs : h.session? i = some s) (hkeeps : s.Keeps s') (id : SessionId) :
    (h.putSession s').session? id = if i = id then some s' else h.session? id := by
  have hi : s'.id = i := hkeeps.id.trans (keyed i s hs)
  rw [session?_putSession, hi]
  by_cases h : i = id
  · subst h
    simp [hs]
  · simp [h, Ne.symm h]

/-- **The sessions after a telling**: each is what the listener makes of it. -/
lemma session?_tell {h : Hub} (keyed : h.Keyed) (e : Event) (ear : Ear) (id : SessionId) :
    (tell settings h e ear).1.session? id = (h.session? id).map (heard e id ear) := by
  cases ear with
  | session i =>
    by_cases hi : i = id
    · subst hi
      cases hs : h.session? i with
      | none => simp [tell, hs]
      | some s =>
        simp only [tell, hs, carryOut, session?_dispatchAll]
        rw [session?_putSession_of_keeps keyed hs (s.keeps_onEvent e)]
        simp [heard]
    · rw [map_heard_of_ne e (by simpa using hi) (by simp)]
      cases hs : h.session? i with
      | none => simp [tell, hs]
      | some s =>
        simp only [tell, hs, carryOut, session?_dispatchAll]
        rw [session?_putSession_of_keeps keyed hs (s.keeps_onEvent e), if_neg hi]
  | reorg i =>
    by_cases hi : i = id
    · subst hi
      cases hs : h.session? i with
      | none => simp [tell, hs]
      | some s =>
        simp only [tell, hs]
        rw [session?_putSession_of_keeps keyed hs (s.keeps_onReorg e)]
        simp [heard]
    · rw [map_heard_of_ne e (by simp) (by simpa using hi)]
      cases hs : h.session? i with
      | none => simp [tell, hs]
      | some s =>
        simp only [tell, hs]
        rw [session?_putSession_of_keeps keyed hs (s.keeps_onReorg e), if_neg hi]
  | observer => rw [map_heard_of_ne e (by simp) (by simp), tell]

lemma keeps_tell {h : Hub} (keyed : h.Keyed) (e : Event) (ear : Ear) :
    h.Keeps (tell settings h e ear).1 where
  bus := by
    cases ear with
    | observer => rfl
    | _ =>
      rw [tell]
      split <;> simp [carryOut, putSession]
  session id s' hs' := by
    rw [session?_tell settings keyed] at hs'
    obtain ⟨s, hs, rfl⟩ := Option.map_eq_some_iff.1 hs'
    exact ⟨s, hs, keeps_heard e id ear s⟩
  scans p hp := by
    cases ear with
    | session i =>
      rw [tell] at hp
      split at hp
      · rcases mem_scans_dispatchAll settings hp with hp | hp
        · exact Or.inl hp
        · exact Or.inr ⟨settings, hp⟩
      · exact Or.inl hp
    | reorg i =>
      rw [tell] at hp
      split at hp <;> exact Or.inl hp
    | observer => exact Or.inl hp

/-- What goes out to a client by a telling. -/
lemma delivered_tell (h : Hub) (e : Event) (ear : Ear) (id : SessionId) (key : String) :
    delivered id key (tell settings h e ear).2
      = if ear = .session id then (h.session? id).elim [] (·.passes key e) else [] := by
  cases ear with
  | session i =>
    cases hs : h.session? i with
    | none =>
      simp only [tell, hs, delivered_nil, Ear.session.injEq]
      split
      · rename_i hi
        rw [← hi, hs]
        rfl
      · rfl
    | some s =>
      simp only [tell, hs, delivered_carryOut, Ear.session.injEq]
      split
      · rename_i hi
        rw [← hi, hs]
        rfl
      · rfl
  | reorg i =>
    rw [tell]
    split <;> rfl
  | observer => rfl

/-- An event that is told raises the marks by what goes out, unless blocks are disconnected. -/
lemma passes_tell {h : Hub} (keyed : h.Keyed) {e : Event}
    (hnot : ∀ startHeight, e ≠ .reorg startHeight) (ear : Ear) :
    h.Passes (tell settings h e ear).2 (tell settings h e ear).1 where
  toKeeps := keeps_tell settings keyed e ear
  mark _ id key := by
    rw [mark?, session?_tell settings keyed, delivered_tell, mark?]
    cases hs : h.session? id with
    | none => simp
    | some s =>
      cases ear with
      | session i =>
        by_cases hi : i = id
        · simp [heard, hi, Session.mark?_onEvent]
        · simp [heard, hi]
      | reorg i => simp [heard, Session.onReorg_of_ne s hnot]
      | observer => simp [heard]

lemma keeps_tellAll {h : Hub} (keyed : h.Keyed) (e : Event) (ears : List Ear) :
    h.Keeps (tellAll settings e h ears).1 := by
  induction ears generalizing h with
  | nil => exact Keeps.refl h
  | cons ear ears ih =>
    have hfirst := keeps_tell settings keyed e ear
    exact hfirst.trans (ih (hfirst.keyed keyed))

lemma passes_tellAll {h : Hub} (keyed : h.Keyed) {e : Event}
    (hnot : ∀ startHeight, e ≠ .reorg startHeight) (ears : List Ear) :
    h.Passes (tellAll settings e h ears).2 (tellAll settings e h ears).1 := by
  induction ears generalizing h with
  | nil => exact Passes.refl h
  | cons ear ears ih =>
    have hfirst := passes_tell settings keyed hnot ear
    exact hfirst.trans (ih (hfirst.toKeeps.keyed keyed))

/-- **An event that is published** raises the marks by what goes out, unless blocks are
disconnected. -/
lemma passes_publish {h : Hub} (keyed : h.Keyed) {e : Event}
    (hnot : ∀ startHeight, e ≠ .reorg startHeight) :
    h.Passes (publish settings h e).2 (publish settings h e).1 :=
  passes_tellAll settings keyed hnot _

lemma keeps_publish {h : Hub} (keyed : h.Keyed) (e : Event) :
    h.Keeps (publish settings h e).1 :=
  keeps_tellAll settings keyed e _

/-- The effects of a scan raise the marks by what goes out. -/
lemma passes_scanEffects (k : Nat) {h : Hub} (keyed : h.Keyed)
    (effects : List (ScanEffect Double)) :
    h.Passes (scanEffects settings k h effects).2 (scanEffects settings k h effects).1 := by
  induction effects generalizing h with
  | nil => exact Passes.refl h
  | cons effect effects ih =>
    cases effect with
    | page p =>
      have hnot : ∀ startHeight, Event.scanPage p ≠ .reorg startHeight := by simp
      have hfirst := passes_publish settings keyed hnot
      exact hfirst.trans (ih (hfirst.toKeeps.keyed keyed))
    | query q => exact Passes.trans (Passes.of_mark_eq (Keeps.refl h) (fun _ _ => rfl)
        (fun _ _ => rfl)) (ih keyed)
    | cancelStore => exact Passes.trans (Passes.of_mark_eq (Keeps.refl h) (fun _ _ => rfl)
        (fun _ _ => rfl)) (ih keyed)
    | record r => exact Passes.trans (Passes.of_mark_eq (Keeps.refl h) (fun _ _ => rfl)
        (fun _ _ => rfl)) (ih keyed)

/-! ### Blocks that are disconnected -/

lemma mark?_tell_reorg {h : Hub} (keyed : h.Keyed) (startHeight : Int) (ear : Ear)
    (id : SessionId) (key : String) :
    (tell settings h (.reorg startHeight) ear).1.mark? id key
      = if ear = .reorg id then (h.mark? id key).map fun _ => startHeight - 1
        else h.mark? id key := by
  rw [mark?, session?_tell settings keyed, mark?]
  cases hs : h.session? id with
  | none => simp
  | some s =>
    cases ear with
    | session i => simp [heard, Session.onEvent]
    | reorg i =>
      by_cases hi : i = id
      · simp [heard, hi, Session.mark?_onReorg]
      · simp [heard, hi]
    | observer => simp [heard]

lemma mark?_tellAll_reorg {h : Hub} (keyed : h.Keyed) (startHeight : Int) (ears : List Ear)
    (id : SessionId) (key : String) :
    (tellAll settings (.reorg startHeight) h ears).1.mark? id key
      = if .reorg id ∈ ears then (h.mark? id key).map fun _ => startHeight - 1
        else h.mark? id key := by
  induction ears generalizing h with
  | nil => simp [tellAll]
  | cons ear ears ih =>
    rw [tellAll, ih ((keeps_tell settings keyed _ ear).keyed keyed),
      mark?_tell_reorg settings keyed]
    by_cases hear : ear = .reorg id
    · subst hear
      cases h.mark? id key <;> simp
    · simp [hear, Ne.symm hear]

/-- **The marks after blocks are disconnected**: below the first of them, for every session whose
second listener is registered. -/
lemma mark?_publish_reorg {h : Hub} (keyed : h.Keyed) (startHeight : Int) {id : SessionId}
    (hear : .reorg id ∈ h.ears) (key : String) :
    (publish settings h (.reorg startHeight)).1.mark? id key
      = (h.mark? id key).map fun _ => startHeight - 1 := by
  rw [publish, mark?_tellAll_reorg settings keyed]
  exact if_pos hear

/-! ### New blocks -/

/-- The scans that a listener starts for new blocks. -/
def dueFor (h : Hub) (fromHeight toHeight : Int) : Ear → List ScanRequest
  | .session i => (h.session? i).elim [] (·.due fromHeight toHeight)
  | _ => []

/-- New blocks leave the sessions. -/
lemma session?_tell_blocks {h : Hub} (keyed : h.Keyed) (lo hi : Int) (n : Nat) (ear : Ear)
    (id : SessionId) : (tell settings h (.blocksIndexed lo hi n) ear).1.session? id
      = h.session? id := by
  rw [session?_tell settings keyed]
  have hsame : heard (.blocksIndexed lo hi n) id ear = fun s => s := by
    funext s
    cases ear with
    | observer => rfl
    | _ =>
      rw [heard]
      split <;> rfl
  rw [hsame, Option.map_id']

lemma requests_rescan (s : Session) (lo hi : Int) (subs : List Subscription) :
    ((subs.map (s.rescan (some lo) (some hi))).filterMap fun
        | .scan r => some r
        | .push _ => none)
      = subs.map (·.scanOver s.id lo hi) := by
  induction subs with
  | nil => rfl
  | cons sub subs ih => exact congrArg _ ih

lemma requests_tell_blocks (h : Hub) (lo hi : Int) (n : Nat) (ear : Ear) :
    (tell settings h (.blocksIndexed lo hi n) ear).1.requests
      = h.requests ++ h.dueFor lo hi ear := by
  cases ear with
  | session i =>
    cases hs : h.session? i with
    | none => simp [tell, hs, dueFor]
    | some s =>
      simp only [tell, hs, carryOut, requests_dispatchAll, dueFor, Option.elim]
      exact congrArg (h.requests ++ ·) (requests_rescan s lo hi _)
  | reorg i =>
    rw [tell]
    split <;> simp [dueFor, putSession, requests]
  | observer => simp [tell, dueFor]

/-- **The scans that new blocks start**: those due for the sessions that hear of them. -/
lemma requests_publish_blocks {h : Hub} (keyed : h.Keyed) (lo hi : Int) (n : Nat) :
    (publish settings h (.blocksIndexed lo hi n)).1.requests
      = h.requests ++ h.ears.flatMap (h.dueFor lo hi) := by
  have key : ∀ (ears : List Ear) (h' : Hub), h'.Keyed → h'.session? = h.session? →
      (tellAll settings (.blocksIndexed lo hi n) h' ears).1.requests
        = h'.requests ++ ears.flatMap (h.dueFor lo hi) := by
    intro ears
    induction ears with
    | nil => exact fun h' _ _ => (List.append_nil _).symm
    | cons ear ears ih =>
      intro h' keyed' hsame
      have hdue : h'.dueFor lo hi ear = h.dueFor lo hi ear := by
        cases ear <;> simp [dueFor, hsame]
      rw [tellAll, ih _ ((keeps_tell settings keyed' _ ear).keyed keyed')
        ((funext fun id => session?_tell_blocks settings keyed' lo hi n ear id).trans hsame),
        requests_tell_blocks, hdue, List.append_assoc, List.flatMap_cons]
  exact key h.ears h keyed rfl

end Hub
end SilentScan
