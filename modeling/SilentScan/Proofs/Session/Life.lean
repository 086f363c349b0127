/-
The life of a hub.

Clients come, move and go, events are published, and scans go on, in any order. Throughout,
whoever is connected is registered on the bus with both its listeners, so that it hears of every
event; and new blocks are scanned for each of its subscriptions whose mark is below them.

* `HubInput`, `Hub.act`, `Hub.actAll`: what can happen to a hub;
* `Hub.Sound`, `Sound.act`, `Sound.actAll`: sessions and registrations belong together;
* `Hub.Holds`, `Sound.due_iff`: the scans that new blocks start for a subscription.
-/
import Mathlib.Data.List.Nodup
import SilentScan.Proofs.Session.Telling
import SilentScan.Protocol.Dialogue

namespace SilentScan

/-- What can happen to a hub. -/
inductive HubInput where
  | connect (peer : Option String) (linked : Bool)
  /-- A step of a dialogue with the client of a session. -/
  | move (id : SessionId) (m : Move)
  | close (id : SessionId)
  | deafen (id : SessionId)
  | observe
  | publish (e : Event)
  | scan (k : Nat) (input : (alive : Bool) → ScanInput)

namespace Hub

/-- Something happens to a hub. -/
def act (s : Scheme) (settings : ScanSettings) (h : Hub) : HubInput → Hub × List HubEffect
  | .connect peer linked => (h.openSession peer linked).2
  | .move id m =>
    match h.session? id with
    | some t =>
      let (_, t, requests) := m.perform t
      (h.putSession t).dispatchAll settings requests
    | none => (h, [])
  | .close id => h.closeSession id
  | .deafen id => (h.deafen id, [])
  | .observe => (h.observe, [])
  | .publish e => publish settings h e
  | .scan k input => h.scanStep s settings k input

/-- Things happen to a hub one after another. -/
def actAll (s : Scheme) (settings : ScanSettings) (h : Hub) (inputs : List HubInput) : Hub :=
  inputs.foldl (fun h input => (h.act s settings input).1) h

/-! ### Sessions and registrations -/

/-- That sessions and registrations belong together: a session that is connected is registered
with both its listeners, under ids that no one else has. -/
structure Sound (h : Hub) : Prop where
  keyed : h.Keyed
  tidy : ∀ id s, h.session? id = some s → s.registry.Tidy
  registered : ∀ id s, h.session? id = some s → s.connected = true →
    ∃ a b, s.listeners = [a, b] ∧ (a, .session id) ∈ h.bus.listeners
      ∧ (b, .reorg id) ∈ h.bus.listeners
  nodup : (h.bus.listeners.map (·.1)).Nodup
  below : ∀ l ∈ h.bus.listeners, l.1 < h.bus.nextId

lemma sound_empty : ({} : Hub).Sound where
  keyed id s hs := by simp [session?] at hs
  tidy id s hs := by simp [session?] at hs
  registered id s hs := by simp [session?] at hs
  nodup := List.nodup_nil
  below l hl := absurd hl List.not_mem_nil

lemma Sound.of_keeps {h h' : Hub} (sound : h.Sound) (keeps : h.Keeps h') : h'.Sound where
  keyed := keeps.keyed sound.keyed
  tidy id s' hs' := by
    obtain ⟨s, hs, hsame⟩ := keeps.session id s' hs'
    exact hsame.tidy (sound.tidy id s hs)
  registered id s' hs' hconnected := by
    obtain ⟨s, hs, hsame⟩ := keeps.session id s' hs'
    rw [keeps.bus, hsame.listeners]
    exact sound.registered id s hs (hsame.connected ▸ hconnected)
  nodup := keeps.bus ▸ sound.nodup
  below := keeps.bus ▸ sound.below

/-- Whoever is connected hears. -/
lemma Sound.hears {h : Hub} (sound : h.Sound) {id : SessionId} {s : Session}
    (hs : h.session? id = some s) (hconnected : s.connected = true) :
    .session id ∈ h.ears ∧ .reorg id ∈ h.ears := by
  obtain ⟨a, b, _, ha, hb⟩ := sound.registered id s hs hconnected
  exact ⟨List.mem_map.2 ⟨_, ha, rfl⟩, List.mem_map.2 ⟨_, hb, rfl⟩⟩

end Hub

/-- A step of a dialogue leaves the session the same one. -/
lemma Move.keeps_perform (m : Move) (s : Session) : s.Keeps (m.perform s).2.1 := by
  cases m with
  | watchAddress address rawLabels =>
    exact ⟨rfl, rfl, rfl, fun tidy => tidy.subscribe address rawLabels⟩
  | dropAddress key => exact ⟨rfl, rfl, rfl, fun tidy => tidy.unsubscribe key⟩
  | watchHash hash =>
    refine ⟨rfl, rfl, rfl, fun tidy => ?_⟩
    simp only [perform, Registry.subscribeHash]
    split
    · exact tidy
    · exact ⟨tidy.nodup, tidy.named⟩
  | watchHeaders => exact ⟨rfl, rfl, rfl, fun tidy => ⟨tidy.nodup, tidy.named⟩⟩
  | dropHash hash => exact ⟨rfl, rfl, rfl, fun tidy => ⟨tidy.nodup, tidy.named⟩⟩
  | look => exact Session.Keeps.refl s
  | settle version => exact ⟨rfl, rfl, rfl, fun tidy => tidy⟩
  | scan request => exact Session.Keeps.refl s

namespace Hub

variable (s : Scheme) (settings : ScanSettings)

lemma keeps_putSession {h : Hub} (keyed : h.Keyed) {i : SessionId} {t t' : Session}
    (ht : h.session? i = some t) (hkeeps : t.Keeps t') : h.Keeps (h.putSession t') where
  bus := rfl
  session id u hu := by
    rw [session?_putSession_of_keeps keyed ht hkeeps] at hu
    split at hu
    · rename_i hi
      obtain rfl : t' = u := Option.some.inj hu
      exact ⟨t, hi ▸ ht, hkeeps⟩
    · exact ⟨u, hu, Session.Keeps.refl u⟩
  scans _ hp := Or.inl hp

lemma keeps_dispatchAll (h : Hub) (rs : List ScanRequest) :
    h.Keeps (dispatchAll settings h rs).1 where
  bus := bus_dispatchAll settings h rs
  session id u hu := ⟨u, by rwa [session?_dispatchAll] at hu, Session.Keeps.refl u⟩
  scans _ hp := (mem_scans_dispatchAll settings hp).imp_right fun hnew => ⟨settings, hnew⟩

lemma keeps_move {h : Hub} (keyed : h.Keyed) (id : SessionId) (m : Move) :
    h.Keeps (h.act s settings (.move id m)).1 := by
  rw [act]
  split
  · rename_i t ht
    exact (keeps_putSession keyed ht (m.keeps_perform t)).trans (keeps_dispatchAll settings _ _)
  · exact Keeps.refl h

lemma keeps_deafen {h : Hub} (keyed : h.Keyed) (id : SessionId) : h.Keeps (h.deafen id) := by
  rw [deafen]
  split
  · rename_i t ht
    exact keeps_putSession keyed ht ⟨rfl, rfl, rfl, fun tidy => tidy⟩
  · exact Keeps.refl h

/-- A new registration is heard with the others, which stay as they are. -/
lemma nodup_register {bus : Bus Ear} (hnodup : (bus.listeners.map (·.1)).Nodup)
    (hbelow : ∀ l ∈ bus.listeners, l.1 < bus.nextId) (ear : Ear) :
    ((bus.register ear).2.listeners.map (·.1)).Nodup
      ∧ ∀ l ∈ (bus.register ear).2.listeners, l.1 < (bus.register ear).2.nextId := by
  simp only [Bus.register, List.map_append, List.map_cons, List.map_nil]
  constructor
  · refine List.nodup_append.2 ⟨hnodup, by simp, fun a ha b hb hab => ?_⟩
    obtain ⟨l, hl, hla⟩ := List.mem_map.1 ha
    have := hbelow l hl
    have := List.mem_singleton.1 hb
    omega
  · intro l hl
    rcases List.mem_append.1 hl with hl | hl
    · have := hbelow l hl
      omega
    · rw [List.mem_singleton.1 hl]
      exact Nat.lt_succ_self _

/-- The session of a client that comes. -/
def newcomer (h : Hub) (peer : Option String) (linked : Bool) : Session where
  id := h.nextSession
  peer := peer
  linked := linked
  listeners := [h.bus.nextId, h.bus.nextId + 1]

/-- The session that is found once another has come. -/
lemma session?_openSession {h : Hub} {peer : Option String} {linked : Bool} {id : SessionId}
    {t : Session} (ht : (h.openSession peer linked).2.1.session? id = some t) :
    h.session? id = some t ∨ (id = h.nextSession ∧ t = h.newcomer peer linked) := by
  have hlookup : (h.sessions ++ [(h.nextSession, h.newcomer peer linked)]).lookup id = some t := ht
  rw [List.lookup_append, Option.or_eq_some_iff] at hlookup
  refine hlookup.imp_right fun ⟨_, hnew⟩ => ?_
  by_cases hid : id = h.nextSession
  · subst hid
    exact ⟨rfl, by simpa using hnew.symm⟩
  · have hne : (id == h.nextSession) = false := by simpa using hid
    simp [List.lookup_cons, hne] at hnew

lemma Sound.openSession {h : Hub} (sound : h.Sound) (peer : Option String) (linked : Bool) :
    (h.openSession peer linked).2.1.Sound := by
  obtain ⟨hnodup, hbelow⟩ := nodup_register sound.nodup sound.below (.session h.nextSession)
  obtain ⟨hnodup, hbelow⟩ := nodup_register hnodup hbelow (.reorg h.nextSession)
  refine ⟨fun id t ht => ?_, fun id t ht => ?_, fun id t ht hconnected => ?_, hnodup, hbelow⟩
  · rcases session?_openSession ht with ht | ⟨rfl, rfl⟩
    · exact sound.keyed id t ht
    · rfl
  · rcases session?_openSession ht with ht | ⟨rfl, rfl⟩
    · exact sound.tidy id t ht
    · exact Registry.tidy_empty
  · rcases session?_openSession ht with ht | ⟨rfl, rfl⟩
    · obtain ⟨a, b, hids, ha, hb⟩ := sound.registered id t ht hconnected
      exact ⟨a, b, hids, List.mem_append_left _ (List.mem_append_left _ ha),
        List.mem_append_left _ (List.mem_append_left _ hb)⟩
    · exact ⟨_, _, rfl, List.mem_append_left _ (List.mem_append_right _ List.mem_cons_self),
        List.mem_append_right _ List.mem_cons_self⟩

/-- Removing registrations removes those with the ids given. -/
lemma mem_unregisterAll {bus : Bus Ear} {ids : List Nat} {l : Nat × Ear} :
    l ∈ (unregisterAll bus ids).listeners ↔ l ∈ bus.listeners ∧ l.1 ∉ ids := by
  induction ids generalizing bus with
  | nil => simp [unregisterAll]
  | cons id ids ih =>
    have hstep : unregisterAll bus (id :: ids) = unregisterAll (bus.unregister id).2 ids := rfl
    rw [hstep, ih]
    simp only [Bus.unregister, List.mem_filter, bne_iff_ne, ne_eq, List.mem_cons, not_or]
    exact and_assoc

lemma listeners_unregisterAll (bus : Bus Ear) (ids : List Nat) :
    (unregisterAll bus ids).listeners.Sublist bus.listeners
      ∧ (unregisterAll bus ids).nextId = bus.nextId := by
  induction ids generalizing bus with
  | nil => exact ⟨List.Sublist.refl _, rfl⟩
  | cons id ids ih =>
    obtain ⟨hsub, hnext⟩ := ih (bus.unregister id).2
    exact ⟨hsub.trans List.filter_sublist, hnext⟩

/-- An open session, closed: it is registered no more, and so are the ids it had. -/
lemma closeSession_eq {h : Hub} {i : SessionId} {t : Session} (ht : h.session? i = some t)
    (hconnected : t.connected = true) :
    (h.closeSession i).1 = { h.putSession t.close.1 with bus := unregisterAll h.bus t.listeners }
      ∧ t.close.1.connected = false ∧ t.close.1.id = t.id ∧ t.close.1.registry = {} := by
  simp [closeSession, ht, hconnected, Session.close, Registry.clear]

/-- The sessions after one is closed: the closed one, and the others as they were. -/
lemma session?_closeSession {h : Hub} (keyed : h.Keyed) {i id : SessionId} {t u : Session}
    (ht : h.session? i = some t) (hconnected : t.connected = true)
    (hu : (h.closeSession i).1.session? id = some u) :
    (id = i ∧ u = t.close.1) ∨ (id ≠ i ∧ h.session? id = some u) := by
  obtain ⟨heq, _, hid, _⟩ := closeSession_eq ht hconnected
  rw [heq] at hu
  have hput : (h.putSession t.close.1).session? id = some u := hu
  rw [session?_putSession, hid.trans (keyed i t ht)] at hput
  obtain ⟨v, hv, rfl⟩ := Option.map_eq_some_iff.1 hput
  by_cases hsame : id = i
  · exact Or.inl ⟨hsame, if_pos hsame⟩
  · exact Or.inr ⟨hsame, by rw [if_neg hsame, hv]⟩

/-- The ids that a connected session has are registered to it. -/
lemma Sound.registration {h : Hub} (sound : h.Sound) {id : SessionId} {t : Session}
    (ht : h.session? id = some t) (hconnected : t.connected = true) {n : Nat}
    (hn : n ∈ t.listeners) :
    ∃ ear, (n, ear) ∈ h.bus.listeners ∧ (ear = .session id ∨ ear = .reorg id) := by
  obtain ⟨a, b, hids, ha, hb⟩ := sound.registered id t ht hconnected
  rw [hids] at hn
  rcases List.mem_cons.1 hn with rfl | hn
  · exact ⟨_, ha, Or.inl rfl⟩
  · obtain rfl := List.mem_singleton.1 hn
    exact ⟨_, hb, Or.inr rfl⟩

/-- No two connected sessions have an id in common. -/
lemma Sound.eq_of_shared {h : Hub} (sound : h.Sound) {i id : SessionId} {t u : Session}
    (ht : h.session? i = some t) (hconnected : t.connected = true)
    (hu : h.session? id = some u) (hopen : u.connected = true) {n : Nat}
    (hnt : n ∈ t.listeners) (hnu : n ∈ u.listeners) : i = id := by
  obtain ⟨ear, hear, howner⟩ := sound.registration ht hconnected hnt
  obtain ⟨ear', hear', howner'⟩ := sound.registration hu hopen hnu
  have hsame : ear = ear' := (Prod.mk.inj (List.inj_on_of_nodup_map sound.nodup hear hear' rfl)).2
  subst hsame
  rcases howner with rfl | rfl <;> rcases howner' with heq | heq
  · exact Ear.session.inj heq
  · cases heq
  · cases heq
  · exact Ear.reorg.inj heq

lemma Sound.closeSession {h : Hub} (sound : h.Sound) (i : SessionId) :
    (h.closeSession i).1.Sound := by
  cases ht : h.session? i with
  | none => simpa [Hub.closeSession, ht] using sound
  | some t =>
    cases hconnected : t.connected with
    | false => simpa [Hub.closeSession, ht, hconnected] using sound
    | true =>
      obtain ⟨heq, hclosed, hid, hempty⟩ := closeSession_eq ht hconnected
      have hbus : (h.closeSession i).1.bus = unregisterAll h.bus t.listeners := by rw [heq]
      obtain ⟨hsub, hnext⟩ := listeners_unregisterAll h.bus t.listeners
      refine ⟨fun id u hu => ?_, fun id u hu => ?_, fun id u hu hopen => ?_, ?_, ?_⟩
      · rcases session?_closeSession sound.keyed ht hconnected hu with ⟨rfl, rfl⟩ | ⟨_, hu⟩
        · exact hid.trans (sound.keyed _ t ht)
        · exact sound.keyed id u hu
      · rcases session?_closeSession sound.keyed ht hconnected hu with ⟨_, rfl⟩ | ⟨_, hu⟩
        · exact hempty ▸ Registry.tidy_empty
        · exact sound.tidy id u hu
      · rcases session?_closeSession sound.keyed ht hconnected hu with ⟨_, rfl⟩ | ⟨hne, hu⟩
        · rw [hclosed] at hopen
          exact absurd hopen Bool.false_ne_true
        · obtain ⟨a, b, hids, ha, hb⟩ := sound.registered id u hu hopen
          have hother : ∀ n ∈ u.listeners, n ∉ t.listeners := fun n hnu hnt =>
            hne (sound.eq_of_shared hu hopen ht hconnected hnu hnt)
          rw [hbus]
          exact ⟨a, b, hids, mem_unregisterAll.2 ⟨ha, hother a (by simp [hids])⟩,
            mem_unregisterAll.2 ⟨hb, hother b (by simp [hids])⟩⟩
      · rw [hbus]
        exact sound.nodup.sublist (hsub.map _)
      · rw [hbus, hnext]
        exact fun l hl => sound.below l (hsub.subset hl)

/-- The scans do not matter to sessions and registrations. -/
lemma Sound.putScan {h : Hub} (sound : h.Sound) (k : Nat) (run : ScanRun Double) :
    (h.putScan k run).Sound :=
  ⟨sound.keyed, sound.tidy, sound.registered, sound.nodup, sound.below⟩

/-- **Sessions and registrations** go on to belong together, whatever happens. -/
lemma Sound.act {h : Hub} (sound : h.Sound) (input : HubInput) :
    (h.act s settings input).1.Sound := by
  cases input with
  | connect peer linked => exact sound.openSession peer linked
  | move id m => exact sound.of_keeps (keeps_move s settings sound.keyed id m)
  | close id => exact sound.closeSession id
  | deafen id => exact sound.of_keeps (keeps_deafen sound.keyed id)
  | observe =>
    obtain ⟨hnodup, hbelow⟩ := nodup_register sound.nodup sound.below .observer
    refine ⟨sound.keyed, sound.tidy, fun id t ht hconnected => ?_, hnodup, hbelow⟩
    obtain ⟨a, b, hids, ha, hb⟩ := sound.registered id t ht hconnected
    exact ⟨a, b, hids, List.mem_append_left _ ha, List.mem_append_left _ hb⟩
  | publish e => exact sound.of_keeps (keeps_publish settings sound.keyed e)
  | scan k input =>
    rw [Hub.act, scanStep]
    split
    · have sound' := sound.putScan k
      exact (sound' _).of_keeps (passes_scanEffects settings k (sound' _).keyed _).toKeeps
    · exact sound

lemma Sound.actAll {h : Hub} (sound : h.Sound) (inputs : List HubInput) :
    (h.actAll s settings inputs).Sound := by
  induction inputs generalizing h with
  | nil => exact sound
  | cons input inputs ih => exact ih (sound.act s settings input)

/-! ### Scans that are due -/

/-- That a connected session holds a subscription. -/
def Holds (h : Hub) (id : SessionId) (sub : Subscription) : Prop :=
  ∃ t, h.session? id = some t ∧ t.connected = true
    ∧ t.registry.get? sub.address.address = some sub

lemma holds_iff {h : Hub} {id : SessionId} {sub : Subscription} :
    h.Holds id sub ↔ ((h.session? id).map fun t =>
      (t.connected, t.registry.get? sub.address.address)) = some (true, some sub) := by
  simp [Holds]

instance (h : Hub) (id : SessionId) (sub : Subscription) : Decidable (h.Holds id sub) :=
  decidable_of_iff _ holds_iff.symm

/-- **Scans for new blocks**: a scan of the address of a subscription is due for its session exactly
if the mark is below the blocks, and then it is a scan with the labels and over the blocks. -/
lemma Sound.due_iff {h : Hub} (sound : h.Sound) {id : SessionId} {sub : Subscription}
    (holds : h.Holds id sub) (lo hi : Int) (r : ScanRequest) :
    (r ∈ h.ears.flatMap (h.dueFor lo hi) ∧ r.owner = id ∧ r.address = sub.address)
      ↔ sub.highest < lo ∧ r = sub.scanOver id lo hi := by
  obtain ⟨t, ht, hconnected, hsub⟩ := holds
  constructor
  · rintro ⟨hr, howner, haddress⟩
    obtain ⟨ear, _, hr⟩ := List.mem_flatMap.1 hr
    cases ear with
    | session i =>
      cases hu : h.session? i with
      | none => simp [dueFor, hu] at hr
      | some u =>
        simp only [dueFor, hu, Option.elim, Session.due] at hr
        obtain ⟨sub', hsub', rfl⟩ := List.mem_map.1 hr
        obtain ⟨hmem, hlow⟩ := List.mem_filter.1 hsub'
        obtain ⟨⟨key, sub''⟩, hentry, rfl⟩ := List.mem_map.1 hmem
        -- the owner tells the session, and the address the subscription
        obtain rfl : i = id := (sound.keyed i u hu).symm.trans howner
        obtain rfl : u = t := Option.some.inj (hu.symm.trans ht)
        have hkey : key = sub.address.address :=
          ((sound.tidy i u hu).named _ hentry).symm.trans (congrArg ScanAddress.address haddress)
        have hget := (sound.tidy i u hu).get?_of_mem hentry
        rw [hkey, hsub] at hget
        obtain rfl := Option.some.inj hget
        exact ⟨by simpa using hlow, congrArg (sub.scanOver · lo hi) howner⟩
    | reorg i => simp [dueFor] at hr
    | observer => simp [dueFor] at hr
  · rintro ⟨hlow, rfl⟩
    refine ⟨List.mem_flatMap.2 ⟨.session id, (sound.hears ht hconnected).1, ?_⟩, rfl, rfl⟩
    simp only [dueFor, ht, Option.elim, Session.due, sound.keyed id t ht]
    refine List.mem_map.2 ⟨sub, List.mem_filter.2 ⟨?_, by simpa using hlow⟩, rfl⟩
    exact List.mem_map.2 ⟨_, Registry.mem_of_get?_eq_some hsub, rfl⟩

end Hub
end SilentScan
