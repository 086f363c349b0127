/-
The account of a subscription.

What the mark of a subscription is can be told from outside. An account starts at zero when the
address is watched anew, starts again below a height when blocks are disconnected from there on,
and takes in every entry that goes out to the client; the mark is the highest of these. And the
entries that go out come from the scans, so that they are at heights that the scans have met.

* `Account`, `Hub.accountAfter`: the account, and how it goes on;
* `Hub.Accounted`, `Accounted.actAll`: the mark is what the account says;
* `Hub.Within`, `Within.act`: the heights of the entries held and gone out.
-/
import SilentScan.Proofs.Scan.Delivery
import SilentScan.Proofs.Session.Life

namespace SilentScan

/-- What is known of a subscription from outside: where its mark was last set, and the entries that
have gone out since. -/
structure Account where
  base : Int := 0
  entries : List TxEntry := []

/-- The mark according to an account. -/
def Account.mark (a : Account) : Int :=
  raised a.base a.entries

/-- Whether an address is watched anew. -/
def HubInput.renews (id : SessionId) (key : String) : HubInput → Bool
  | .move i (.watchAddress address _) => i = id && address.address = key
  | _ => false

/-- The account after something has happened, with its effects. -/
def Account.after (id : SessionId) (key : String) (a : Account) (input : HubInput)
    (effects : List HubEffect) : Account :=
  match input with
  | .publish (.reorg startHeight) => ⟨startHeight - 1, []⟩
  | input =>
    if input.renews id key then {} else { a with entries := a.entries ++ delivered id key effects }

namespace Hub

/-- The account after things have happened to a hub one after another. -/
def accountAfter (s : Scheme) (settings : ScanSettings) (id : SessionId) (key : String) :
    Hub → Account → List HubInput → Account
  | _, a, [] => a
  | h, a, input :: rest =>
    let (h', effects) := h.act s settings input
    accountAfter s settings id key h' (a.after id key input effects) rest

/-- That the mark is what an account says, if the session is connected and the address watched. -/
def Accounted (id : SessionId) (key : String) (h : Hub) (a : Account) : Prop :=
  ∀ t, h.session? id = some t → t.connected = true → ∀ m, t.mark? key = some m → m = a.mark

/-- Where marks are left, the account is. -/
lemma Accounted.of_back {id : SessionId} {key : String} {h h' : Hub} {a : Account}
    (acc : h.Accounted id key a)
    (hback : ∀ t', h'.session? id = some t' → t'.connected = true → ∀ m, t'.mark? key = some m →
      ∃ t, h.session? id = some t ∧ t.connected = true ∧ t.mark? key = some m) :
    h'.Accounted id key a := by
  intro t' ht' hconnected' m hm
  obtain ⟨t, ht, hconnected, hm⟩ := hback t' ht' hconnected' m hm
  exact acc t ht hconnected m hm

/-- What goes out is taken into the account. -/
lemma Accounted.of_passes {id : SessionId} {key : String} {h h' : Hub} {effects : List HubEffect}
    {a : Account} (keyed : h.Keyed) (passes : h.Passes effects h') (acc : h.Accounted id key a) :
    h'.Accounted id key { a with entries := a.entries ++ delivered id key effects } := by
  intro t' ht' hconnected' m hm
  obtain ⟨t, ht, hsame⟩ := passes.session id t' ht'
  have hmark := passes.mark keyed id key
  simp only [mark?, ht, ht', Option.bind_some, hm] at hmark
  obtain ⟨m', hm', rfl⟩ := Option.map_eq_some_iff.1 hmark.symm
  rw [acc t ht (hsame.connected ▸ hconnected') m' hm']
  exact (raised_append a.base a.entries _).symm

end Hub

/-- After a step of a dialogue the mark of an address that is watched anew is zero, and every other
mark is as it was. -/
lemma Move.mark?_perform {m : Move} {t : Session} {key : String} {mark : Int}
    (h : (m.perform t).2.1.mark? key = some mark) :
    (HubInput.move t.id m).renews t.id key = true ∧ mark = 0
      ∨ (HubInput.move t.id m).renews t.id key = false ∧ t.mark? key = some mark := by
  cases m with
  | watchAddress address rawLabels =>
    have hget : ((t.registry.subscribe address rawLabels).2.get? key).map (·.highest)
        = some mark := h
    rw [Registry.get?, Registry.subscribe, Registry.lookup_put] at hget
    by_cases hkey : address.address = key
    · rw [if_pos hkey.symm] at hget
      exact Or.inl ⟨by simp [HubInput.renews, hkey], (Option.some.inj hget).symm⟩
    · rw [if_neg (Ne.symm hkey)] at hget
      exact Or.inr ⟨by simp [HubInput.renews, hkey], hget⟩
  | dropAddress dropped =>
    refine Or.inr ⟨rfl, ?_⟩
    have hget : ((t.registry.unsubscribe dropped).2.get? key).map (·.highest) = some mark := h
    rw [Registry.get?_unsubscribe] at hget
    split at hget
    · cases hget
    · exact hget
  | watchHash hash =>
    refine Or.inr ⟨rfl, ?_⟩
    simp only [perform, Registry.subscribeHash] at h
    split at h <;> exact h
  | _ => exact Or.inr ⟨rfl, h⟩

/-- Unless blocks are disconnected or the address is watched anew, an account takes in what goes
out. -/
lemma Account.after_of_kept {id : SessionId} {key : String} {input : HubInput} (a : Account)
    (effects : List HubEffect) (hreorg : ∀ startHeight, input ≠ .publish (.reorg startHeight))
    (hrenews : input.renews id key = false) :
    a.after id key input effects
      = { a with entries := a.entries ++ delivered id key effects } := by
  unfold after
  split
  · exact absurd rfl (hreorg _)
  · simp [hrenews]

namespace Hub

variable (s : Scheme) (settings : ScanSettings)

/-- An account that takes in nothing stays as it is. -/
lemma Accounted.of_silent {id : SessionId} {key : String} {h' : Hub} {a : Account}
    {effects : List HubEffect} (hnone : delivered id key effects = [])
    (acc : h'.Accounted id key a) :
    h'.Accounted id key { a with entries := a.entries ++ delivered id key effects } := by
  rw [hnone, List.append_nil]
  exact acc

lemma delivered_move (id : SessionId) (key : String) (h : Hub) (i : SessionId) (m : Move) :
    delivered id key (h.act s settings (.move i m)).2 = [] := by
  rw [act]
  split
  · exact delivered_dispatchAll settings _ _ _ _
  · rfl

/-- The marks after a step of a dialogue. -/
lemma accounted_move {id : SessionId} {key : String} {h : Hub} {a : Account} (sound : h.Sound)
    (acc : h.Accounted id key a) (i : SessionId) (m : Move) :
    (h.act s settings (.move i m)).1.Accounted id key
      (a.after id key (.move i m) (h.act s settings (.move i m)).2) := by
  have hafter : a.after id key (.move i m) (h.act s settings (.move i m)).2
      = if (HubInput.move i m).renews id key then {} else a := by
    simp [Account.after, delivered_move]
  have hkept : i ≠ id → (HubInput.move i m).renews id key = false := by
    intro hne
    cases m <;> simp [HubInput.renews, hne]
  rw [hafter]
  cases hi : h.session? i with
  | none =>
    rw [act, hi]
    intro t ht hconnected mark hmark
    have hne : i ≠ id := by
      rintro rfl
      rw [hi] at ht
      cases ht
    rw [hkept hne]
    exact acc t ht hconnected mark hmark
  | some t =>
    simp only [act, hi]
    intro u hu hconnected mark hmark
    rw [session?_dispatchAll, session?_putSession_of_keeps sound.keyed hi (m.keeps_perform t)] at hu
    by_cases hid : i = id
    · rw [if_pos hid] at hu
      obtain rfl := Option.some.inj hu
      subst hid
      have hmove := Move.mark?_perform hmark
      rw [sound.keyed i t hi] at hmove
      rcases hmove with ⟨hrenews, rfl⟩ | ⟨hsame, hmark⟩
      · rw [if_pos hrenews]
        rfl
      · rw [hsame]
        exact acc t hi ((m.keeps_perform t).connected ▸ hconnected) mark hmark
    · rw [if_neg hid] at hu
      rw [hkept hid]
      exact acc u hu hconnected mark hmark

lemma delivered_closeSession (id : SessionId) (key : String) (h : Hub) (i : SessionId) :
    delivered id key (h.closeSession i).2 = [] := by
  rw [closeSession]
  split
  · split <;> rfl
  · rfl

/-- The marks after a session is closed: the marks of the others. -/
lemma accounted_closeSession {id : SessionId} {key : String} {h : Hub} {a : Account}
    (sound : h.Sound) (acc : h.Accounted id key a) (i : SessionId) :
    (h.closeSession i).1.Accounted id key a := by
  cases ht : h.session? i with
  | none => simpa [closeSession, ht] using acc
  | some t =>
    cases hconnected : t.connected with
    | false => simpa [closeSession, ht, hconnected] using acc
    | true =>
      obtain ⟨_, hclosed, _⟩ := closeSession_eq ht hconnected
      refine acc.of_back fun u hu hopen m hm => ?_
      rcases session?_closeSession sound.keyed ht hconnected hu with ⟨_, rfl⟩ | ⟨_, hu⟩
      · rw [hclosed] at hopen
        exact absurd hopen Bool.false_ne_true
      · exact ⟨u, hu, hopen, hm⟩

/-- The marks after nobody takes the lines for a client any more. -/
lemma accounted_deafen {id : SessionId} {key : String} {h : Hub} {a : Account} (sound : h.Sound)
    (acc : h.Accounted id key a) (i : SessionId) : (h.deafen i).Accounted id key a := by
  rw [deafen]
  split
  · rename_i t ht
    have hkeeps : t.Keeps { t with receiving := false } := ⟨rfl, rfl, rfl, fun tidy => tidy⟩
    refine acc.of_back fun u hu hconnected m hm => ?_
    rw [session?_putSession_of_keeps sound.keyed ht hkeeps] at hu
    split at hu
    · rename_i hid
      obtain rfl := Option.some.inj hu
      exact ⟨t, hid ▸ ht, hconnected, hm⟩
    · exact ⟨u, hu, hconnected, hm⟩
  · exact acc

/-- The marks after an event: those of an account begun anew if blocks are disconnected, and those
of one that takes in what goes out otherwise. -/
lemma accounted_publish {id : SessionId} {key : String} {h : Hub} {a : Account} (sound : h.Sound)
    (acc : h.Accounted id key a) (e : Event) :
    (publish settings h e).1.Accounted id key
      (a.after id key (.publish e) (publish settings h e).2) := by
  by_cases hreorg : ∃ startHeight, e = .reorg startHeight
  · obtain ⟨startHeight, rfl⟩ := hreorg
    intro t' ht' hconnected' m hm
    obtain ⟨t, ht, hsame⟩ := (keeps_publish settings sound.keyed _).session id t' ht'
    have hears := sound.hears ht (hsame.connected ▸ hconnected')
    have hmark := mark?_publish_reorg settings sound.keyed startHeight hears.2 key
    simp only [mark?, ht', Option.bind_some, hm] at hmark
    obtain ⟨_, _, hset⟩ := Option.map_eq_some_iff.1 hmark.symm
    exact hset.symm
  · have hnot : ∀ startHeight, e ≠ .reorg startHeight := fun H hH => hreorg ⟨H, hH⟩
    rw [Account.after_of_kept a _ (by simpa using hnot) rfl]
    exact acc.of_passes sound.keyed (passes_publish settings sound.keyed hnot)

/-- **The account after one thing** that happens to a hub. -/
lemma Accounted.act {id : SessionId} {key : String} {h : Hub} {a : Account} (sound : h.Sound)
    (acc : h.Accounted id key a) (input : HubInput) :
    (h.act s settings input).1.Accounted id key
      (a.after id key input (h.act s settings input).2) := by
  cases input with
  | connect peer linked =>
    rw [Account.after_of_kept a _ (by simp) rfl]
    refine Accounted.of_silent rfl (acc.of_back fun t ht hconnected m hm => ?_)
    rcases session?_openSession ht with ht | ⟨rfl, rfl⟩
    · exact ⟨t, ht, hconnected, hm⟩
    · cases hm
  | move i m => exact accounted_move s settings sound acc i m
  | close i =>
    rw [Account.after_of_kept a _ (by simp) rfl]
    exact (accounted_closeSession sound acc i).of_silent (delivered_closeSession id key h i)
  | deafen i =>
    rw [Account.after_of_kept a _ (by simp) rfl]
    exact (accounted_deafen sound acc i).of_silent rfl
  | observe =>
    rw [Account.after_of_kept a _ (by simp) rfl]
    exact Accounted.of_silent rfl (acc.of_back fun t ht hconnected m hm => ⟨t, ht, hconnected, hm⟩)
  | publish e => exact accounted_publish settings sound acc e
  | scan k input =>
    rw [Account.after_of_kept a _ (by simp) rfl, Hub.act, scanStep]
    split
    · have sound' := sound.putScan k
      exact Accounted.of_passes (sound' _).keyed
        (passes_scanEffects settings k (sound' _).keyed _) acc
    · exact Accounted.of_silent rfl acc

/-- **The account after any course of things**: the mark of every address that a connected session
watches is what the account says. -/
lemma Accounted.actAll {id : SessionId} {key : String} {h : Hub} {a : Account} (sound : h.Sound)
    (acc : h.Accounted id key a) (inputs : List HubInput) :
    (h.actAll s settings inputs).Accounted id key
      (h.accountAfter s settings id key a inputs) := by
  induction inputs generalizing h a with
  | nil => exact acc
  | cons input inputs ih => exact ih (sound.act s settings input) (acc.act s settings sound input)

/-! ### Where entries that go out come from -/

/-- What goes out because of an event is on the page that is told. -/
lemma mem_delivered_tellAll {id : SessionId} {key : String} {h : Hub} {e : Event}
    {ears : List Ear} {entry : TxEntry}
    (hentry : entry ∈ delivered id key (tellAll settings e h ears).2) :
    ∃ p, e = .scanPage p ∧ entry ∈ p.history := by
  induction ears generalizing h with
  | nil => simp [tellAll] at hentry
  | cons ear ears ih =>
    rw [tellAll, delivered_append, List.mem_append] at hentry
    rcases hentry with hentry | hentry
    · rw [delivered_tell] at hentry
      split at hentry
      · cases ht : h.session? id with
        | none => simp [ht] at hentry
        | some t =>
          simp only [ht, Option.elim] at hentry
          cases e with
          | scanPage p =>
            refine ⟨p, rfl, ?_⟩
            rw [Session.passes] at hentry
            split at hentry
            · exact hentry
            · simp at hentry
          | _ => simp [Session.passes] at hentry
      · simp at hentry
    · exact ih hentry

/-- What goes out by the effects of a scan is published by the scan. -/
lemma mem_delivered_scanEffects {id : SessionId} {key : String} {k : Nat} {h : Hub}
    {effects : List (ScanEffect Double)} {entry : TxEntry}
    (hentry : entry ∈ delivered id key (scanEffects settings k h effects).2) :
    entry ∈ published effects := by
  induction effects generalizing h with
  | nil => simp [scanEffects] at hentry
  | cons effect effects ih =>
    have hcons : published (effect :: effects) = published [effect] ++ published effects :=
      published_append [effect] effects
    rw [hcons, List.mem_append]
    cases effect with
    | page p =>
      have hsplit : entry ∈ delivered id key ((publish settings h (.scanPage p)).2
          ++ (scanEffects settings k (publish settings h (.scanPage p)).1 effects).2) := hentry
      rw [delivered_append, List.mem_append] at hsplit
      rcases hsplit with hentry | hentry
      · obtain ⟨p', hp', hmem⟩ := mem_delivered_tellAll settings hentry
        obtain rfl := Event.scanPage.inj hp'
        exact Or.inl (by simpa [published, pagesOf] using hmem)
      · exact Or.inr (ih hentry)
    | query q => exact Or.inr (ih hentry)
    | cancelStore => exact Or.inr (ih hentry)
    | record r => exact Or.inr (ih hentry)

/-- That nothing but scans publishes pages, and that a scan takes in rows at heights of some kind
only. -/
def Admits (c : Curve) (kind : Int → Prop) : HubInput → Prop
  | .publish e => ∀ p, e ≠ .scanPage p
  | .scan _ input => ∀ alive m entry, input alive = .push m → toEntry c m = some entry →
      kind entry.height
  | _ => True

/-- That all entries that scans hold or that have gone out are at heights of some kind. -/
structure Within (c : Curve) (kind : Int → Prop) (h : Hub) (a : Account) : Prop where
  held : ∀ p ∈ h.scans, ∀ entry ∈ p.2.held c, kind entry.height
  out : ∀ entry ∈ a.entries, kind entry.height

lemma Within.mono {c : Curve} {kind kind' : Int → Prop} {h : Hub} {a : Account}
    (within : h.Within c kind a) (hle : ∀ n, kind n → kind' n) : h.Within c kind' a :=
  ⟨fun p hp entry he => hle _ (within.held p hp entry he),
    fun entry he => hle _ (within.out entry he)⟩

lemma Within.of_scans_eq {c : Curve} {kind : Int → Prop} {h h' : Hub} {a : Account}
    (within : h.Within c kind a) (hscans : h'.scans = h.scans) : h'.Within c kind a :=
  ⟨hscans ▸ within.held, within.out⟩

/-- Scans that have not begun hold nothing. -/
lemma Within.of_keeps {c : Curve} {kind : Int → Prop} {h h' : Hub} {a : Account}
    (within : h.Within c kind a) (keeps : h.Keeps h') : h'.Within c kind a := by
  refine ⟨fun p hp entry he => ?_, within.out⟩
  rcases keeps.scans p hp with hp | ⟨settings, r, hnew⟩
  · exact within.held p hp entry he
  · rw [hnew] at he
    simp [ScanRun.held, ScanRun.rest, ScanRun.drained, ScanRun.new] at he

/-- The account keeps to the heights if what goes out does. -/
lemma Within.after {c : Curve} {kind : Int → Prop} {id : SessionId} {key : String} {h : Hub}
    {a : Account} (within : h.Within c kind a) (input : HubInput) {effects : List HubEffect}
    (hout : ∀ entry ∈ delivered id key effects, kind entry.height) :
    h.Within c kind (a.after id key input effects) := by
  refine ⟨within.held, fun entry he => ?_⟩
  unfold Account.after at he
  split at he
  · simp at he
  · split at he
    · simp at he
    · rcases List.mem_append.1 he with he | he
      · exact within.out entry he
      · exact hout entry he

lemma Within.after_silent {c : Curve} {kind : Int → Prop} {id : SessionId} {key : String} {h : Hub}
    {a : Account} (within : h.Within c kind a) {input : HubInput} {effects : List HubEffect}
    (hnone : delivered id key effects = []) : h.Within c kind (a.after id key input effects) := by
  refine within.after input fun entry he => ?_
  rw [hnone] at he
  cases he

lemma scans_closeSession (h : Hub) (i : SessionId) : (h.closeSession i).1.scans = h.scans := by
  rw [closeSession]
  split
  · split <;> rfl
  · rfl

/-- A hub with other scans put in place. -/
lemma mem_scans_putScan {h : Hub} {k : Nat} {run : ScanRun Double} {p : Nat × ScanRun Double}
    (hp : p ∈ (h.putScan k run).scans) : p ∈ h.scans ∨ p.2 = run := by
  obtain ⟨⟨k', run'⟩, hq, rfl⟩ := List.mem_map.1 hp
  by_cases hk : k' = k
  · exact Or.inr (if_pos hk)
  · exact Or.inl (by simpa [hk] using hq)

/-- The heights after a step of a scan: what it publishes or holds then, it held before or takes
in. -/
lemma Within.scanStep {kind : Int → Prop} {id : SessionId} {key : String} {h : Hub} {a : Account}
    (sound : h.Sound) (within : h.Within s.curve kind a) {k : Nat} {input : Bool → ScanInput}
    (admits : Admits s.curve kind (.scan k input)) :
    (h.scanStep s settings k input).1.Within s.curve kind
      (a.after id key (.scan k input) (h.scanStep s settings k input).2) := by
  cases hrun : h.scan? k with
  | none =>
    simp only [Hub.scanStep, hrun]
    exact within.after_silent rfl
  | some run =>
    simp only [Hub.scanStep, hrun]
    have hstep : ∀ entry, entry ∈ published (run.step s settings.batchSize
        (input (h.wants run.request))).2 ∨ entry ∈ (run.step s settings.batchSize
        (input (h.wants run.request))).1.held s.curve → kind entry.height := by
      intro entry he
      rcases ScanRun.mem_held_step he with he | ⟨m, hm, hentry⟩
      · exact within.held _ (mem_of_lookup hrun) entry he
      · exact admits _ m entry hm hentry
    refine Within.after (Within.of_keeps ⟨fun p hp entry he => ?_, within.out⟩
      (passes_scanEffects settings k (sound.putScan k _).keyed _).toKeeps) _ fun entry he => ?_
    · rcases mem_scans_putScan hp with hp | hp
      · exact within.held p hp entry he
      · exact hstep entry (Or.inr (hp ▸ he))
    · exact hstep entry (Or.inl (mem_delivered_scanEffects settings he))

/-- **The heights of entries** stay of a kind as long as scans take in no others. -/
lemma Within.act {kind : Int → Prop} {id : SessionId} {key : String} {h : Hub} {a : Account}
    (sound : h.Sound) (within : h.Within s.curve kind a) {input : HubInput}
    (admits : Admits s.curve kind input) :
    (h.act s settings input).1.Within s.curve kind
      (a.after id key input (h.act s settings input).2) := by
  cases input with
  | connect peer linked =>
    have hscans : (h.openSession peer linked).2.1.scans = h.scans := rfl
    exact (within.of_scans_eq hscans).after_silent rfl
  | move i m =>
    exact (within.of_keeps (keeps_move s settings sound.keyed i m)).after_silent
      (delivered_move s settings id key h i m)
  | close i =>
    exact (within.of_scans_eq (scans_closeSession h i)).after_silent
      (delivered_closeSession id key h i)
  | deafen i => exact (within.of_keeps (keeps_deafen sound.keyed i)).after_silent rfl
  | observe =>
    have hscans : h.observe.scans = h.scans := rfl
    exact (within.of_scans_eq hscans).after_silent rfl
  | publish e =>
    refine Within.after (within.of_keeps (keeps_publish settings sound.keyed e)) _ fun _ he => ?_
    obtain ⟨p, hp, _⟩ := mem_delivered_tellAll settings he
    exact absurd hp (admits p)
  | scan k input => exact within.scanStep s settings sound admits

lemma Within.actAll {kind : Int → Prop} {id : SessionId} {key : String} {h : Hub} {a : Account}
    (sound : h.Sound) (within : h.Within s.curve kind a) {inputs : List HubInput}
    (admits : ∀ input ∈ inputs, Admits s.curve kind input) :
    (h.actAll s settings inputs).Within s.curve kind
      (h.accountAfter s settings id key a inputs) := by
  induction inputs generalizing h a with
  | nil => exact within
  | cons input inputs ih =>
    obtain ⟨hfirst, hrest⟩ := List.forall_mem_cons.1 admits
    exact ih (sound.act s settings input) (within.act s settings sound hfirst) hrest

/-- While no blocks are disconnected, an account starts anew only when the address is watched
anew. -/
lemma base_accountAfter {id : SessionId} {key : String} {h : Hub} {a : Account}
    {inputs : List HubInput}
    (hnot : ∀ input ∈ inputs, ∀ startHeight, input ≠ .publish (.reorg startHeight)) :
    (h.accountAfter s settings id key a inputs).base
      = if inputs.any (·.renews id key) then 0 else a.base := by
  induction inputs generalizing h a with
  | nil => rfl
  | cons input inputs ih =>
    obtain ⟨hfirst, hrest⟩ := List.forall_mem_cons.1 hnot
    have hstep : (h.accountAfter s settings id key a (input :: inputs)).base
        = if inputs.any (·.renews id key) then 0
          else (a.after id key input (h.act s settings input).2).base := ih hrest
    rw [hstep, List.any_cons]
    cases hrenews : input.renews id key with
    | false => rw [Account.after_of_kept a _ hfirst hrenews, Bool.false_or]
    | true =>
      have hanew : (a.after id key input (h.act s settings input).2).base = 0 := by
        unfold Account.after
        split
        · simp [HubInput.renews] at hrenews
        · simp [hrenews]
      simp [hanew]

end Hub
end SilentScan
