/-
The marks of one session.

The mark of a subscription says from which height on new blocks are to be scanned for it. Three
things move it: the address is watched anew, entries are passed on to the client, and blocks are
disconnected. Here this is said of a registry and of a session that hears an event.

* `raised`, `highest_recordDelivered`: the mark after some entries;
* `Registry.Tidy`: every subscription stands under its own address, once;
* `Session.mark?`, `Session.passes`, `mark?_onEvent`, `mark?_onReorg`: the mark after an event;
* `Session.Keeps`: what no event changes of a session.
-/
import Mathlib.Tactic.Common
import SilentScan.Session.Basic

namespace SilentScan

/-- Changing the values of an association list changes what is found. -/
lemma lookup_map_snd {α β γ : Type} [BEq α] [LawfulBEq α] (f : α → β → γ) (l : List (α × β))
    (k : α) : (l.map fun (a, b) => (a, f a b)).lookup k = (l.lookup k).map (f k) := by
  induction l with
  | nil => rfl
  | cons p l ih =>
    obtain ⟨a, b⟩ := p
    by_cases h : k == a
    · have hk : k = a := eq_of_beq h
      simp [hk]
    · simp only [List.map_cons, List.lookup_cons, h]
      exact ih

/-- What is found in an association list is in it. -/
lemma mem_of_lookup {α β : Type} [BEq α] [LawfulBEq α] {l : List (α × β)} {a : α} {b : β}
    (h : l.lookup a = some b) : (a, b) ∈ l := by
  induction l with
  | nil => simp at h
  | cons p l ih =>
    obtain ⟨k, t⟩ := p
    cases hk : a == k with
    | true =>
      rw [List.lookup_cons, hk] at h
      rw [eq_of_beq hk, Option.some.inj h]
      exact List.mem_cons_self
    | false =>
      rw [List.lookup_cons, hk] at h
      exact List.mem_cons_of_mem _ (ih h)

/-! ### Entries and the mark -/

/-- A mark that is raised by entries to the highest of their heights. -/
def raised (mark : Int) (entries : List TxEntry) : Int :=
  entries.foldl (fun m e => max m e.height) mark

@[simp] lemma raised_nil (mark : Int) : raised mark [] = mark := rfl

@[simp] lemma raised_cons (mark : Int) (e : TxEntry) (entries : List TxEntry) :
    raised mark (e :: entries) = raised (max mark e.height) entries := rfl

lemma raised_append (mark : Int) (a b : List TxEntry) :
    raised mark (a ++ b) = raised (raised mark a) b :=
  List.foldl_append

/-- A raised mark is below a height exactly if the mark and all entries are. -/
lemma raised_lt_iff {mark height : Int} {entries : List TxEntry} :
    raised mark entries < height ↔ mark < height ∧ ∀ e ∈ entries, e.height < height := by
  induction entries generalizing mark with
  | nil => simp
  | cons e entries ih =>
    rw [raised_cons, ih]
    constructor
    · rintro ⟨hmax, hall⟩
      refine ⟨by omega, fun e' he' => ?_⟩
      rcases List.mem_cons.1 he' with rfl | he'
      · omega
      · exact hall e' he'
    · rintro ⟨hmark, hall⟩
      have := hall e List.mem_cons_self
      exact ⟨by omega, fun e' he' => hall e' (List.mem_cons_of_mem _ he')⟩

/-- A mark is raised to the highest of all heights, where there are any. -/
lemma raised_eq_max? (mark : Int) (entries : List TxEntry) :
    raised mark entries = (entries.map (·.height)).max?.elim mark (max mark) := by
  induction entries generalizing mark with
  | nil => rfl
  | cons e entries ih =>
    rw [raised_cons, ih, List.map_cons, List.max?_cons]
    cases (entries.map (·.height)).max? with
    | none => rfl
    | some h => simp only [Option.elim]; omega

/-- Entries that are delivered raise the mark. -/
lemma highest_recordDelivered (sub : Subscription) (history : List TxEntry) :
    (sub.recordDelivered history).highest = raised sub.highest history := by
  rw [raised_eq_max?, Subscription.recordDelivered]
  cases (history.map (·.height)).max? <;> rfl

namespace Registry

lemma get?_modify (r : Registry) (key key' : String) (f : Subscription → Subscription) :
    (r.modify key f).get? key' = (r.get? key').map fun s => if key' = key then f s else s :=
  lookup_map_snd (fun k s => if k = key then f s else s) r.subscriptions key'

lemma get?_modifyAll (r : Registry) (key : String) (f : Subscription → Subscription) :
    (r.modifyAll f).get? key = (r.get? key).map f :=
  lookup_map_snd (fun _ s => f s) r.subscriptions key

/-- What is put under a key is found there, and nothing else changes. -/
lemma lookup_put (key : String) (s : Subscription) (l : List (String × Subscription))
    (key' : String) : (put key s l).lookup key' = if key' = key then some s else l.lookup key' := by
  induction l with
  | nil =>
    by_cases h : key' = key
    · simp [put, h]
    · have hne : (key' == key) = false := by simpa using h
      simp [put, List.lookup_cons, h, hne]
  | cons p l ih =>
    obtain ⟨k, t⟩ := p
    rw [put]
    by_cases hk : k = key
    · subst hk
      by_cases h : key' = k
      · simp [h]
      · have hne : (key' == k) = false := by simpa using h
        simp [List.lookup_cons, h, hne]
    · rw [if_neg hk]
      by_cases h : key' = k
      · subst h
        simp [hk]
      · have hne : (key' == k) = false := by simpa using h
        simp [List.lookup_cons, hne, ih]

/-- After an address is dropped, all others are found as before. -/
lemma get?_unsubscribe (r : Registry) (dropped key : String) :
    (r.unsubscribe dropped).2.get? key = if key = dropped then none else r.get? key := by
  simp only [get?, unsubscribe]
  generalize r.subscriptions = l
  induction l with
  | nil => simp
  | cons p l ih =>
    obtain ⟨k, t⟩ := p
    by_cases hk : k = dropped
    · subst hk
      rw [List.filter_cons_of_neg (by simp), ih]
      by_cases h : key = k
      · simp [h]
      · have hne : (key == k) = false := by simpa using h
        simp [List.lookup_cons, h, hne]
    · rw [List.filter_cons_of_pos (by simpa using hk)]
      by_cases h : key = k
      · subst h
        simp [hk]
      · have hne : (key == k) = false := by simpa using h
        simp only [List.lookup_cons, hne]
        exact ih

/-- Every subscription stands under the text of its own address, and under no other's. -/
structure Tidy (r : Registry) : Prop where
  nodup : (r.subscriptions.map (·.1)).Nodup
  named : ∀ p ∈ r.subscriptions, p.2.address.address = p.1

lemma tidy_empty : ({} : Registry).Tidy :=
  ⟨List.nodup_nil, fun _ hp => absurd hp List.not_mem_nil⟩

/-- What is found in a registry is a subscription to the address looked for. -/
lemma mem_of_get?_eq_some {r : Registry} {key : String} {sub : Subscription}
    (h : r.get? key = some sub) : (key, sub) ∈ r.subscriptions :=
  mem_of_lookup h

/-- In a tidy registry each subscription is found. -/
lemma Tidy.get?_of_mem {r : Registry} (tidy : r.Tidy) {key : String} {sub : Subscription}
    (h : (key, sub) ∈ r.subscriptions) : r.get? key = some sub := by
  have hnodup := tidy.nodup
  rw [get?]
  generalize r.subscriptions = l at h hnodup
  induction l with
  | nil => simp at h
  | cons p l ih =>
    obtain ⟨k, t⟩ := p
    obtain ⟨hout, hnodup⟩ := List.nodup_cons.1 hnodup
    rcases List.mem_cons.1 h with heq | h
    · obtain ⟨rfl, rfl⟩ := Prod.mk.inj heq
      simp
    · have hk : key ≠ k := fun heq =>
        hout (List.mem_map.2 ⟨(key, sub), h, heq⟩)
      have hne : (key == k) = false := by simpa using hk
      rw [List.lookup_cons, hne]
      exact ih h hnodup

/-- Changes that leave the addresses keep a registry tidy. -/
lemma Tidy.map {r : Registry} (tidy : r.Tidy) (f : String → Subscription → Subscription)
    (hf : ∀ k s, (f k s).address = s.address) :
    ({ r with subscriptions := r.subscriptions.map fun (k, s) => (k, f k s) } : Registry).Tidy := by
  refine ⟨?_, fun p hp => ?_⟩
  · have hkeys : (r.subscriptions.map fun (k, s) => (k, f k s)).map (·.1)
        = r.subscriptions.map (·.1) := by
      rw [List.map_map]
      exact List.map_congr_left fun _ _ => rfl
    rw [hkeys]
    exact tidy.nodup
  · obtain ⟨q, hq, rfl⟩ := List.mem_map.1 hp
    exact (congrArg ScanAddress.address (hf q.1 q.2)).trans (tidy.named q hq)

lemma Tidy.modify {r : Registry} (tidy : r.Tidy) (key : String)
    (f : Subscription → Subscription) (hf : ∀ s, (f s).address = s.address) :
    (r.modify key f).Tidy := by
  refine tidy.map (fun k s => if k = key then f s else s) fun k s => ?_
  by_cases hk : k = key
  · rw [if_pos hk, hf]
  · rw [if_neg hk]

lemma Tidy.modifyAll {r : Registry} (tidy : r.Tidy) (f : Subscription → Subscription)
    (hf : ∀ s, (f s).address = s.address) : (r.modifyAll f).Tidy :=
  tidy.map (fun _ s => f s) fun _ s => hf s

/-- Putting a subscription in place keeps the keys, but for its own. -/
lemma mem_put {key : String} {s : Subscription} {l : List (String × Subscription)}
    {p : String × Subscription} (h : p ∈ put key s l) : p = (key, s) ∨ p ∈ l := by
  induction l with
  | nil => simpa [put] using h
  | cons q l ih =>
    obtain ⟨k, t⟩ := q
    rw [put] at h
    split at h
    · exact (List.mem_cons.1 h).imp_right (List.mem_cons_of_mem _)
    · rcases List.mem_cons.1 h with rfl | h
      · exact Or.inr List.mem_cons_self
      · exact (ih h).imp_right (List.mem_cons_of_mem _)

lemma nodup_put {key : String} {s : Subscription} {l : List (String × Subscription)}
    (h : (l.map (·.1)).Nodup) : ((put key s l).map (·.1)).Nodup := by
  induction l with
  | nil => simp [put]
  | cons q l ih =>
    obtain ⟨k, t⟩ := q
    obtain ⟨hout, hnodup⟩ := List.nodup_cons.1 h
    rw [put]
    split
    · rename_i hk
      exact List.nodup_cons.2 ⟨hk ▸ hout, hnodup⟩
    · rename_i hk
      refine List.nodup_cons.2 ⟨fun hmem => ?_, ih hnodup⟩
      obtain ⟨p, hp, hpk⟩ := List.mem_map.1 hmem
      rcases mem_put hp with rfl | hp
      · exact hk hpk.symm
      · exact hout (hpk ▸ List.mem_map_of_mem hp)

lemma Tidy.subscribe {r : Registry} (tidy : r.Tidy) (address : ScanAddress)
    (rawLabels : List (Option Int)) : (r.subscribe address rawLabels).2.Tidy := by
  refine ⟨nodup_put tidy.nodup, fun p hp => ?_⟩
  rcases mem_put hp with rfl | hp
  · rfl
  · exact tidy.named p hp

lemma Tidy.unsubscribe {r : Registry} (tidy : r.Tidy) (key : String) :
    (r.unsubscribe key).2.Tidy :=
  ⟨tidy.nodup.sublist (List.Sublist.map _ List.filter_sublist),
    fun p hp => tidy.named p (List.mem_filter.1 hp).1⟩

end Registry

/-! ### A session that hears an event -/

namespace Session

/-- The mark of an address, if it is watched. -/
def mark? (s : Session) (key : String) : Option Int :=
  (s.registry.get? key).map (·.highest)

/-- The entries for an address that a session passes on because of an event. -/
def passes (s : Session) (key : String) : Event → List TxEntry
  | .scanPage p =>
    if (p.owner = s.id ∧ s.isLive p.subscription.address) ∧ p.subscription.address = key then
      p.history
    else []
  | _ => []

/-- **The mark after an event**: what the session passes on raises it. -/
lemma mark?_onEvent (s : Session) (key : String) (e : Event) :
    (s.onEvent e).1.mark? key = (s.mark? key).map (raised · (s.passes key e)) := by
  cases e with
  | scanPage p =>
    simp only [onEvent, onPage, passes]
    split
    · rename_i hown
      have hget : ({ s with registry := (s.registry.deliver p.subscription.address p.history).2 } :
          Session).mark? key
          = ((s.registry.get? key).map fun sub => if key = p.subscription.address then
              sub.recordDelivered p.history else sub).map (·.highest) := by
        rw [mark?]
        exact congrArg _ (Registry.get?_modify _ _ _ _)
      rw [hget, Option.map_map, mark?, Option.map_map]
      congr 1
      funext sub
      by_cases hkey : key = p.subscription.address
      · simp [hown, hkey, highest_recordDelivered]
      · simp [hkey, Ne.symm hkey]
    · rename_i hown
      rw [if_neg fun h => hown h.1]
      simp
  | mempoolRemoved txids =>
    simp only [onEvent, passes, mark?, Registry.evict, Registry.get?_modifyAll, Option.map_map]
    congr 1
  | _ => simp [onEvent, passes]

/-- Blocks that are disconnected set all marks below the first of them. -/
lemma mark?_onReorg (s : Session) (key : String) (startHeight : Int) :
    (s.onReorg (.reorg startHeight)).mark? key = (s.mark? key).map fun _ => startHeight - 1 := by
  simp only [onReorg, mark?, Registry.rewind, Registry.get?_modifyAll, Option.map_map]
  congr 1

lemma onReorg_of_ne (s : Session) {e : Event} (h : ∀ startHeight, e ≠ .reorg startHeight) :
    s.onReorg e = s := by
  cases e with
  | reorg startHeight => exact absurd rfl (h startHeight)
  | _ => rfl

/-- That a session is still the same one: open or closed as it was, with its registrations, and
tidy if it was. -/
structure Keeps (s s' : Session) : Prop where
  id : s'.id = s.id
  connected : s'.connected = s.connected
  listeners : s'.listeners = s.listeners
  tidy : s.registry.Tidy → s'.registry.Tidy

lemma Keeps.refl (s : Session) : s.Keeps s :=
  ⟨rfl, rfl, rfl, fun h => h⟩

lemma Keeps.trans {s s' s'' : Session} (h : s.Keeps s') (h' : s'.Keeps s'') : s.Keeps s'' :=
  ⟨h'.id.trans h.id, h'.connected.trans h.connected, h'.listeners.trans h.listeners,
    fun tidy => h'.tidy (h.tidy tidy)⟩

lemma keeps_onEvent (s : Session) (e : Event) : s.Keeps (s.onEvent e).1 := by
  cases e with
  | scanPage p =>
    simp only [onEvent, onPage]
    split
    · exact ⟨rfl, rfl, rfl, fun tidy => tidy.modify p.subscription.address
        (·.recordDelivered p.history) fun _ => rfl⟩
    · exact Keeps.refl s
  | mempoolRemoved txids =>
    exact ⟨rfl, rfl, rfl, fun tidy => tidy.modifyAll (·.evict txids) fun _ => rfl⟩
  | _ => exact Keeps.refl s

lemma keeps_onReorg (s : Session) (e : Event) : s.Keeps (s.onReorg e) := by
  cases e with
  | reorg startHeight =>
    exact ⟨rfl, rfl, rfl, fun tidy =>
      tidy.modifyAll (·.resetHighest (startHeight - 1)) fun _ => rfl⟩
  | _ => exact Keeps.refl s

end Session
end SilentScan
