/-
A registry as a function of what has been done with it.

An address is watched from the last time it was watched anew until it is dropped or everything is
forgotten. What its subscription holds then depends on what has been done since: the labels on what
the client asked for, the mark on the last reorganisation and the entries delivered after it, and
the unconfirmed transactions on those delivered and those dropped since they were.

* `RegistryOp`, `Registry.afterAll`: operations one after another;
* `Registry.get?_afterAll`: the subscription after operations that do not decide on it;
* `Registry.WatchedLast`, `Registry.watches_afterAll_iff`: when an address is watched;
* `LabelSet.mem_toList_ofRaw`, `highest_of_no_rewind`, `highest_of_rewind`, `mem_mempool_foldl`:
  labels, mark and unconfirmed transactions;
* `Subscription.Follows`, `follows_foldl`: a subscription since it was made;
* `Registry.get?_filter`, `Registry.same_of_addresses_ne`: operations on other addresses;
* `registry_follows_operations`: all of it.
-/
import Mathlib.Data.Int.Order.Basic
import Mathlib.Data.List.Induction
import Mathlib.Data.List.Nodup
import Mathlib.Order.Bounds.Defs
import SilentScan.Proofs.Session.Marks

namespace SilentScan

/-- Something that is done with a registry. -/
inductive RegistryOp where
  | subscribe (address : ScanAddress) (rawLabels : List (Option Int))
  | unsubscribe (key : String)
  | deliver (key : String) (history : List TxEntry)
  | evict (txids : List Txid)
  | rewind (startHeight : Int)
  | clear
  | setHeaders (on : Bool)
  | subscribeHash (hash : String)
  | unsubscribeHash (hash : String)

namespace RegistryOp

/-- Does it. -/
def apply (r : Registry) : RegistryOp → Registry
  | .subscribe address rawLabels => (r.subscribe address rawLabels).2
  | .unsubscribe key => (r.unsubscribe key).2
  | .deliver key history => (r.deliver key history).2
  | .evict txids => r.evict txids
  | .rewind startHeight => (r.rewind startHeight).2
  | .clear => r.clear
  | .setHeaders on => r.setHeaders on
  | .subscribeHash hash => r.subscribeHash hash
  | .unsubscribeHash hash => (r.unsubscribeHash hash).2

/-- The one address that is dealt with. -/
def address? : RegistryOp → Option String
  | .subscribe address _ => some address.address
  | .unsubscribe key | .deliver key _ => some key
  | _ => none

/-- Whether it is decided if an address is watched. -/
def decides (key : String) : RegistryOp → Bool
  | .subscribe address _ => address.address = key
  | .unsubscribe k => k = key
  | .clear => true
  | _ => false

/-- Whether an address is dealt with, perhaps together with all others. -/
def concerns (key : String) : RegistryOp → Bool
  | .subscribe address _ => address.address = key
  | .unsubscribe k | .deliver k _ => k = key
  | .evict _ | .rewind _ | .clear => true
  | .setHeaders _ | .subscribeHash _ | .unsubscribeHash _ => false

/-- The entries delivered for an address. -/
def entriesFor (key : String) : RegistryOp → List TxEntry
  | .deliver k history => if k = key then history else []
  | _ => []

/-- What becomes of the subscription of an address that stays watched. -/
def change (key : String) (s : Subscription) : RegistryOp → Subscription
  | .deliver k history => if key = k then s.recordDelivered history else s
  | .evict txids => s.evict txids
  | .rewind startHeight => s.resetHighest (startHeight - 1)
  | _ => s

end RegistryOp

namespace Registry

/-- The registry after operations one after another. -/
def afterAll (r : Registry) (ops : List RegistryOp) : Registry :=
  ops.foldl RegistryOp.apply r

lemma afterAll_append (r : Registry) (ops more : List RegistryOp) :
    r.afterAll (ops ++ more) = (r.afterAll ops).afterAll more :=
  List.foldl_append

/-! ### One operation -/

/-- An operation that does not decide on an address changes its subscription if there is one. -/
lemma get?_apply (r : Registry) {key : String} {op : RegistryOp} (h : op.decides key = false) :
    (op.apply r).get? key = (r.get? key).map (RegistryOp.change key · op) := by
  cases op with
  | subscribe address rawLabels =>
    have hne : key ≠ address.address := by simpa [RegistryOp.decides, eq_comm] using h
    simp [RegistryOp.apply, RegistryOp.change, subscribe, get?, lookup_put, hne]
  | unsubscribe k =>
    have hne : key ≠ k := by simpa [RegistryOp.decides, eq_comm] using h
    rw [RegistryOp.apply, get?_unsubscribe, if_neg hne]
    exact Option.map_id'.symm
  | deliver k history => exact get?_modify r k key _
  | evict txids => exact get?_modifyAll r key _
  | rewind startHeight => exact get?_modifyAll r key _
  | clear => simp [RegistryOp.decides] at h
  | setHeaders on => exact Option.map_id'.symm
  | subscribeHash hash =>
    rw [RegistryOp.apply, subscribeHash]
    split <;> exact Option.map_id'.symm
  | unsubscribeHash hash => exact Option.map_id'.symm

/-- What is found after an operation that decides on an address. -/
lemma get?_apply_of_decides (r : Registry) {key : String} {op : RegistryOp}
    (h : op.decides key = true) :
    (op.apply r).get? key = match op with
      | .subscribe address rawLabels => some { address, labels := .ofRaw rawLabels }
      | _ => none := by
  cases op with
  | subscribe address rawLabels =>
    obtain rfl : address.address = key := by simpa [RegistryOp.decides] using h
    simp [RegistryOp.apply, subscribe, get?, lookup_put]
  | unsubscribe k =>
    obtain rfl : k = key := by simpa [RegistryOp.decides] using h
    simp [RegistryOp.apply, get?_unsubscribe]
  | clear => rfl
  | _ => cases h

/-! ### Operations one after another -/

/-- Operations that do not decide on an address change its subscription one after another. -/
lemma get?_afterAll (r : Registry) {key : String} {ops : List RegistryOp}
    (h : ∀ op ∈ ops, op.decides key = false) :
    (r.afterAll ops).get? key = (r.get? key).map fun s => ops.foldl (RegistryOp.change key) s := by
  induction ops generalizing r with
  | nil => exact Option.map_id'.symm
  | cons op ops ih =>
    obtain ⟨hop, hops⟩ := List.forall_mem_cons.1 h
    rw [afterAll, List.foldl_cons]
    rw [← afterAll, ih _ hops, get?_apply r hop, Option.map_map]
    rfl

/-- The subscription since an address has been watched anew. -/
lemma get?_afterAll_subscribe (r : Registry) (before : List RegistryOp) (address : ScanAddress)
    (rawLabels : List (Option Int)) {after : List RegistryOp}
    (h : ∀ op ∈ after, op.decides address.address = false) :
    (r.afterAll (before ++ .subscribe address rawLabels :: after)).get? address.address
      = some (after.foldl (RegistryOp.change address.address)
          { address, labels := .ofRaw rawLabels }) := by
  rw [afterAll_append, afterAll, List.foldl_cons, ← afterAll, get?_afterAll _ h,
    get?_apply_of_decides _ (by simp [RegistryOp.decides])]
  rfl

/-- That what was last decided on an address is to watch it anew, with some labels asked for and
some operations after that. -/
structure WatchedLast (ops : List RegistryOp) (key : String) (address : ScanAddress)
    (rawLabels : List (Option Int)) (after : List RegistryOp) : Prop where
  split : ∃ before, ops = before ++ .subscribe address rawLabels :: after
  named : address.address = key
  undecided : ∀ op ∈ after, op.decides key = false

/-- **An address is watched** exactly if what was last decided on it is to watch it. -/
lemma watches_afterAll_iff (ops : List RegistryOp) (key : String) :
    (({} : Registry).afterAll ops).watches key = true
      ↔ ∃ address rawLabels after, WatchedLast ops key address rawLabels after := by
  constructor
  · intro h
    induction ops using List.reverseRecOn with
    | nil => cases h
    | append_singleton ops op ih =>
      have hlast : (({} : Registry).afterAll (ops ++ [op])).get? key
          = (op.apply (({} : Registry).afterAll ops)).get? key := by
        rw [afterAll_append]
        rfl
      rw [watches, hlast] at h
      cases hdecides : op.decides key with
      | true =>
        rw [get?_apply_of_decides _ hdecides] at h
        cases op with
        | subscribe address rawLabels =>
          exact ⟨address, rawLabels, [], ⟨ops, rfl⟩, by simpa [RegistryOp.decides] using hdecides,
            fun _ hmem => absurd hmem List.not_mem_nil⟩
        | _ => cases h
      | false =>
        rw [get?_apply _ hdecides, Option.isSome_map] at h
        obtain ⟨address, rawLabels, after, ⟨before, rfl⟩, haddress, hafter⟩ := ih h
        refine ⟨address, rawLabels, after ++ [op], ⟨before, by simp⟩, haddress,
          fun op' hop' => ?_⟩
        rcases List.mem_append.1 hop' with hop' | hop'
        · exact hafter op' hop'
        · rwa [List.mem_singleton.1 hop']
  · rintro ⟨address, rawLabels, after, ⟨before, rfl⟩, rfl, hafter⟩
    rw [watches, get?_afterAll_subscribe _ _ _ _ hafter]
    rfl

end Registry

/-! ### Labels -/

namespace LabelSet

lemma mem_positive_foldl_insert (s : LabelSet) (ls : List Nat) (n : Nat) :
    n ∈ (ls.foldl insert s).positive
      ↔ n ∈ s.positive ∨ n ∈ ls ∧ 0 < n ∧ n < 0x1_0000_0000 := by
  induction ls generalizing s with
  | nil => simp
  | cons l ls ih =>
    have hinsert : n ∈ (s.insert l).positive
        ↔ n ∈ s.positive ∨ n = l ∧ 0 < n ∧ n < 0x1_0000_0000 := by
      rw [insert]
      split
      · rename_i hl
        rw [mem_insertAscending]
        constructor
        · rintro (rfl | hn)
          · exact Or.inr ⟨rfl, hl⟩
          · exact Or.inl hn
        · rintro (hn | ⟨rfl, -⟩)
          · exact Or.inr hn
          · exact Or.inl rfl
      · rename_i hl
        refine ⟨Or.inl, ?_⟩
        rintro (hn | ⟨rfl, hrange⟩)
        · exact hn
        · exact absurd hrange hl
    rw [List.foldl_cons, ih, hinsert, List.mem_cons, or_and_right, or_assoc]

/-- **The labels that a client asks for**: 0 and those in the range of labels. -/
lemma mem_toList_ofRaw (raw : List (Option Int)) (n : Nat) :
    n ∈ (ofRaw raw).toList ↔ n = 0 ∨ some (n : Int) ∈ raw ∧ 0 < n ∧ n < 0x1_0000_0000 := by
  rw [toList, List.mem_cons, ofRaw, ofList, mem_positive_foldl_insert]
  refine or_congr Iff.rfl ?_
  simp only [change, List.not_mem_nil, false_or]
  refine and_congr_left fun hrange => ?_
  rw [List.mem_filterMap]
  constructor
  · rintro ⟨asked, hasked, hn⟩
    obtain ⟨l, rfl, hl⟩ := Option.map_eq_some_iff.1 hn
    obtain rfl : l = n := by omega
    exact hasked
  · intro hasked
    exact ⟨some n, hasked, rfl⟩

lemma ascending_toList (s : LabelSet) : s.toList.Pairwise (· < ·) :=
  List.pairwise_cons.2 ⟨fun n hn => (s.inRange n hn).1, s.ascending⟩

end LabelSet

/-! ### The mark -/

/-- A raised mark is the greatest of the mark and the heights. -/
lemma isGreatest_raised (mark : Int) (entries : List TxEntry) :
    IsGreatest {h | h = mark ∨ ∃ e ∈ entries, h = e.height} (raised mark entries) := by
  constructor
  · induction entries generalizing mark with
    | nil => exact Or.inl rfl
    | cons e entries ih =>
      rcases ih (max mark e.height) with hmax | ⟨e', he', hheight⟩
      · have hchoice : max mark e.height = mark ∨ max mark e.height = e.height := by omega
        rcases hchoice with hmark | hmark
        · exact Or.inl (hmax.trans hmark)
        · exact Or.inr ⟨e, List.mem_cons_self, hmax.trans hmark⟩
      · exact Or.inr ⟨e', List.mem_cons_of_mem e he', hheight⟩
  · rintro h hh
    by_contra hlt
    obtain ⟨hmark, hentries⟩ := raised_lt_iff.1 (not_le.1 hlt)
    rcases hh with rfl | ⟨e, he, rfl⟩
    · exact lt_irrefl _ hmark
    · exact lt_irrefl _ (hentries e he)

/-- **The mark without reorganisations**: raised by the entries delivered. -/
lemma highest_of_no_rewind {key : String} {ops : List RegistryOp} (s : Subscription)
    (h : ∀ startHeight, .rewind startHeight ∉ ops) :
    (ops.foldl (RegistryOp.change key) s).highest
      = raised s.highest (ops.flatMap (·.entriesFor key)) := by
  induction ops generalizing s with
  | nil => rfl
  | cons op ops ih =>
    have hrest : ∀ startHeight, .rewind startHeight ∉ ops := fun startHeight hmem =>
      h startHeight (List.mem_cons_of_mem op hmem)
    have hop : (RegistryOp.change key s op).highest = raised s.highest (op.entriesFor key) := by
      cases op with
      | deliver k history =>
        by_cases hk : k = key
        · simp [RegistryOp.change, RegistryOp.entriesFor, hk, highest_recordDelivered]
        · simp [RegistryOp.change, RegistryOp.entriesFor, hk, Ne.symm hk]
      | rewind startHeight => exact absurd List.mem_cons_self (h startHeight)
      | _ => rfl
    rw [List.foldl_cons, ih _ hrest, hop, ← raised_append, List.flatMap_cons]

/-- **The mark since a reorganisation**: raised from below it. -/
lemma highest_of_rewind {key : String} {earlier later : List RegistryOp} (s : Subscription)
    (startHeight : Int) (h : ∀ startHeight', .rewind startHeight' ∉ later) :
    ((earlier ++ .rewind startHeight :: later).foldl (RegistryOp.change key) s).highest
      = raised (startHeight - 1) (later.flatMap (·.entriesFor key)) := by
  rw [List.foldl_append, List.foldl_cons, highest_of_no_rewind _ h]
  rfl

/-! ### The unconfirmed transactions -/

/-- That some entries name an unconfirmed transaction. -/
def NamesUnconfirmed (history : List TxEntry) (id : Txid) : Prop :=
  ∃ e ∈ history, e.height ≤ 0 ∧ Txid.parse? e.txHash = some id

lemma mem_foldl_addTxid (ids more : List Txid) (id : Txid) :
    id ∈ more.foldl Subscription.addTxid ids ↔ id ∈ ids ∨ id ∈ more := by
  induction more generalizing ids with
  | nil => simp
  | cons new more ih =>
    have hadd : id ∈ Subscription.addTxid ids new ↔ id ∈ ids ∨ id = new := by
      rw [Subscription.addTxid]
      split
      · rename_i hmem
        refine ⟨Or.inl, ?_⟩
        rintro (hid | rfl)
        · exact hid
        · simpa using hmem
      · simp
    rw [List.foldl_cons, ih, hadd, List.mem_cons, or_assoc]

lemma nodup_foldl_addTxid {ids : List Txid} (h : ids.Nodup) (more : List Txid) :
    (more.foldl Subscription.addTxid ids).Nodup := by
  induction more generalizing ids with
  | nil => exact h
  | cons new more ih =>
    refine ih ?_
    rw [Subscription.addTxid]
    split
    · exact h
    · rename_i hnew
      refine List.nodup_append.2 ⟨h, List.nodup_singleton new, fun a ha b hb => ?_⟩
      rw [List.mem_singleton.1 hb]
      rintro rfl
      exact hnew (by simpa using ha)

lemma mem_mempool_recordDelivered (s : Subscription) (history : List TxEntry) (id : Txid) :
    id ∈ (s.recordDelivered history).mempool ↔ id ∈ s.mempool ∨ NamesUnconfirmed history id := by
  rw [Subscription.recordDelivered, mem_foldl_addTxid]
  refine or_congr Iff.rfl ?_
  simp [NamesUnconfirmed, TxEntry.isUnconfirmed, List.mem_filterMap, and_assoc]

/-- That a transaction has been delivered for an address, and has not been dropped since. -/
def Held (key : String) (id : Txid) (ops : List RegistryOp) : Prop :=
  ∃ earlier history later, ops = earlier ++ .deliver key history :: later
    ∧ NamesUnconfirmed history id ∧ ∀ txids, .evict txids ∈ later → id ∉ txids

/-- What one more operation does to the transactions that are held. -/
lemma held_append_one (key : String) (id : Txid) (ops : List RegistryOp) (op : RegistryOp) :
    Held key id (ops ++ [op]) ↔ (Held key id ops ∧ ∀ txids, op = .evict txids → id ∉ txids)
      ∨ ∃ history, op = .deliver key history ∧ NamesUnconfirmed history id := by
  constructor
  · rintro ⟨earlier, history, later, heq, hnames, hkept⟩
    rcases List.eq_nil_or_concat later with rfl | ⟨later, last, rfl⟩
    · obtain ⟨-, hlast⟩ := List.append_inj' heq rfl
      exact Or.inr ⟨history, List.singleton_inj.1 hlast, hnames⟩
    · rw [List.concat_eq_append, ← List.cons_append, ← List.append_assoc] at heq
      obtain ⟨rfl, hlast⟩ := List.append_inj' heq rfl
      obtain rfl := List.singleton_inj.1 hlast
      refine Or.inl ⟨⟨earlier, history, later, rfl, hnames, fun txids hmem => ?_⟩, ?_⟩
      · exact hkept txids (by simp [hmem])
      · rintro txids rfl
        exact hkept txids (by simp)
  · rintro (⟨⟨earlier, history, later, rfl, hnames, hkept⟩, hop⟩ | ⟨history, rfl, hnames⟩)
    · refine ⟨earlier, history, later ++ [op], by simp, hnames, fun txids hmem => ?_⟩
      rcases List.mem_append.1 hmem with hmem | hmem
      · exact hkept txids hmem
      · exact hop txids (List.mem_singleton.1 hmem).symm
    · exact ⟨ops, history, [], rfl, hnames, fun _ hmem => absurd hmem List.not_mem_nil⟩

/-- What one operation does to the unconfirmed transactions. -/
lemma mem_mempool_change (key : String) (s : Subscription) (op : RegistryOp) (id : Txid) :
    id ∈ (RegistryOp.change key s op).mempool
      ↔ (id ∈ s.mempool ∧ ∀ txids, op = .evict txids → id ∉ txids)
        ∨ ∃ history, op = .deliver key history ∧ NamesUnconfirmed history id := by
  cases op with
  | deliver k history =>
    by_cases hk : key = k
    · subst hk
      simp [RegistryOp.change, mem_mempool_recordDelivered]
    · simp [RegistryOp.change, hk, Ne.symm hk]
  | evict txids => simp [RegistryOp.change, Subscription.evict]
  | rewind startHeight => simp [RegistryOp.change, Subscription.resetHighest]
  | _ => simp [RegistryOp.change]

/-- **The unconfirmed transactions**: those delivered and not dropped since, without repetitions. -/
lemma mem_mempool_foldl (key : String) {s : Subscription} (h : s.mempool = [])
    (ops : List RegistryOp) : (ops.foldl (RegistryOp.change key) s).mempool.Nodup
      ∧ ∀ id, id ∈ (ops.foldl (RegistryOp.change key) s).mempool ↔ Held key id ops := by
  induction ops using List.reverseRecOn with
  | nil => simp [h, Held]
  | append_singleton ops op ih =>
    obtain ⟨hnodup, hmem⟩ := ih
    rw [List.foldl_append]
    refine ⟨?_, fun id => ?_⟩
    · cases op with
      | deliver k history =>
        rw [List.foldl_cons, List.foldl_nil, RegistryOp.change]
        split
        · exact nodup_foldl_addTxid hnodup _
        · exact hnodup
      | evict txids => exact hnodup.filter _
      | _ => exact hnodup
    · rw [List.foldl_cons, List.foldl_nil, mem_mempool_change, hmem, held_append_one]

/-! ### A subscription since it was made -/

/-- What a subscription holds since its address was watched anew, with some labels asked for and
some operations after that. -/
structure Subscription.Follows (sub : Subscription) (address : ScanAddress)
    (rawLabels : List (Option Int)) (ops : List RegistryOp) : Prop where
  own : sub.address = address
  ascending : sub.labels.toList.Pairwise (· < ·)
  labels : ∀ n, n ∈ sub.labels.toList
    ↔ n = 0 ∨ some (n : Int) ∈ rawLabels ∧ 0 < n ∧ n < 0x1_0000_0000
  /-- Without a reorganisation the mark is raised from 0. -/
  unwound : (∀ startHeight, .rewind startHeight ∉ ops) →
    IsGreatest {h | h = 0 ∨ ∃ e ∈ ops.flatMap (·.entriesFor address.address), h = e.height}
      sub.highest
  /-- The last reorganisation sets the mark below it. -/
  rewound : ∀ earlier startHeight later, ops = earlier ++ .rewind startHeight :: later →
    (∀ startHeight', .rewind startHeight' ∉ later) →
    IsGreatest {h | h = startHeight - 1
      ∨ ∃ e ∈ later.flatMap (·.entriesFor address.address), h = e.height} sub.highest
  nodup : sub.mempool.Nodup
  mempool : ∀ id, id ∈ sub.mempool ↔ Held address.address id ops

/-- No operation changes whose subscription it is, nor its labels. -/
lemma change_keeps (key : String) (s : Subscription) (op : RegistryOp) :
    (RegistryOp.change key s op).address = s.address
      ∧ (RegistryOp.change key s op).labels = s.labels := by
  cases op with
  | deliver k history =>
    rw [RegistryOp.change]
    split <;> exact ⟨rfl, rfl⟩
  | _ => exact ⟨rfl, rfl⟩

lemma foldl_change_keeps (key : String) (s : Subscription) (ops : List RegistryOp) :
    (ops.foldl (RegistryOp.change key) s).address = s.address
      ∧ (ops.foldl (RegistryOp.change key) s).labels = s.labels := by
  induction ops generalizing s with
  | nil => exact ⟨rfl, rfl⟩
  | cons op ops ih =>
    obtain ⟨haddress, hlabels⟩ := change_keeps key s op
    obtain ⟨haddress', hlabels'⟩ := ih (RegistryOp.change key s op)
    exact ⟨haddress'.trans haddress, hlabels'.trans hlabels⟩

/-- **A subscription since it was made.** -/
lemma follows_foldl (address : ScanAddress) (rawLabels : List (Option Int))
    (ops : List RegistryOp) :
    Subscription.Follows (ops.foldl (RegistryOp.change address.address)
      { address, labels := .ofRaw rawLabels }) address rawLabels ops := by
  obtain ⟨haddress, hlabels⟩ :=
    foldl_change_keeps address.address { address, labels := .ofRaw rawLabels } ops
  have hempty : ({ address, labels := .ofRaw rawLabels } : Subscription).mempool = [] := rfl
  obtain ⟨hnodup, hmempool⟩ := mem_mempool_foldl address.address hempty ops
  refine ⟨haddress, ?_, fun n => ?_, fun h => ?_, fun earlier startHeight later heq h => ?_,
    hnodup, hmempool⟩
  · rw [hlabels]
    exact LabelSet.ascending_toList _
  · rw [hlabels]
    exact LabelSet.mem_toList_ofRaw rawLabels n
  · rw [highest_of_no_rewind _ h]
    exact isGreatest_raised _ _
  · rw [heq, highest_of_rewind _ _ h]
    exact isGreatest_raised _ _

/-! ### Operations on other addresses -/

namespace Registry

lemma tidy_apply {r : Registry} (tidy : r.Tidy) (op : RegistryOp) : (op.apply r).Tidy := by
  cases op with
  | subscribe address rawLabels => exact tidy.subscribe address rawLabels
  | unsubscribe key => exact tidy.unsubscribe key
  | deliver key history => exact tidy.modify key (·.recordDelivered history) fun _ => rfl
  | evict txids => exact tidy.modifyAll (·.evict txids) fun _ => rfl
  | rewind startHeight => exact tidy.modifyAll (·.resetHighest (startHeight - 1)) fun _ => rfl
  | clear => exact tidy_empty
  | subscribeHash hash =>
    rw [RegistryOp.apply, subscribeHash]
    split
    · exact tidy
    · exact ⟨tidy.nodup, tidy.named⟩
  | _ => exact ⟨tidy.nodup, tidy.named⟩

lemma tidy_afterAll {r : Registry} (tidy : r.Tidy) (ops : List RegistryOp) :
    (r.afterAll ops).Tidy := by
  induction ops generalizing r with
  | nil => exact tidy
  | cons op ops ih => exact ih (tidy_apply tidy op)

/-- What does not concern an address leaves its subscription. -/
lemma get?_apply_of_not_concerns (r : Registry) {key : String} {op : RegistryOp}
    (h : op.concerns key = false) : (op.apply r).get? key = r.get? key := by
  have hdecides : op.decides key = false := by
    cases op <;> simp_all [RegistryOp.concerns, RegistryOp.decides]
  have hchange : ∀ s, RegistryOp.change key s op = s := by
    intro s
    cases op with
    | deliver k history =>
      have hk : key ≠ k := by simpa [RegistryOp.concerns, eq_comm] using h
      exact if_neg hk
    | evict txids => cases h
    | rewind startHeight => cases h
    | _ => rfl
  rw [get?_apply r hdecides, funext hchange]
  exact Option.map_id'

/-- What concerns an address changes its subscription in the same way, whatever else is in the
registry. -/
lemma get?_apply_congr {r r' : Registry} {key : String} (op : RegistryOp)
    (h : r.get? key = r'.get? key) : (op.apply r).get? key = (op.apply r').get? key := by
  cases hdecides : op.decides key with
  | true => rw [get?_apply_of_decides r hdecides, get?_apply_of_decides r' hdecides]
  | false => rw [get?_apply r hdecides, get?_apply r' hdecides, h]

/-- **Only what concerns an address matters to it.** -/
lemma get?_filter (r : Registry) (ops : List RegistryOp) (key : String) :
    (r.afterAll (ops.filter (·.concerns key))).get? key = (r.afterAll ops).get? key := by
  induction ops using List.reverseRecOn with
  | nil => rfl
  | append_singleton ops op ih =>
    rw [List.filter_append, afterAll_append, afterAll_append]
    cases hconcerns : op.concerns key with
    | true =>
      rw [List.filter_cons_of_pos hconcerns]
      exact get?_apply_congr op ih
    | false =>
      rw [List.filter_cons_of_neg (by simp [hconcerns])]
      exact ih.trans (get?_apply_of_not_concerns _ hconcerns).symm

/-- Registries in which the same is found hold the same subscriptions, if perhaps in another
order. -/
lemma perm_of_get?_eq {r r' : Registry} (tidy : r.Tidy) (tidy' : r'.Tidy)
    (h : ∀ key, r.get? key = r'.get? key) : r.subscriptions.Perm r'.subscriptions := by
  refine (List.perm_ext_iff_of_nodup tidy.nodup.of_map tidy'.nodup.of_map).2 fun p => ?_
  constructor
  · intro hp
    exact mem_of_get?_eq_some (h p.1 ▸ tidy.get?_of_mem hp)
  · intro hp
    exact mem_of_get?_eq_some ((h p.1).symm ▸ tidy'.get?_of_mem hp)

/-- That two registries are the same, but perhaps for the order of the addresses. -/
structure Same (r r' : Registry) : Prop where
  headers : r.headers = r'.headers
  scriptHashes : r.scriptHashes = r'.scriptHashes
  get?_eq : ∀ key, r.get? key = r'.get? key
  perm : r.subscriptions.Perm r'.subscriptions

lemma concerns_of_address? {op : RegistryOp} {key k : String} (h : op.address? = some k)
    (hne : key ≠ k) : op.concerns key = false := by
  cases op with
  | subscribe | unsubscribe | deliver =>
    obtain rfl := Option.some.inj h
    simpa [RegistryOp.concerns, eq_comm] using hne
  | _ => cases h

/-- What is done with an address does not matter to the best block and to script hashes. -/
lemma keeps_of_address? (r : Registry) {op : RegistryOp} {k : String} (h : op.address? = some k) :
    (op.apply r).headers = r.headers ∧ (op.apply r).scriptHashes = r.scriptHashes := by
  cases op with
  | subscribe | unsubscribe | deliver => exact ⟨rfl, rfl⟩
  | _ => cases h

lemma get?_apply_comm (r : Registry) {key : String} (a : RegistryOp) {b : RegistryOp}
    (h : b.concerns key = false) :
    (b.apply (a.apply r)).get? key = (a.apply (b.apply r)).get? key :=
  (get?_apply_of_not_concerns _ h).trans (get?_apply_congr a (get?_apply_of_not_concerns r h).symm)

/-- **Operations on two addresses commute.** -/
lemma same_of_addresses_ne {r : Registry} (tidy : r.Tidy) {a b : RegistryOp} {k k' : String}
    (ha : a.address? = some k) (hb : b.address? = some k') (hne : k ≠ k') :
    (b.apply (a.apply r)).Same (a.apply (b.apply r)) := by
  have hget : ∀ key, (b.apply (a.apply r)).get? key = (a.apply (b.apply r)).get? key := by
    intro key
    by_cases hkey : key = k
    · exact get?_apply_comm r a (concerns_of_address? hb (hkey ▸ hne))
    · exact (get?_apply_comm r b (concerns_of_address? ha hkey)).symm
  obtain ⟨hheaders, hhashes⟩ := keeps_of_address? r ha
  obtain ⟨hheaders', hhashes'⟩ := keeps_of_address? r hb
  obtain ⟨hab, hab'⟩ := keeps_of_address? (a.apply r) hb
  obtain ⟨hba, hba'⟩ := keeps_of_address? (b.apply r) ha
  exact ⟨by rw [hab, hheaders, hba, hheaders'], by rw [hab', hhashes, hba', hhashes'], hget,
    perm_of_get?_eq (tidy_apply (tidy_apply tidy a) b) (tidy_apply (tidy_apply tidy b) a) hget⟩

end Registry

/-- **A registry as a function of what has been done with it.** An address is watched exactly if
what was last decided on it is to watch it. Its subscription then holds what follows from that and
from the operations after it. Nothing that does not concern the address matters, and operations on
two addresses may change places. -/
theorem registry_follows_operations (ops : List RegistryOp) (key : String) :
    ((({} : Registry).afterAll ops).watches key = true
      ↔ ∃ address rawLabels after, Registry.WatchedLast ops key address rawLabels after)
    ∧ (∀ address rawLabels after, Registry.WatchedLast ops key address rawLabels after →
        ∃ sub, (({} : Registry).afterAll ops).get? key = some sub
          ∧ sub.Follows address rawLabels after)
    ∧ (({} : Registry).afterAll (ops.filter (·.concerns key))).get? key
        = (({} : Registry).afterAll ops).get? key
    ∧ ∀ (a b : RegistryOp) (k k' : String), a.address? = some k → b.address? = some k' → k ≠ k' →
        (({} : Registry).afterAll (ops ++ [a, b])).Same
          (({} : Registry).afterAll (ops ++ [b, a])) := by
  refine ⟨Registry.watches_afterAll_iff ops key, ?_, Registry.get?_filter {} ops key, ?_⟩
  · rintro address rawLabels after ⟨⟨before, rfl⟩, rfl, hafter⟩
    exact ⟨_, Registry.get?_afterAll_subscribe {} before address rawLabels hafter,
      follows_foldl address rawLabels after⟩
  · intro a b k k' ha hb hne
    rw [Registry.afterAll_append, Registry.afterAll_append]
    exact Registry.same_of_addresses_ne (Registry.tidy_afterAll Registry.tidy_empty ops) ha hb hne

end SilentScan
