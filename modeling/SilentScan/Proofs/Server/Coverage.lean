/-
Whether an append is scanned for everybody.

A session scans new blocks for the subscriptions whose mark is below them. While no blocks are
disconnected, the entries that go out come from rows at or below the tip, from unconfirmed rows,
or from batches that are written and not announced yet; so an append above the tip finds no mark
above the tip but for these. It is another matter that marks start at zero: before the first block
the tip is below zero, and the first append is scanned for nobody.

* `Server.Met`, `Server.Known`, `Known.step`, `Known.play`: what scans can have met;
* `append_scanned_iff`: the scans of an append, after anything that may happen;
* `append_on_chain_scanned`, `first_append_unscanned`: an append on a block that is indexed, and
  the first append of all.
-/
import SilentScan.Proofs.Index.Announcement
import SilentScan.Proofs.Index.Rows
import SilentScan.Proofs.Scan.Lifetime
import SilentScan.Proofs.Server.Basic

namespace SilentScan

/-- A tip falls only by a rewind. -/
lemma le_tipStep (last : Int) {c : IndexChange} (h : ∀ startHeight, c ≠ .rewind startHeight) :
    last ≤ tipStep last c := by
  cases c with
  | add txs =>
    rw [tipStep]
    split <;> omega
  | rewind startHeight => exact absurd rfl (h startHeight)
  | _ => exact Int.le_refl _

/-- Entries stand at the heights of their rows. -/
lemma height_of_toEntry {c : Curve} {m : RawMatch} {entry : TxEntry}
    (h : toEntry c m = some entry) : entry.height = m.height := by
  rw [toEntry] at h
  split at h
  · obtain rfl := Option.some.inj h
    rfl
  · cases h

namespace Server

/-! ### What scans can have met -/

/-- The heights that scans can have met: those outside the chain, those up to the tip, and those of
a batch that is written and not announced. -/
def Met (sv : Server) (height : Int) : Prop :=
  height ≤ 0 ∨ height ≤ sv.index.tip.lastIndexed
    ∨ ∃ txs ∈ sv.incoming, ∃ tx ∈ txs, tx.height = height

/-- That the index as scans meet it, the scans and an account keep to the heights that can have been
met. -/
structure Known (s : Scheme) (sv : Server) (a : Account) : Prop where
  views : ∀ st ∈ sv.views, ∀ height ∈ st.heights, sv.Met height
  within : sv.hub.Within s.curve sv.Met a
  base : a.base = 0

variable {s : Scheme} {settings : ScanSettings}

/-- A server begun on an index, before anything has happened. -/
lemma known_start {start : Store} (made : start.Made) : Known s { index := start } {} where
  views st hst height hmem := by
    obtain rfl := List.mem_singleton.1 hst
    exact (Store.height_le_of_made made height hmem).imp_right Or.inl
  within := ⟨fun _ hp => absurd hp List.not_mem_nil, fun _ he => absurd he List.not_mem_nil⟩
  base := rfl

/-- What may happen brings no other heights to the scans. -/
lemma Known.admits {sv : Server} {a : Account} (known : Known s sv a) {c : Happening}
    (allows : sv.Allows s settings c) : ∀ input ∈ sv.inputs c, Hub.Admits s.curve sv.Met input := by
  intro input hinput
  cases c with
  | write txs => exact absurd hinput List.not_mem_nil
  | change c =>
    obtain ⟨e, he, rfl⟩ := List.mem_map.1 hinput
    intro p
    rcases Store.event_of_change he with ⟨_, _, _, rfl⟩ | ⟨_, rfl⟩ | ⟨_, rfl⟩ | ⟨_, _, rfl⟩ <;> simp
  | hub input' =>
    obtain rfl := List.mem_singleton.1 hinput
    cases input with
    | publish e =>
      rintro p rfl
      exact allows
    | scan k move =>
      intro alive m entry hpush hentry
      obtain ⟨_, _, _, _, st, hst, _, _, hsent⟩ := allows alive m hpush
      rw [height_of_toEntry hentry]
      exact known.views st hst _ (Store.height_of_sent hsent)
    | _ => trivial

/-- An announced batch leaves the tip at or above all its confirmed transactions. -/
lemma le_tipStep_add (last : Int) {txs : List IndexedTransaction} {tx : IndexedTransaction}
    (h : tx ∈ txs) : tx.height ≤ 0 ∨ tx.height ≤ tipStep last (.add txs) := by
  cases htop : IndexTip.top? txs with
  | none =>
    have hnone := IndexTip.top?_eq_none_iff.1 htop
    exact Or.inl (Int.not_lt.1 fun hpos => hnone ⟨tx, h, hpos⟩)
  | some m =>
    have hm := (IndexTip.top?_eq_some htop).2 tx h
    simp only [tipStep, htop]
    omega

/-- What can have been met stays so. -/
lemma Met.step {sv : Server} {c : Happening}
    (hforward : ∀ startHeight, c ≠ .change (.rewind startHeight)) {height : Int}
    (met : sv.Met height) : (sv.step s settings c).Met height := by
  cases c with
  | write txs =>
    refine met.imp_right (Or.imp_right ?_)
    rintro ⟨txs', hincoming, hbatch⟩
    exact ⟨txs', List.mem_append_left _ hincoming, hbatch⟩
  | change c =>
    have hforward' : ∀ startHeight, c ≠ .rewind startHeight := by simpa using hforward
    have htip : (sv.step s settings (.change c)).index.tip.lastIndexed
        = tipStep sv.index.tip.lastIndexed c := Store.lastIndexed_after sv.index c
    have hle := le_tipStep sv.index.tip.lastIndexed hforward'
    rcases met with hlow | hmet | ⟨txs, hincoming, tx, htx, rfl⟩
    · exact Or.inl hlow
    · exact Or.inr (Or.inl (by omega))
    · by_cases hadd : c = .add txs
      · subst hadd
        have := le_tipStep_add sv.index.tip.lastIndexed htx
        rw [← htip] at this
        exact this.imp_right Or.inl
      · have hstill : txs ∈ unannounced sv.incoming c := by
          cases c with
          | add txs' =>
            have hne : txs ≠ txs' := fun h => hadd (h ▸ rfl)
            exact (List.mem_erase_of_ne hne).2 hincoming
          | _ => exact hincoming
        exact Or.inr (Or.inr ⟨txs, hstill, tx, htx, rfl⟩)
  | hub input => exact met

/-- The index as scans meet it keeps to what can have been met. -/
lemma Known.views_step {sv : Server} {a : Account} (known : Known s sv a) {c : Happening}
    (hforward : ∀ startHeight, c ≠ .change (.rewind startHeight)) :
    ∀ st ∈ (sv.step s settings c).views, ∀ height ∈ st.heights,
      (sv.step s settings c).Met height := by
  intro st hst height hmem
  have hold : ∀ st ∈ sv.views, height ∈ st.heights → (sv.step s settings c).Met height :=
    fun st hst hmem => (known.views st hst height hmem).step hforward
  cases c with
  | write txs =>
    rcases List.mem_append.1 hst with hst | hst
    · exact hold st hst hmem
    · obtain ⟨st', hst', rfl⟩ := List.mem_map.1 hst
      rcases Store.heights_after hmem with hmem | ⟨txs', hadd, hbatch⟩
      · exact hold st' hst' hmem
      · obtain rfl := IndexChange.add.inj hadd
        exact Or.inr (Or.inr ⟨txs, List.mem_append_right _ List.mem_cons_self, hbatch⟩)
  | change c =>
    rcases List.mem_append.1 hst with hst | hst
    · exact hold st hst hmem
    · obtain ⟨st', hst', rfl⟩ := List.mem_map.1 hst
      rcases Store.heights_after hmem with hmem | ⟨txs', rfl, tx, htx, rfl⟩
      · exact hold st' hst' hmem
      · have := le_tipStep_add sv.index.tip.lastIndexed htx
        rw [← Store.lastIndexed_after] at this
        exact this.imp_right Or.inl
  | hub input => exact hold st hst hmem

/-- **What scans can have met** stays known, whatever may happen but a rewind. -/
lemma Known.step {id : SessionId} {key : String} {sv : Server} {a : Account}
    (sound : sv.hub.Sound) (known : Known s sv a) {c : Happening}
    (allows : sv.Allows s settings c)
    (hforward : ∀ startHeight, c ≠ .change (.rewind startHeight)) :
    Known s (sv.step s settings c)
      (sv.hub.accountAfter s settings id key a (sv.inputs c)) where
  views := known.views_step hforward
  within := by
    have hwithin : (sv.step s settings c).hub.Within s.curve sv.Met
        (sv.hub.accountAfter s settings id key a (sv.inputs c)) := by
      rw [hub_step]
      exact known.within.actAll s settings sound (known.admits allows)
    exact hwithin.mono fun height met => met.step hforward
  base := by
    have hevent : ∀ startHeight, c ≠ .hub (.publish (.reorg startHeight)) := by
      rintro startHeight rfl
      exact allows
    rw [Hub.base_accountAfter s settings (inputs_forward hforward hevent), known.base]
    split <;> rfl

/-- **What scans can have met** over a run without rewinds. -/
lemma Known.play {id : SessionId} {key : String} {sv : Server} {a : Account}
    (sound : sv.hub.Sound) (known : Known s sv a) {cs : List Happening}
    (lawful : Lawful s settings sv cs)
    (hforward : ∀ startHeight, .change (.rewind startHeight) ∉ cs) :
    Known s (sv.play s settings cs) (sv.account s settings id key a cs) := by
  induction cs generalizing sv a with
  | nil => exact known
  | cons c cs ih =>
    obtain ⟨hallows, hrest⟩ := lawful
    have hstep : ∀ startHeight, c ≠ .change (.rewind startHeight) := fun startHeight h =>
      hforward startHeight (h ▸ List.mem_cons_self)
    refine ih ?_ (known.step sound hallows hstep) hrest fun startHeight h =>
      hforward startHeight (List.mem_cons_of_mem _ h)
    rw [hub_step]
    exact sound.actAll s settings _

/-! ### The scans of an append -/

/-- The entries that have gone out for a subscription since its address was last watched anew, over
a run from a start. -/
def gone (s : Scheme) (settings : ScanSettings) (start : Store) (history : List Happening)
    (id : SessionId) (sub : Subscription) : List TxEntry :=
  (account s settings id sub.address.address { index := start } {} history).entries

/-- What has gone out is at or below the tip, or at the height of a batch that is written and not
announced; so if the only such batch is one of which nothing has gone out, it is at or below the
tip or outside the chain. -/
lemma Known.gone_le {sv : Server} {a : Account} (known : Known s sv a)
    {txs : List IndexedTransaction} (alone : ∀ other ∈ sv.incoming, other = txs)
    (undelivered : ∀ entry ∈ a.entries, ∀ tx ∈ txs, 0 < tx.height → entry.height < tx.height) :
    ∀ entry ∈ a.entries, entry.height ≤ 0 ∨ entry.height ≤ sv.index.tip.lastIndexed := by
  intro entry hentry
  rcases known.within.out entry hentry with hlow | hmet | ⟨other, hother, tx, htx, heq⟩
  · exact Or.inl hlow
  · exact Or.inr hmet
  · rw [alone other hother] at htx
    refine Or.inl (Int.not_lt.1 fun hpos => ?_)
    have := undelivered entry hentry tx htx (heq ▸ hpos)
    omega

end Server

/-- Whether the bounds of a scan contain a height. -/
def ScanRequest.Covers (r : ScanRequest) (height : Int) : Prop :=
  r.startHeight.getD heightMin ≤ height ∧ height ≤ r.endHeight.getD heightMax

namespace Server

/-- Whether an append makes a session scan for a subscription over all confirmed heights of the
batch. -/
def ScansFor (s : Scheme) (settings : ScanSettings) (sv : Server) (txs : List IndexedTransaction)
    (id : SessionId) (sub : Subscription) : Prop :=
  ∃ r ∈ sv.begun (sv.step s settings (.change (.add txs))), r.owner = id
    ∧ r.address = sub.address ∧ r.labels = sub.labels
    ∧ ∀ tx ∈ txs, 0 < tx.height → r.Covers tx.height

variable {s : Scheme} {settings : ScanSettings}

/-- An append above the tip is scanned for a subscription if its mark is at or below the tip. -/
lemma scansFor_iff_highest {sv : Server} (sound : sv.hub.Sound) {id : SessionId}
    {sub : Subscription} (holds : sv.hub.Holds id sub) {txs : List IndexedTransaction}
    (confirmed : HasConfirmed txs)
    (above : ∀ tx ∈ txs, 0 < tx.height → sv.index.tip.lastIndexed < tx.height) :
    ScansFor s settings sv txs id sub ↔ sub.highest ≤ sv.index.tip.lastIndexed := by
  cases htop : IndexTip.top? txs with
  | none => exact absurd confirmed (IndexTip.top?_eq_none_iff.1 htop)
  | some m =>
    have hle := (IndexTip.top?_eq_some htop).2
    constructor
    · rintro ⟨r, hr, howner, haddress, _⟩
      exact ((begun_add_iff s settings sound holds htop r).1 ⟨hr, howner, haddress⟩).1
    · intro hlow
      obtain ⟨hr, howner, haddress⟩ := (begun_add_iff s settings sound holds htop _).2 ⟨hlow, rfl⟩
      exact ⟨_, hr, howner, haddress, rfl, fun tx htx hpos => ⟨above tx htx hpos, hle tx htx⟩⟩

/-- **When an append is scanned for a subscription**: after anything that may happen to an index and
its sessions but a rewind, let a batch be announced whose confirmed transactions, at least one, are
above the tip, while a connected session holds a subscription for which no entry has gone out at or
above one of their heights. Then the session scans all these heights for it if and only if the tip
is zero or more and no entry has gone out above the tip; and where no other batch is written at the
time, if and only if the tip is zero or more. Before the first block the tip is below zero. -/
theorem append_scanned_iff {start : Store} (made : start.Made) {history : List Happening}
    (lawful : Lawful s settings { index := start } history)
    (forward : ∀ startHeight, .change (.rewind startHeight) ∉ history) {sv : Server}
    (hsv : sv = play s settings { index := start } history) {id : SessionId} {sub : Subscription}
    (holds : sv.hub.Holds id sub) {txs : List IndexedTransaction} (confirmed : HasConfirmed txs)
    (above : ∀ tx ∈ txs, 0 < tx.height → sv.index.tip.lastIndexed < tx.height)
    (undelivered : ∀ entry ∈ gone s settings start history id sub, ∀ tx ∈ txs, 0 < tx.height →
      entry.height < tx.height) :
    (ScansFor s settings sv txs id sub ↔ 0 ≤ sv.index.tip.lastIndexed
        ∧ ∀ entry ∈ gone s settings start history id sub,
            entry.height ≤ sv.index.tip.lastIndexed)
      ∧ ((∀ other ∈ sv.incoming, other = txs) →
          (ScansFor s settings sv txs id sub ↔ 0 ≤ sv.index.tip.lastIndexed)) := by
  have hmarks := mark_play_start s settings start id sub.address.address history
  have hknown : Known s sv (account s settings id sub.address.address { index := start } {}
      history) := by
    rw [hsv]
    exact (known_start made).play Hub.sound_empty lawful forward
  rw [← hsv] at hmarks
  obtain ⟨sound, acc⟩ := hmarks
  have hscanned : ScansFor s settings sv txs id sub ↔ 0 ≤ sv.index.tip.lastIndexed
      ∧ ∀ entry ∈ gone s settings start history id sub,
          entry.height ≤ sv.index.tip.lastIndexed := by
    rw [scansFor_iff_highest sound holds confirmed above, highest_of_holds holds acc,
      ← Int.lt_add_one_iff, Account.mark, raised_lt_iff, hknown.base]
    simp only [Int.lt_add_one_iff]
    exact Iff.rfl
  refine ⟨hscanned, fun alone => hscanned.trans ⟨And.left, fun htip => ⟨htip, ?_⟩⟩⟩
  intro entry hentry
  have := hknown.gone_le alone undelivered entry hentry
  omega

/-- An empty index, to be used as an example. -/
def sampleStart : Store :=
  .memory { mode := .full, minValue := 0 }

/-- The steps by which a client comes to watch an address, to be used as an example. -/
def sampleSubscriber : List Happening :=
  [.hub (.connect none false), .hub (.move 0 (.watchAddress sampleRequest.address []))]

/-- The subscription that these steps make. -/
def sampleSubscription : Subscription where
  address := sampleRequest.address
  labels := .ofRaw []

/-- A server after some steps on an empty index. -/
def sampleServer (history : List Happening) : Server :=
  play plainScheme {} { index := sampleStart } history

/-- A block is indexed, a client comes to watch an address, and the next block is appended: it is
scanned. -/
theorem append_on_chain_scanned :
    ScansFor plainScheme {} (sampleServer (.change (.add [sampleTransaction 1 5])
      :: sampleSubscriber)) [sampleTransaction 2 6] 0 sampleSubscription := by
  have made : sampleStart.Made := .empty .full 0
  have lawful : Lawful plainScheme {} { index := sampleStart }
      (.change (.add [sampleTransaction 1 5]) :: sampleSubscriber) :=
    ⟨trivial, trivial, trivial, trivial⟩
  have hgone : gone plainScheme {} sampleStart
      (.change (.add [sampleTransaction 1 5]) :: sampleSubscriber) 0 sampleSubscription = [] := rfl
  refine ((append_scanned_iff made lawful (by simp [sampleSubscriber]) rfl ⟨_, rfl, rfl, rfl⟩
    ⟨_, List.mem_singleton_self _, by decide⟩ ?_ ?_).2 ?_).2 ?_
  · decide
  · simp [hgone]
  · exact fun _ hother => absurd hother List.not_mem_nil
  · decide

/-- **The first append is missed**: a client comes to watch an address while the index is empty, and
nothing has gone out for it; the first block that is appended is not scanned for it. -/
theorem first_append_unscanned :
    Lawful plainScheme {} { index := sampleStart } sampleSubscriber
      ∧ (sampleServer sampleSubscriber).hub.Holds 0 sampleSubscription
      ∧ gone plainScheme {} sampleStart sampleSubscriber 0 sampleSubscription = []
      ∧ (sampleServer sampleSubscriber).index.tip.lastIndexed < 5
      ∧ ¬ ScansFor plainScheme {} (sampleServer sampleSubscriber) [sampleTransaction 1 5] 0
          sampleSubscription := by
  refine ⟨⟨trivial, trivial, trivial⟩, ⟨_, rfl, rfl, rfl⟩, rfl, by decide, ?_⟩
  rintro ⟨r, hr, _⟩
  have hnone : begun (sampleServer sampleSubscriber) ((sampleServer sampleSubscriber).step
      plainScheme {} (.change (.add [sampleTransaction 1 5]))) = [] := rfl
  rw [hnone] at hr
  cases hr

end Server
end SilentScan
