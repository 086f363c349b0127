/-
Whether the first append after a rewind is scanned for everybody.

A rewind sets the tip and all marks below the first block that is dropped, so that the next blocks
appended are above the marks and are scanned again. Two things undo this: the tip stays where it is
if the rewind starts above the next block, while the marks go up; and pages of scans that were
started before raise the marks again.

* `Happening.Quiet`: what may come between the rewind and the append;
* `Rewinding`, with `tip_server`, `base_account`: a course of things with a rewind in it;
* `Rewinding.next_append_scanned_iff`: when the append is scanned for a subscription;
* `append_after_rewind_scanned`, `append_after_stale_page_unscanned`: a rewind with nothing after
  it, and one with a page of an earlier scan.
-/
import SilentScan.Proofs.Index.Announcement
import SilentScan.Proofs.Scan.Lifetime
import SilentScan.Proofs.Server.Basic

namespace SilentScan

namespace Happening

/-- Whether something neither appends blocks nor disconnects any. -/
def Quiet : Happening → Prop
  | .change (.add txs) => ¬ HasConfirmed txs
  | .change (.rewind _) => False
  | .hub (.publish (.reorg _)) => False
  | _ => True

/-- Whether an address is watched anew. -/
def renews (id : SessionId) (key : String) : Happening → Bool
  | .hub input => input.renews id key
  | _ => false

end Happening

namespace Server

variable (s : Scheme) (settings : ScanSettings)

/-- What is quiet leaves the tip. -/
lemma tip_of_quiet {sv : Server} {c : Happening} (quiet : c.Quiet) :
    (sv.step s settings c).index.tip.lastIndexed = sv.index.tip.lastIndexed := by
  cases c with
  | change c =>
    have hstep : (sv.step s settings (.change c)).index.tip.lastIndexed
        = tipStep sv.index.tip.lastIndexed c := Store.lastIndexed_after sv.index c
    rw [hstep]
    cases c with
    | add txs =>
      have hnone : IndexTip.top? txs = none := IndexTip.top?_eq_none_iff.2 quiet
      simp only [tipStep, hnone]
    | rewind startHeight => exact quiet.elim
    | _ => rfl
  | _ => rfl

lemma tip_play_of_quiet {sv : Server} {cs : List Happening} (quiet : ∀ c ∈ cs, c.Quiet) :
    (sv.play s settings cs).index.tip.lastIndexed = sv.index.tip.lastIndexed := by
  induction cs generalizing sv with
  | nil => rfl
  | cons c cs ih =>
    obtain ⟨hfirst, hrest⟩ := List.forall_mem_cons.1 quiet
    exact (ih hrest).trans (tip_of_quiet s settings hfirst)

/-- What is quiet publishes no disconnected blocks. -/
lemma inputs_of_quiet {sv : Server} {c : Happening} (quiet : c.Quiet) :
    ∀ input ∈ sv.inputs c, ∀ startHeight, input ≠ .publish (.reorg startHeight) := by
  refine inputs_forward ?_ ?_
  · rintro startHeight rfl
    exact quiet
  · rintro startHeight rfl
    exact quiet

lemma renews_inputs (sv : Server) (c : Happening) (id : SessionId) (key : String) :
    (sv.inputs c).any (·.renews id key) = c.renews id key := by
  cases c with
  | write txs => rfl
  | change c => simp [inputs, Happening.renews, HubInput.renews, Function.comp_def]
  | hub input => simp [inputs, Happening.renews]

/-- Where the account of a subscription begins after quiet times: at zero if the address was watched
anew, and otherwise where it began before. -/
lemma base_account_of_quiet {id : SessionId} {key : String} {sv : Server} {a : Account}
    {cs : List Happening} (quiet : ∀ c ∈ cs, c.Quiet) :
    (sv.account s settings id key a cs).base
      = if cs.any (·.renews id key) then 0 else a.base := by
  induction cs generalizing sv a with
  | nil => rfl
  | cons c cs ih =>
    obtain ⟨hfirst, hrest⟩ := List.forall_mem_cons.1 quiet
    rw [account, ih hrest, Hub.base_accountAfter s settings (inputs_of_quiet hfirst),
      renews_inputs, List.any_cons]
    cases c.renews id key <;> simp

/-- A rewind begins every account anew, below the first block that is dropped. -/
lemma accountAfter_rewind (sv : Server) (id : SessionId) (key : String) (a : Account)
    (startHeight : Int) :
    sv.hub.accountAfter s settings id key a (sv.inputs (.change (.rewind startHeight)))
      = ⟨startHeight - 1, []⟩ := by
  have hinputs : sv.inputs (.change (.rewind startHeight)) = [.publish (.reorg startHeight)] := by
    unfold inputs Store.change Store.rewind
    cases sv.index <;> rfl
  rw [hinputs]
  rfl

end Server

/-- A course of things with a rewind in it: from an index without sessions on, what happens before
the rewind, the first height that is dropped, and what happens after it. -/
structure Rewinding where
  start : Store
  before : List Happening
  startHeight : Int
  after : List Happening

namespace Rewinding

variable (s : Scheme) (settings : ScanSettings) (course : Rewinding)

/-- All that happens. -/
def all : List Happening :=
  course.before ++ .change (.rewind course.startHeight) :: course.after

/-- The server in the end. -/
def server : Server :=
  .play s settings { index := course.start } course.all

/-- The tip at the time of the rewind. -/
def tip : Int :=
  (Server.play s settings { index := course.start } course.before).index.tip.lastIndexed

/-- Whether the address of a subscription was watched anew after the rewind. -/
def renewed (id : SessionId) (sub : Subscription) : Bool :=
  course.after.any (·.renews id sub.address.address)

/-- The entries that have gone out for a subscription since the rewind, or since its address was
last watched anew. -/
def gone (id : SessionId) (sub : Subscription) : List TxEntry :=
  (Server.account s settings id sub.address.address { index := course.start } {} course.all).entries

variable {s settings course}

/-- The tip in the end: the lower one of the tip before and the block below the rewind. -/
lemma tip_server (quiet : ∀ c ∈ course.after, c.Quiet) :
    (course.server s settings).index.tip.lastIndexed
      = min (course.tip s settings) (course.startHeight - 1) := by
  rw [server, all, Server.play_append]
  exact (Server.tip_play_of_quiet s settings quiet).trans (Store.lastIndexed_after _ _)

/-- The account in the end begins where the rewind has set the marks, or at zero. -/
lemma base_account (quiet : ∀ c ∈ course.after, c.Quiet) (id : SessionId) (sub : Subscription) :
    (Server.account s settings id sub.address.address { index := course.start } {}
        course.all).base
      = if course.renewed id sub then 0 else course.startHeight - 1 := by
  rw [all, Server.account_append, Server.account, Server.base_account_of_quiet s settings quiet,
    Server.accountAfter_rewind, renewed]

/-- **Whether the first append after a rewind is scanned for a subscription**: let anything happen
to an index and its sessions, let the index be rewound, and let anything happen then but further
rewinds and appends of blocks. When blocks are appended next, a connected session scans just the
blocks that are announced for a subscription that it holds if and only if the rewind was not above
the next block (or the address has been watched anew since and the announced blocks start above
zero), and all entries that have gone out for it since are below these blocks. -/
theorem next_append_scanned_iff (quiet : ∀ c ∈ course.after, c.Quiet) {id : SessionId}
    {sub : Subscription} (holds : (course.server s settings).hub.Holds id sub)
    {txs : List IndexedTransaction} {lo hi : Int} {count : Nat}
    (announced : .blocksIndexed lo hi count
      ∈ ((course.server s settings).index.add txs).2.2.events) :
    sub.scanOver id lo hi ∈ (course.server s settings).begun
        ((course.server s settings).step s settings (.change (.add txs)))
      ↔ (if course.renewed id sub then 0 < lo
          else course.startHeight ≤ course.tip s settings + 1)
        ∧ ∀ entry ∈ course.gone s settings id sub, entry.height < lo := by
  obtain ⟨htop, hlo⟩ := Store.top?_of_announced announced
  have htip : (course.server s settings).index.tip.lastIndexed
      = min (course.tip s settings) (course.startHeight - 1) := tip_server quiet
  obtain ⟨sound, acc⟩ : (course.server s settings).hub.Sound
      ∧ (course.server s settings).hub.Accounted id sub.address.address _ :=
    Server.mark_play_start s settings course.start id sub.address.address course.all
  have hmark : sub.highest = raised (if course.renewed id sub then 0 else course.startHeight - 1)
      (course.gone s settings id sub) := by
    rw [Server.highest_of_holds holds acc, Account.mark, base_account quiet]
    rfl
  have hscan := Server.begun_add_iff s settings sound holds htop (sub.scanOver id lo hi)
  rw [← hlo] at hscan
  have hiff : sub.scanOver id lo hi ∈ (course.server s settings).begun
      ((course.server s settings).step s settings (.change (.add txs))) ↔ sub.highest < lo := by
    constructor
    · intro hr
      have := (hscan.1 ⟨hr, rfl, rfl⟩).1
      omega
    · intro hlow
      exact (hscan.2 ⟨by omega, rfl⟩).1
  rw [hiff, hmark, raised_lt_iff]
  refine and_congr ?_ Iff.rfl
  split
  · exact Iff.rfl
  · constructor <;> intro h <;> omega

/-- A client watches an address while a block at 8 is indexed, and the scan of its history begins
and is sent a row at 8; the index is then rewound to 7. What follows is left open. -/
def sample (after : List Happening) : Rewinding where
  start := .memory { mode := .full, minValue := 0 }
  before := [.change (.add [sampleTransaction 1 8]), .hub (.connect none false),
    .hub (.move 0 (.watchAddress sampleRequest.address [])),
    .hub (.move 0 (.scan sampleRequest)), .hub (.scan 0 .begin),
    .hub (.scan 0 fun _ => .push (sampleRow 8))]
  startHeight := 7
  after := after

/-- The subscription of that client, at a mark. -/
def sampleSubscription (highest : Int) : Subscription where
  address := sampleRequest.address
  labels := .ofRaw []
  highest := highest

/-- A rewind with nothing after it: the next append, at 7 again, is scanned. -/
theorem append_after_rewind_scanned :
    (sampleSubscription 6).scanOver 0 7 7 ∈ ((sample []).server plainScheme {}).begun
      (((sample []).server plainScheme {}).step plainScheme {}
        (.change (.add [sampleTransaction 2 7]))) := by
  have holds : ((sample []).server plainScheme {}).hub.Holds 0 (sampleSubscription 6) :=
    ⟨_, rfl, rfl, rfl⟩
  have announced : .blocksIndexed 7 7 1
      ∈ (((sample []).server plainScheme {}).index.add [sampleTransaction 2 7]).2.2.events :=
    List.mem_singleton_self _
  have hgone : (sample []).gone plainScheme {} 0 (sampleSubscription 6) = [] := rfl
  have quiet : ∀ c ∈ (sample []).after, c.Quiet := fun _ hc => absurd hc List.not_mem_nil
  refine (next_append_scanned_iff quiet holds announced).2 ⟨?_, ?_⟩
  · decide
  · simp [hgone]

/-- The scan that was begun before the rewind ends after it. -/
def staleEnd : List Happening :=
  [.hub (.scan 0 fun _ => .finish .finished 1), .hub (.scan 0 .conclude)]

/-- **A stale page**: the scan that was begun before the rewind delivers its row at 8 after it, and
the next append, at 7 again, is not scanned. -/
theorem append_after_stale_page_unscanned :
    (∀ c ∈ (sample staleEnd).after, c.Quiet)
      ∧ ((sample staleEnd).server plainScheme {}).hub.Holds 0 (sampleSubscription 8)
      ∧ .blocksIndexed 7 7 1 ∈ (((sample staleEnd).server plainScheme {}).index.add
          [sampleTransaction 2 7]).2.2.events
      ∧ ((sample staleEnd).server plainScheme {}).begun
          (((sample staleEnd).server plainScheme {}).step plainScheme {}
            (.change (.add [sampleTransaction 2 7]))) = [] := by
  refine ⟨by simp [sample, staleEnd, Happening.Quiet], ?_, ?_, ?_⟩
  · decide +kernel
  · decide +kernel
  · decide +kernel

end Rewinding
end SilentScan
