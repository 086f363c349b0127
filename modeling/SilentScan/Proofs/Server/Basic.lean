/-
The server: an index and the sessions that listen to it.

Whatever changes the index is announced to the sessions, but the rows of a batch are there a moment
before the batch is announced, and scans may meet them then, as they may meet the rows as they were
before later changes. Which rows a scan can find at a moment, and that only the index and the scans
tell of themselves, makes up what may happen; everything else may happen at any time.

* `Server`, `Happening`, `Server.step`, `Server.play`: what happens to the server;
* `Server.Finds`, `Server.Allows`, `Server.Lawful`: what may happen;
* `Server.account`, `Server.begun`: what goes out for a subscription, and the scans started;
* `mark_play`: the mark of a subscription after anything;
* `begun_add_iff`: the scans that an append starts for a subscription.
-/
import SilentScan.Proofs.Index.History
import SilentScan.Proofs.Session.Account

namespace SilentScan

/-- The index and the sessions. -/
structure Server where
  /-- The index as far as it is announced. -/
  index : Store
  /-- The index in all forms in which scans can have met it. -/
  views : List Store := [index]
  /-- The batches that are written already and not announced yet. -/
  incoming : List (List IndexedTransaction) := []
  hub : Hub := {}

/-- What can happen to the server. -/
inductive Happening where
  /-- The rows of a batch are written. -/
  | write (txs : List IndexedTransaction)
  /-- The index is changed, unless by a batch that is written already, and the change is
  announced. -/
  | change (c : IndexChange)
  | hub (input : HubInput)

/-- Whether an event comes neither from the index nor from a scan. -/
def Event.FromOutside : Event → Prop
  | .newTip _ | .scriptHashStatus _ _ => True
  | _ => False

namespace Server

/-- What happens to the hub. -/
def inputs (sv : Server) : Happening → List HubInput
  | .write _ => []
  | .change c => (sv.index.change c).2.2.events.map .publish
  | .hub input => [input]

/-- The batches that are not announced after a change. -/
def unannounced (incoming : List (List IndexedTransaction)) :
    IndexChange → List (List IndexedTransaction)
  | .add txs => incoming.erase txs
  | _ => incoming

/-- Something happens to the server. -/
def step (s : Scheme) (settings : ScanSettings) (sv : Server) (c : Happening) : Server :=
  let hub := sv.hub.actAll s settings (sv.inputs c)
  match c with
  | .write txs =>
    { sv with views := sv.views ++ sv.views.map (·.after (.add txs)),
              incoming := sv.incoming ++ [txs], hub }
  | .change c =>
    { index := sv.index.after c, views := sv.views ++ sv.views.map (·.after c),
      incoming := unannounced sv.incoming c, hub }
  | .hub _ => { sv with hub }

/-- Things happen to the server one after another. -/
def play (s : Scheme) (settings : ScanSettings) (sv : Server) (cs : List Happening) : Server :=
  cs.foldl (step s settings) sv

/-- Whether a scan finds a row: its query can be made, and looking for it in the index, in a form in
which it can have been met, sends the row. -/
def Finds (s : Scheme) (settings : ScanSettings) (sv : Server) (k : Nat) (m : RawMatch) : Prop :=
  ∃ run q, sv.hub.scan? k = some run ∧ run.request.buildQuery s settings.batchSize = .ok q
    ∧ ∃ st ∈ sv.views, ∃ cancelled taken, m ∈ (st.scan s q cancelled taken).sent

/-- What may happen: no one but the index and the scans tells of them, and a scan sends on what it
finds. -/
def Allows (s : Scheme) (settings : ScanSettings) (sv : Server) : Happening → Prop
  | .hub (.publish e) => e.FromOutside
  | .hub (.scan k input) => ∀ alive m, input alive = .push m → sv.Finds s settings k m
  | _ => True

/-- Whether each thing may happen when it does. -/
def Lawful (s : Scheme) (settings : ScanSettings) : Server → List Happening → Prop
  | _, [] => True
  | sv, c :: cs => sv.Allows s settings c ∧ Lawful s settings (sv.step s settings c) cs

/-- The account of a subscription, gone on with. -/
def account (s : Scheme) (settings : ScanSettings) (id : SessionId) (key : String) :
    Server → Account → List Happening → Account
  | _, a, [] => a
  | sv, a, c :: cs =>
    account s settings id key (sv.step s settings c)
      (sv.hub.accountAfter s settings id key a (sv.inputs c)) cs

/-- The scans that have been started between two moments. -/
def begun (sv sv' : Server) : List ScanRequest :=
  sv'.hub.requests.drop sv.hub.requests.length

variable (s : Scheme) (settings : ScanSettings)

@[simp] lemma hub_step (sv : Server) (c : Happening) :
    (sv.step s settings c).hub = sv.hub.actAll s settings (sv.inputs c) := by
  cases c <;> rfl

/-- Nothing but a rewind or such an event from elsewhere publishes disconnected blocks. -/
lemma inputs_forward {sv : Server} {c : Happening}
    (hindex : ∀ startHeight, c ≠ .change (.rewind startHeight))
    (hevent : ∀ startHeight, c ≠ .hub (.publish (.reorg startHeight))) :
    ∀ input ∈ sv.inputs c, ∀ startHeight, input ≠ .publish (.reorg startHeight) := by
  rintro input hinput startHeight rfl
  cases c with
  | write txs => exact absurd hinput List.not_mem_nil
  | change c =>
    obtain ⟨e, he, heq⟩ := List.mem_map.1 hinput
    obtain rfl := HubInput.publish.inj heq
    rcases Store.event_of_change he with ⟨_, _, _, h⟩ | ⟨_, h⟩ | ⟨_, h⟩ | ⟨_, rfl, _⟩
    · cases h
    · cases h
    · cases h
    · exact hindex _ rfl
  | hub input =>
    obtain rfl := List.mem_singleton.1 hinput
    exact hevent _ rfl

lemma play_append (sv : Server) (a b : List Happening) :
    sv.play s settings (a ++ b) = (sv.play s settings a).play s settings b :=
  List.foldl_append

lemma account_append (id : SessionId) (key : String) (sv : Server) (a : Account)
    (cs ds : List Happening) :
    sv.account s settings id key a (cs ++ ds)
      = (sv.play s settings cs).account s settings id key
          (sv.account s settings id key a cs) ds := by
  induction cs generalizing sv a with
  | nil => rfl
  | cons c cs ih => exact ih _ _

/-- **The marks**: after anything, sessions and registrations belong together, and every mark is
what the account says. -/
lemma mark_play {id : SessionId} {key : String} {sv : Server} {a : Account}
    (sound : sv.hub.Sound) (acc : sv.hub.Accounted id key a) (cs : List Happening) :
    (sv.play s settings cs).hub.Sound
      ∧ (sv.play s settings cs).hub.Accounted id key (sv.account s settings id key a cs) := by
  induction cs generalizing sv a with
  | nil => exact ⟨sound, acc⟩
  | cons c cs ih =>
    refine ih ?_ ?_
    · rw [hub_step]
      exact sound.actAll s settings _
    · rw [hub_step]
      exact acc.actAll s settings sound _

/-- The marks of a server that begins without sessions. -/
lemma mark_play_start (start : Store) (id : SessionId) (key : String) (cs : List Happening) :
    (play s settings { index := start } cs).hub.Sound
      ∧ (play s settings { index := start } cs).hub.Accounted id key
          (account s settings id key { index := start } {} cs) := by
  refine mark_play s settings ?_ ?_ cs
  · exact Hub.sound_empty
  · intro t ht
    simp [Hub.session?] at ht

/-- The scans that an append with confirmed transactions starts: those due for the blocks that it
announces. -/
lemma begun_add {sv : Server} (keyed : sv.hub.Keyed) {txs : List IndexedTransaction} {m : Int}
    (htop : IndexTip.top? txs = some m) :
    sv.begun (sv.step s settings (.change (.add txs)))
      = sv.hub.ears.flatMap (sv.hub.dueFor (sv.index.tip.lastIndexed + 1) m) := by
  have hinputs : sv.inputs (.change (.add txs))
      = [.publish (.blocksIndexed (sv.index.tip.lastIndexed + 1) m txs.length)] := by
    simp only [inputs, Store.change, Store.notice_add, (IndexTip.appended_of_top?_some htop).2,
      List.map_cons, List.map_nil]
  have hrequests := Hub.requests_publish_blocks settings keyed (sv.index.tip.lastIndexed + 1) m
    txs.length
  rw [begun, hub_step, hinputs]
  exact (congrArg (List.drop _) hrequests).trans List.drop_left

/-- **The scans that an append starts for a subscription**: one over the blocks that are announced
if the mark is at or below the tip, and otherwise none. -/
lemma begun_add_iff {sv : Server} (sound : sv.hub.Sound) {id : SessionId} {sub : Subscription}
    (holds : sv.hub.Holds id sub) {txs : List IndexedTransaction} {m : Int}
    (htop : IndexTip.top? txs = some m) (r : ScanRequest) :
    (r ∈ sv.begun (sv.step s settings (.change (.add txs))) ∧ r.owner = id
        ∧ r.address = sub.address)
      ↔ sub.highest ≤ sv.index.tip.lastIndexed
        ∧ r = sub.scanOver id (sv.index.tip.lastIndexed + 1) m := by
  rw [begun_add s settings sound.keyed htop, sound.due_iff holds, Int.lt_add_one_iff]

/-- The mark of a subscription that is held is what its account says. -/
lemma highest_of_holds {sv : Server} {id : SessionId} {sub : Subscription} {a : Account}
    (holds : sv.hub.Holds id sub) (acc : sv.hub.Accounted id sub.address.address a) :
    sub.highest = a.mark := by
  obtain ⟨t, ht, hconnected, hsub⟩ := holds
  exact acc t ht hconnected sub.highest (by rw [Session.mark?, hsub]; rfl)

end Server
end SilentScan
