/-
Statuses of script hashes.

A client subscribes to a script hash through its own link, and from then on is told of every status
of the hash that any link brings up, each once and in order. Neither does it matter whose link that
is, nor does the session keep what comes in before it watches the hash: a status that comes right
behind the reply may be over before the reply has been noticed.

* `Notification.line_injective`, `Session.line_eq_statusLine_iff`: which lines tell of a status;
* `Switchboard.Stems`, `Switchboard.pushed_of_run`: where the lines come from;
* `Switchboard.attends_of_moved`: from when on a client gets the statuses of a hash;
* `consults_of_hashMove`: when a hash comes to be watched, and when no longer;
* `statuses_conveyed`: what a client is told of a hash while it watches it.
-/
import SilentScan.Proofs.Protocol.Passage
import SilentScan.Proofs.Session.Switchboard

namespace SilentScan

/-! ### The lines that tell of a status -/

/-- The lines of notifications with plain parameters are different if they are. -/
lemma Notification.line_injective {n n' : Notification} (hn : n.params.Plain 126)
    (hn' : n'.params.Plain 126) (h : n.line = n'.line) : n = n' := by
  have hread := classify_line hn
  rw [h, classify_line hn'] at hread
  exact (Frame.notification.inj (Except.ok.inj hread)).symm

lemma plain_status (hash : String) (status : Option String) :
    (Json.array [.string hash, .ofText? status]).Plain 126 := by
  refine Json.plain_array ?_
  cases status <;> simp [Json.ofText?, Json.plain_string, Json.plain_null]

/-- The line of a status tells the hash and the status. -/
lemma statusLine_injective {hash hash' : String} {status status' : Option String}
    (h : statusLine hash status = statusLine hash' status') : hash = hash' ∧ status = status' := by
  have hsame := Notification.line_injective (plain_status hash status)
    (plain_status hash' status') h
  simp only [Notification.mk.injEq, true_and, Json.array.injEq, List.cons.injEq,
    Json.string.injEq, and_true] at hsame
  refine ⟨hsame.1, ?_⟩
  cases status <;> cases status' <;> simp_all [Json.ofText?]

/-- The line of another notification does not tell of a status. -/
lemma line_ne_statusLine {method : String} {params : Json}
    (hmethod : method = headersMethod ∨ method = silentPaymentsMethod) (hash : String)
    (status : Option String) : Notification.line { method, params } ≠ statusLine hash status := by
  intro h
  have hchars := String.ofList_injective h
  rcases hmethod with rfl | rfl <;>
    simp [Notification.toRecord, Json.print, Json.printFields, Json.printString, frameVersion,
      headersMethod, scriptHashMethod, silentPaymentsMethod, Json.printChar] at hchars

/-- A line that a session queues tells of a status if and only if the event does. -/
lemma Session.line_eq_statusLine_iff {s : Session} {cause : Event} {line : String}
    (h : .push line ∈ (s.onEvent cause).2) (hash : String) (status : Option String) :
    line = statusLine hash status ↔ cause = .scriptHashStatus hash status := by
  cases cause with
  | newTip tip =>
    simp only [onEvent, notify] at h
    split at h <;> [split at h; skip] <;> simp at h
    simp [h, line_ne_statusLine (Or.inl rfl)]
  | scriptHashStatus hash' status' =>
    have hline : line = statusLine hash' status' := by
      simp only [onEvent, notify] at h
      split at h <;> [split at h; skip] <;> simp at h
      exact h
    rw [hline, Event.scriptHashStatus.injEq]
    constructor
    · exact statusLine_injective
    · rintro ⟨rfl, rfl⟩
      rfl
  | scanPage p =>
    obtain ⟨-, -, rfl⟩ := line_of_page h
    simp [line_ne_statusLine (Or.inr rfl)]
  | blocksIndexed lo hi n =>
    obtain ⟨sub, -, hsub⟩ := List.mem_map.1 h
    cases hsub
  | mempoolAdded txids =>
    obtain ⟨⟨key, sub⟩, -, hsub⟩ := List.mem_map.1 h
    cases hsub
  | mempoolRemoved txids => cases h
  | reorg start => cases h

namespace Switchboard

variable (settings : ScanSettings) (setting : ServiceSetting)

/-- How an act comes about on the way from one state to another: a line is queued by a session that
makes it of the event, and a status then comes from a link; and what a dialogue does to its session
is done. -/
inductive Stems (t t' : Switchboard) : Act → Prop
  | carried (link : SessionId) (e : Event) : Stems t t' (.carried link e)
  | pushed (source : Option SessionId) (id : SessionId) (cause : Event) (line : String)
      (s : Session) (hpush : .push line ∈ (s.onEvent cause).2)
      (hsource : source = none → ∀ hash status, cause ≠ .scriptHashStatus hash status) :
      Stems t t' (.pushed source id cause line)
  | replied (id : SessionId) (line : String) : Stems t t' (.replied id line)
  | moved (id : SessionId) (m : Move)
      (hhub : t'.hub = (t.hub.act setting.scheme settings (.move id m)).1) :
      Stems t t' (.moved id m)
  | closed (id : SessionId) : Stems t t' (.closed id)
  | deafened (id : SessionId) : Stems t t' (.deafened id)

/-- **What a step does** stems from it. -/
lemma stems_of_step {t : Switchboard} {o : Juncture} {act : Act}
    (hact : act ∈ (t.step settings setting o).2) :
    Stems settings setting t (t.step settings setting o).1 act := by
  cases o with
  | go k answer =>
    simp only [step] at hact ⊢
    split at hact
    · unfold go at hact ⊢
      split at hact
      · obtain ⟨line, -, rfl⟩ := List.mem_map.1 hact
        exact .replied _ line
      · cases hact
      · split at hact <;> cases hact
      · split at hact
        · rw [List.mem_singleton.1 hact]
          exact .moved _ _ rfl
        · cases hact
    · cases hact
  | link i s =>
    simp only [step, linkStep] at hact
    split at hact
    · obtain ⟨e, -, rfl⟩ := List.mem_map.1 hact
      exact .carried i e
    · cases hact
  | hand i =>
    simp only [step] at hact
    split at hact
    · obtain ⟨id, line, s, rfl, -, -, hpush⟩ := pushed_of_tell hact
      exact .pushed _ id _ line s hpush fun hnone => by cases hnone
    · cases hact
  | tell e ear =>
    obtain ⟨id, line, s, rfl, -, -, hpush⟩ := pushed_of_tell hact
    exact .pushed none id e.1 line s hpush fun _ => e.2
  | close i =>
    rw [List.mem_singleton.1 hact]
    exact .closed i
  | deafen i =>
    rw [List.mem_singleton.1 hact]
    exact .deafened i
  | _ => cases hact

/-- A line is queued because of an event only by a session that makes it of the event, and the
status of a hash comes from a link. -/
lemma pushed_of_run {t : Switchboard} {junctures : List Juncture} {source : Option SessionId}
    {id : SessionId} {cause : Event} {line : String}
    (hpushed : .pushed source id cause line ∈ (t.run settings setting junctures).2) :
    (∃ s : Session, .push line ∈ (s.onEvent cause).2)
      ∧ (source = none → ∀ hash status, cause ≠ .scriptHashStatus hash status) := by
  induction junctures generalizing t with
  | nil => cases hpushed
  | cons o rest ih =>
    obtain hfirst | hrest := List.mem_append.1 hpushed
    · cases stems_of_step settings setting hfirst with
      | pushed _ _ _ _ s hpush hsource => exact ⟨⟨s, hpush⟩, hsource⟩
    · exact ih hrest

/-- Once a dialogue has watched a hash, its client gets the statuses. -/
lemma attends_of_moved {t : Switchboard} (orderly : t.hub.Orderly) {o : Juncture} {id : SessionId}
    {hash : String} (hopen : (t.hub.session? id).any (·.isConnected) = true)
    (hmoved : .moved id (.watchHash hash) ∈ (t.step settings setting o).2) :
    (t.step settings setting o).1.hub.Attends id hash := by
  obtain ⟨s, hs, hconnected⟩ := (Option.any_eq_true _ _).1 hopen
  cases stems_of_step settings setting hmoved with
  | moved _ _ hhub =>
    rw [hhub]
    exact ⟨_, Hub.session?_move_self orderly.keyed setting.scheme settings hs _,
      Session.attends_watchHash hconnected hash⟩

end Switchboard

/-! ### What a client is told -/

/-- What a request about a script hash does to the session of the client once the other server has
agreed. -/
def Request.hashMove? (q : Request) : Option Move :=
  match Params.text ⟨q.params⟩ 0 "scripthash" with
  | .ok hash =>
    if q.method = "blockchain.scripthash.subscribe" then some (.watchHash hash)
    else if q.method = "blockchain.scripthash.unsubscribe" then some (.dropHash hash)
    else none
  | .error _ => none

/-- That a line makes a session have the other server answer a request, and do something only if
that is a success, before the client is answered. -/
def Session.Consults (setting : ServiceSetting) (s : Session) (line : String) (q : Request)
    (m : Move) : Prop :=
  ∃ next, (handleLine setting line).advance s
      = (s, [], .waiting (.forward q.method q.params) next)
    ∧ (∀ v, next (.ok v) = .move m fun _ => .done (some (Response.success q.id v).line))
    ∧ ∀ e, next (.error e) = .done (some (Response.failure q.id e.toObject).line)

lemma answerCall_subscribeHash (setting : ServiceSetting) (raw : Json) :
    answerCall setting "blockchain.scripthash.subscribe" raw
      = subscribeHash "blockchain.scripthash.subscribe" raw := rfl

lemma answerCall_unsubscribeHash (setting : ServiceSetting) (raw : Json) :
    answerCall setting "blockchain.scripthash.unsubscribe" raw
      = unsubscribeHash "blockchain.scripthash.unsubscribe" raw := rfl

/-- **When a hash comes to be watched, and when no longer.** -/
lemma consults_of_hashMove (setting : ServiceSetting) {s : Session} (hversion : s.version ≠ none)
    (hlinked : s.linked = true) {line : String} {fields : List (String × Json)} {q : Request}
    (hline : Json.parse (Text.trim line) = some (.object fields))
    (hq : readJson Request.decoder (.object fields) = .ok q) {m : Move}
    (hm : q.hashMove? = some m) : s.Consults setting line q m := by
  obtain ⟨next, hadvance, hsuccess, hfailure⟩ : ∃ next, (handleRequest setting q).advance s
        = (s, [], .waiting (.forward q.method q.params) next)
      ∧ (∀ v, next (.ok v) = .move m fun _ => .done (Response.success q.id v))
      ∧ ∀ e, next (.error e) = .done (Response.failure q.id e.toObject) := by
    obtain ⟨qversion, qid, method, params⟩ := q
    obtain ⟨version, hsome⟩ := Option.ne_none_iff_exists'.1 hversion
    obtain ⟨id, peer, registry, connected, receiving, _, _, listeners⟩ := s
    dsimp only at hsome hlinked
    subst hsome hlinked
    rw [Request.hashMove?] at hm
    dsimp only at hm
    split at hm
    · rename_i hash hparam
      split at hm
      · rename_i hmethod
        obtain rfl := Option.some.inj hm
        subst hmethod
        have hother : "blockchain.scripthash.subscribe" ≠ "server.version" := by decide
        simp only [handleRequest, dispatch, hother, if_false, answerCall_subscribeHash,
          subscribeHash, hparam]
        exact ⟨_, rfl, fun v => rfl, fun e => rfl⟩
      · split at hm
        · rename_i hmethod
          obtain rfl := Option.some.inj hm
          subst hmethod
          have hother : "blockchain.scripthash.unsubscribe" ≠ "server.version" := by decide
          simp only [handleRequest, dispatch, hother, if_false, answerCall_unsubscribeHash,
            unsubscribeHash, hparam]
          exact ⟨_, rfl, fun v => rfl, fun e => rfl⟩
        · cases hm
    · cases hm
  refine ⟨_, advance_line_of_request hline hq hadvance, fun v => ?_, fun e => ?_⟩
  · rw [hsuccess v]
    rfl
  · rw [hfailure e]
    rfl

/-- **What a client is told of a hash while it watches it.** A request for the statuses of a script
hash is handed on, and only if the other server agrees does the session watch the hash, which is the
first thing it does then; and likewise it drops the hash. From the moment a session has come to
watch a hash, as long as it neither drops it nor ends and its client is there, whatever else happens
in whatever order: for the link of every session, those statuses of the hash that its reader was
about to tell the session at first and those that it has brought up since are those that were
queued for the client and those that it is still about to tell the session, each once and in order.
And the lines queued for the client because of events tell of a status of the hash only if a link
has brought up this very status. -/
theorem statuses_conveyed (settings : ScanSettings) (setting : ServiceSetting)
    (junctures window : List Juncture) (o : Juncture) (id : SessionId) (hash : String)
    (hopen : ((({} : Switchboard).run settings setting junctures).1.hub.session? id).any
      (·.isConnected) = true)
    (hmoved : .moved id (.watchHash hash)
      ∈ ((({} : Switchboard).run settings setting junctures).1.step settings setting o).2)
    (hends : ∀ act ∈ (((({} : Switchboard).run settings setting junctures).1.step settings setting
      o).1.run settings setting window).2, act.ends id hash = false) :
    let t := ((({} : Switchboard).run settings setting junctures).1.step settings setting o).1
    let t' := (t.run settings setting window).1
    let acts := (t.run settings setting window).2
    (∀ (s : Session) line fields q m, s.version ≠ none → s.linked = true →
        Json.parse (Text.trim line) = some (.object fields) →
        readJson Request.decoder (.object fields) = .ok q → q.hashMove? = some m →
        s.Consults setting line q m)
      ∧ (∀ link, t.due link id hash ++ acts.filterMap (Act.carried? link hash)
          = acts.filterMap (Act.queued? link id hash) ++ t'.due link id hash)
      ∧ ∀ source cause line, .pushed source id cause line ∈ acts → ∀ status,
        line = statusLine hash status
          ↔ cause = .scriptHashStatus hash status ∧ ∃ link, source = some link := by
  intro t t' acts
  have horderly := Switchboard.orderly_run settings setting (t := {}) Hub.orderly_empty junctures
  have hattends := Switchboard.attends_of_moved settings setting horderly hopen hmoved
  refine ⟨fun s line fields q m hversion hlinked hline hq hm =>
    consults_of_hashMove setting hversion hlinked hline hq hm,
    Switchboard.conveyed_run settings setting
      (Switchboard.orderly_step settings setting horderly o) hattends window hends,
    fun source cause line hpushed status => ?_⟩
  obtain ⟨⟨s, hpush⟩, hsource⟩ := Switchboard.pushed_of_run settings setting hpushed
  rw [Session.line_eq_statusLine_iff hpush hash status]
  refine ⟨fun hcause => ⟨hcause, ?_⟩, fun h => h.1⟩
  exact Option.ne_none_iff_exists'.1 fun hnone => hsource hnone hash status hcause

/-- A client sends a line, and the dialogue takes some steps. -/
def sampleTalk (id : SessionId) (k : Nat) (line : String) (steps : Nat) : List Juncture :=
  .line id line :: List.replicate steps (.go k fun q => silentOutside [] (.node q))

/-- The call that waits on a link is sent and gets a reply. -/
def sampleReply (id : SessionId) (reply : String) : List Juncture :=
  ([.proceed, .proceed, .proceed, .proceed, .wrote, .receive reply] : List LinkStep).map (.link id)

/-- A client comes, settles on a version and wants the statuses of a hash; the other server has
agreed, but nobody has noticed yet. -/
def sampleWanting (id : SessionId) (k : Nat) : List Juncture :=
  [.connect none true, .link id .start]
    ++ sampleTalk id k "\x7b\"method\":\"server.version\"\x7d" 3
    ++ sampleReply id "\x7b\"id\":1,\"result\":[\"x\",\"1.4\"]\x7d"
    ++ .link id .proceed :: List.replicate 3 (.go k fun q => silentOutside [] (.node q))
    ++ sampleTalk id (k + 1)
      "\x7b\"method\":\"blockchain.scripthash.subscribe\",\"params\":[\"ab\"]\x7d" 3
    ++ sampleReply id "\x7b\"id\":2\x7d"

/-- The session goes on: it watches the hash. -/
def sampleNotices (id : SessionId) (k : Nat) : List Juncture :=
  [.link id .proceed, .go (k + 1) fun q => silentOutside [] (.node q)]

/-- A status comes in on the link of a session, and so many listeners are told. -/
def sampleStatus (id : SessionId) (status : String) (ears : Nat) : List Juncture :=
  .link id (.receive ("\x7b\"method\":\"blockchain.scripthash.subscribe\",\"params\":[\"ab\",\""
      ++ status ++ "\"]\x7d"))
    :: List.replicate ears (.hand id)

/-- A client has been agreed to, and its session has been told. -/
def sampleAgreed : List Juncture :=
  sampleWanting 0 0 ++ [.link 0 .proceed]

/-- The session comes to watch the hash. -/
def sampleWatching : Juncture :=
  .go 1 fun q => silentOutside [] (.node q)

/-- What a session has come to watch. -/
def Act.watched? : Act → Option (SessionId × String)
  | .moved id (.watchHash hash) => some (id, hash)
  | _ => none

lemma mem_of_watched? {acts : List Act} {id : SessionId} {hash : String}
    (h : (id, hash) ∈ acts.filterMap Act.watched?) : .moved id (.watchHash hash) ∈ acts := by
  obtain ⟨act, hact, heq⟩ := List.mem_filterMap.1 h
  unfold Act.watched? at heq
  split at heq
  · obtain ⟨rfl, rfl⟩ := Prod.mk.inj (Option.some.inj heq)
    exact hact
  · cases heq

/-- What is going on from then on. -/
def sampleWatched : Switchboard :=
  ((({} : Switchboard).run {} { scheme := plainScheme } sampleAgreed).1.step {}
    { scheme := plainScheme } sampleWatching).1

/-- What is going on once a status has come in on its link, and what has been done. -/
def sampleInformed : Switchboard × List Act :=
  sampleWatched.run {} { scheme := plainScheme } (sampleStatus 0 "s" 1)

/-- The status is queued for the client, once. -/
theorem later_status_conveyed :
    sampleInformed.2.filterMap (Act.queued? 0 0 "ab") = [some "s"]
      ∧ ∀ link, sampleWatched.due link 0 "ab"
          ++ sampleInformed.2.filterMap (Act.carried? link "ab")
        = sampleInformed.2.filterMap (Act.queued? link 0 "ab")
          ++ sampleInformed.1.due link 0 "ab" := by
  have hopen : ((({} : Switchboard).run {} { scheme := plainScheme }
      sampleAgreed).1.hub.session? 0).any (·.isConnected) = true := by decide +kernel
  have hwatched : (0, "ab") ∈ ((({} : Switchboard).run {} { scheme := plainScheme }
      sampleAgreed).1.step {} { scheme := plainScheme } sampleWatching).2.filterMap
        Act.watched? := by decide +kernel
  have hacts : (sampleInformed.2.all (!·.ends 0 "ab")
      && (sampleInformed.2.filterMap (Act.queued? 0 0 "ab") == [some "s"])) = true := by
    decide +kernel
  obtain ⟨hends, hqueued⟩ := Bool.and_eq_true_iff.1 hacts
  rw [sampleInformed, sampleWatched] at hends hqueued ⊢
  have hconveyed := statuses_conveyed {} { scheme := plainScheme } sampleAgreed
    (sampleStatus 0 "s" 1) sampleWatching 0 "ab" hopen (mem_of_watched? hwatched)
    fun act hact => by simpa using List.all_eq_true.1 hends act hact
  exact ⟨eq_of_beq hqueued, hconveyed.2.1⟩

/-- The statuses of a hash that were queued for a client, whoever's link has brought them up. -/
def Act.told? (id : SessionId) (hash : String) : Act → Option (Option String)
  | .pushed _ i cause _ => if i = id then cause.statusOf? hash else none
  | _ => none

/-- A status that comes right behind the reply is lost, as the session watches the hash only later;
and one is queued that only the link of another session has brought up. -/
theorem status_lost_and_doubled :
    let wanting := (({} : Switchboard).run {} { scheme := plainScheme } (sampleWanting 0 0)).1
    let course := sampleStatus 0 "s" 2 ++ sampleNotices 0 0
    let t := (wanting.run {} { scheme := plainScheme } course).1
    let acts := (wanting.run {} { scheme := plainScheme } course).2
    let both := (({} : Switchboard).run {} { scheme := plainScheme }
      (sampleWanting 0 0 ++ sampleNotices 0 0 ++ sampleWanting 1 2)).1
    let acts' := (both.run {} { scheme := plainScheme } (sampleStatus 1 "s" 4)).2
    acts.filterMap (Act.carried? 0 "ab") = [some "s"] ∧ acts.filterMap (Act.told? 0 "ab") = []
      ∧ (t.hub.session? 0).any (·.registry.watchesHash "ab") = true ∧ t.due 0 0 "ab" = []
      ∧ acts'.filterMap (Act.carried? 0 "ab") = []
      ∧ acts'.filterMap (Act.told? 0 "ab") = [some "s"] := by
  decide +kernel

end SilentScan
