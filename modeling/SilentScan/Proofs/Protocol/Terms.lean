/-
What dialogues keep to.

A dialogue may be held to terms: which questions it asks and which steps it takes, where only some
replies are to be reckoned with. Whether a dialogue keeps to them is read off its tree, without any
course of it, and dialogues that keep to terms do so one after another. All methods are gone through
once, for terms that are left open; what clients can be told, which sessions scans belong to, and
when a version is settled on are special terms.

* `Terms`, `Dialogue.Keeps`, `Handling.Keeps`: terms, and that a dialogue or a handling keeps to
  them and ends with a value of some kind, with the rules for putting them together;
* `Terms.Suit`: terms that suit the methods;
* `keeps_answerCall`: every method but the settling of a version keeps to terms that suit it;
* `negotiate_cases`, `agreeOnVersion`, `keeps_agreeOnVersion`: the version that is settled on is
  found by looking and asking only, and it is one that is spoken;
* `keeps_serverVersion`, `keeps_handleLine`: the settling of a version, and the reply to a line.
-/
import Mathlib.Tactic.Common
import SilentScan.Protocol.Methods

namespace SilentScan

/-- The terms that a dialogue may be held to: the questions that it may ask and the steps that it
may take, and the replies to both that are to be reckoned with. -/
structure Terms where
  asks : Question → Prop
  told : (q : Question) → q.Reply → Prop
  does : Move → Prop
  sees : (m : Move) → m.Reply → Prop

namespace Dialogue

variable {α β : Type} {t : Terms}

instance : LawfulMonad Dialogue :=
  LawfulMonad.mk' Dialogue
    (by
      intro α d
      change d.bind .done = d
      induction d <;> simp_all [Dialogue.bind])
    (fun a f => rfl)
    (by
      intro α β γ d f g
      change (d.bind f).bind g = d.bind fun a => (f a).bind g
      induction d <;> simp_all [Dialogue.bind])

/-- That a dialogue keeps to terms, and ends with a value of some kind. -/
def Keeps (t : Terms) (ends : α → Prop) : Dialogue α → Prop
  | .done a => ends a
  | .ask q next => t.asks q ∧ ∀ r, t.told q r → (next r).Keeps t ends
  | .move m next => t.does m ∧ ∀ r, t.sees m r → (next r).Keeps t ends

/-- One dialogue after another. -/
lemma Keeps.bind {ends : α → Prop} {ends' : β → Prop} {d : Dialogue α} {f : α → Dialogue β}
    (hd : d.Keeps t ends) (hf : ∀ a, ends a → (f a).Keeps t ends') :
    (d >>= f).Keeps t ends' := by
  change (d.bind f).Keeps t ends'
  induction d with
  | done a => exact hf a hd
  | ask q next ih => exact ⟨hd.1, fun r hr => ih r (hd.2 r hr)⟩
  | move m next ih => exact ⟨hd.1, fun r hr => ih r (hd.2 r hr)⟩

/-- What holds of every end of some kind may be said of the end. -/
lemma Keeps.mono {ends ends' : α → Prop} {d : Dialogue α} (hd : d.Keeps t ends)
    (h : ∀ a, ends a → ends' a) : d.Keeps t ends' := by
  induction d with
  | done a => exact h a hd
  | ask q next ih => exact ⟨hd.1, fun r hr => ih r (hd.2 r hr)⟩
  | move m next ih => exact ⟨hd.1, fun r hr => ih r (hd.2 r hr)⟩

end Dialogue

/-- That a result is of one kind, or an error of another. -/
def Verdict {α : Type} (good : α → Prop) (bad : RpcError → Prop) : Except RpcError α → Prop
  | .ok a => good a
  | .error e => bad e

namespace Handling

variable {α β : Type} {t : Terms} {good : α → Prop} {bad : RpcError → Prop}

/-- That a handling keeps to terms, and ends with a result of one kind or an error of another. -/
def Keeps (t : Terms) (good : α → Prop) (bad : RpcError → Prop) (h : Handling α) : Prop :=
  h.run.Keeps t (Verdict good bad)

/-! ### Putting handlings together -/

lemma Keeps.bind {good' : β → Prop} {h : Handling α} {f : α → Handling β}
    (hh : h.Keeps t good bad) (hf : ∀ a, good a → (f a).Keeps t good' bad) :
    (h >>= f).Keeps t good' bad := by
  change (h.run >>= ExceptT.bindCont f).Keeps t (Verdict good' bad)
  refine Dialogue.Keeps.bind hh fun r hr => ?_
  cases r with
  | ok a => exact hf a hr
  | error e => exact hr

lemma Keeps.mono {good' : α → Prop} {h : Handling α} (hh : h.Keeps t good bad)
    (hgood : ∀ a, good a → good' a) : h.Keeps t good' bad :=
  Dialogue.Keeps.mono hh fun r hr => by
    cases r with
    | ok a => exact hgood a hr
    | error e => exact hr

lemma keeps_pure {a : α} (h : good a) : (pure a : Handling α).Keeps t good bad := h

lemma keeps_throw {e : RpcError} (h : bad e) : (throw e : Handling α).Keeps t good bad := h

/-- An error ends everything. -/
lemma keeps_throw_bind {good : β → Prop} {e : RpcError} (h : bad e) (f : α → Handling β) :
    ((throw e : Handling α) >>= f).Keeps t good bad := h

/-- Reading parameters neither asks nor does anything. -/
lemma keeps_lift {x : Except RpcError α} (h : Verdict good bad x) :
    (liftM x : Handling α).Keeps t good bad := by
  cases x <;> exact h

lemma keeps_move {m : Move} {seen : m.Reply → Prop} (hdoes : t.does m)
    (hsees : ∀ r, t.sees m r → seen r) : (move m).Keeps t seen bad :=
  ⟨hdoes, hsees⟩

/-- Asking the full node brings an answer that is reckoned with, or a failure. -/
lemma keeps_node {q : NodeQuery} (hasks : t.asks (.node q))
    (hbad : ∀ e, t.told (.node q) (.error e) → bad (.ofChain e)) :
    (node q).Keeps t (fun a => t.told (.node q) (.ok a)) bad := by
  refine ⟨hasks, fun r hr => ?_⟩
  cases r with
  | ok a => exact hr
  | error e => exact hbad e hr

/-! ### Parameters -/

/-- That a reading can fail only for the parameters. -/
def Reads (bad : RpcError → Prop) (x : Except RpcError α) : Prop :=
  (∀ text, bad (.invalidParams text)) → Verdict (fun _ => True) bad x

lemma reads_text? (p : Params) (index : Nat) (name : String) : Reads bad (p.text? index name) := by
  intro hbad
  rw [Params.text?]
  split
  · exact True.intro
  · exact True.intro
  · exact hbad _

lemma reads_text (p : Params) (index : Nat) (name : String) : Reads bad (p.text index name) := by
  intro hbad
  have hread := reads_text? p index name hbad
  rw [Params.text]
  cases h : p.text? index name with
  | error e =>
    rw [h] at hread
    exact hread
  | ok s =>
    cases s with
    | some s => exact True.intro
    | none => exact hbad _

lemma reads_int? (p : Params) (index : Nat) (name : String) : Reads bad (p.int? index name) := by
  intro hbad
  rw [Params.int?]
  split
  · exact True.intro
  · split
    · exact True.intro
    · exact hbad _

lemma reads_below (bound : Nat) (p : Params) (index : Nat) (name : String) :
    Reads bad (p.below bound index name) := by
  intro hbad
  have hread := reads_int? p index name hbad
  rw [Params.below]
  cases h : p.int? index name with
  | error e =>
    rw [h] at hread
    exact hread
  | ok n =>
    cases n with
    | none => exact hbad _
    | some n =>
      simp only [bind, Except.bind]
      split
      · exact True.intro
      · exact hbad _

lemma reads_bool? (p : Params) (index : Nat) (name : String) : Reads bad (p.bool? index name) := by
  intro hbad
  rw [Params.bool?]
  split
  · exact True.intro
  · exact True.intro
  · exact hbad _

/-- A list of readings fails as one of them does. -/
lemma verdict_mapM {α β : Type} {f : α → Except RpcError β} {l : List α}
    (h : ∀ a ∈ l, Verdict (fun _ => True) bad (f a)) :
    Verdict (fun _ => True) bad (l.mapM f) := by
  induction l with
  | nil => exact True.intro
  | cons a l ih =>
    obtain ⟨ha, hl⟩ := List.forall_mem_cons.1 h
    have hrest := ih hl
    rw [List.mapM_cons]
    cases hfa : f a with
    | error e =>
      rw [hfa] at ha
      exact ha
    | ok b =>
      cases hfl : l.mapM f with
      | error e =>
        rw [hfl] at hrest
        simpa [bind, Except.bind, hfl] using hrest
      | ok bs => simp [bind, Except.bind, pure, Except.pure, Verdict]

lemma reads_labels (p : Params) (index : Nat) (name : String) :
    Reads bad (p.labels index name) := by
  intro hbad
  rw [Params.labels]
  split
  · exact True.intro
  · refine verdict_mapM fun v _ => ?_
    split
    · exact True.intro
    · split
      · exact True.intro
      · exact hbad _
  · exact hbad _

lemma reads_addressParam (setting : ServiceSetting) (p : Params) :
    Reads bad (addressParam setting p) := by
  intro hbad
  have hscan := reads_text p 0 "scan_private_key" hbad
  have hspend := reads_text p 1 "spend_public_key" hbad
  rw [addressParam]
  cases h : p.text 0 "scan_private_key" with
  | error e =>
    rw [h] at hscan
    exact hscan
  | ok scan =>
    cases h' : p.text 1 "spend_public_key" with
    | error e =>
      rw [h'] at hspend
      exact hspend
    | ok spend =>
      simp only [bind, Except.bind]
      cases ScanAddress.ofHex setting.scheme scan spend setting.network with
      | error e => exact hbad _
      | ok a => exact True.intro

end Handling

open Handling

/-! ### Terms that suit the methods -/

/-- What this server can do by itself, as it tells clients. -/
def ownFeatures (network : Network) : Json :=
  .ofFields [
    ("genesis_hash", .string network.genesisHash),
    ("hosts", .object []),
    ("protocol_max", .string ProtocolVersion.highest.text),
    ("protocol_min", .string ProtocolVersion.lowest.text),
    ("pruning", .null),
    ("server_version", .string serverString),
    ("hash_function", .string "sha256")]

/-- Terms that suit every method other than the settling of a version: everything may be asked, and
every step taken but the settling, where scans belong to the session that is looked at; and what the
methods make of replies is of the kinds that they are to end with. -/
structure Terms.Suit (t : Terms) (good : Json → Prop) (bad : RpcError → Prop) : Prop where
  asks : ∀ q, t.asks q
  does : ∀ m, (∀ v, m ≠ .settle v) → (∀ r, m ≠ .scan r) → t.does m
  scan : ∀ s r, t.sees .look s → r.owner = s.id → t.does (.scan r)
  invalid : ∀ text, bad (.invalidParams text)
  unlinked : ∀ what, bad (.notConfigured what)
  unknown : ∀ method, bad (.methodNotFound method)
  failed : ∀ q e, t.told (.node q) (.error e) → bad (.ofChain e)
  forwarded : ∀ method params r, t.told (.forward method params) r → Verdict good bad r
  null : good .null
  text : ∀ s, good (.string s)
  features : ∀ network, good (ownFeatures network)
  tip : ∀ tip, t.told (.node .tip) (.ok tip) → good tip.toJson
  fee : ∀ blocks mode fee, t.told (.node (.estimateFee blocks mode)) (.ok fee) →
    good (.number (.float (fee.getD defaultFeeRate)))
  relayFee : ∀ fee, t.told (.node .relayFee) (.ok fee) → good (.number (.float fee))
  transaction : ∀ txid verbose v, t.told (.node (.transaction txid verbose)) (.ok v) → good v

section Methods

variable {t : Terms} {good : Json → Prop} {bad : RpcError → Prop} (suit : t.Suit good bad)
include suit

/-- Reading parameters keeps to the terms. -/
lemma Terms.Suit.read {α : Type} {x : Except RpcError α} (h : Reads bad x) :
    (liftM x : Handling α).Keeps t (fun _ => True) bad :=
  keeps_lift (h suit.invalid)

/-- Steps other than settling and scanning keep to the terms. -/
lemma Terms.Suit.move {m : Move} (hsettle : ∀ v, m ≠ .settle v) (hscan : ∀ r, m ≠ .scan r) :
    (Handling.move m).Keeps t (t.sees m) bad :=
  keeps_move (suit.does m hsettle hscan) fun _ h => h

lemma Terms.Suit.look : (Handling.move .look).Keeps t (t.sees .look) bad :=
  suit.move (by simp) (by simp)

lemma Terms.Suit.node (q : NodeQuery) :
    (Handling.node q).Keeps t (fun a => t.told (.node q) (.ok a)) bad :=
  keeps_node (suit.asks _) (suit.failed q)

lemma keeps_forwardFor (what method : String) (params : Json) :
    (forwardFor what method params).Keeps t good bad := by
  refine suit.look.bind fun session _ => ?_
  split
  · exact ⟨suit.asks _, suit.forwarded method params⟩
  · exact keeps_throw (suit.unlinked what)

lemma keeps_forward (method : String) (params : Json) :
    (forward method params).Keeps t good bad :=
  keeps_forwardFor suit _ _ _

lemma keeps_serverFeatures (setting : ServiceSetting) :
    (serverFeatures setting).Keeps t good bad := by
  refine suit.look.bind fun session _ => ?_
  split
  · exact keeps_forward suit _ _
  · exact keeps_pure (suit.features setting.network)

lemma keeps_blockHeader (params : Params) : (blockHeader params).Keeps t good bad := by
  refine (suit.read (reads_below _ _ _ _)).bind fun height _ =>
    (suit.read (reads_int? _ _ _)).bind fun cpHeight _ => ?_
  dsimp only
  split
  · exact keeps_forwardFor suit _ _ _
  · exact (suit.node _).bind fun header _ => keeps_pure (suit.text header)

lemma keeps_estimateFee (params : Params) : (estimateFee params).Keeps t good bad := by
  have asks : ∀ blocks : Nat, Keeps t good bad (do
      let mode ← params.text? 1 "mode"
      let fee ← node (.estimateFee blocks mode)
      return Json.number (.float (fee.getD defaultFeeRate))) := fun blocks =>
    (suit.read (reads_text? _ _ _)).bind fun mode _ => (suit.node _).bind fun fee hfee =>
      keeps_pure (suit.fee blocks mode fee hfee)
  refine (suit.read (reads_below _ _ _ _)).bind fun blocks _ => ?_
  split
  · exact keeps_throw_bind (suit.invalid _) _
  · exact asks _

lemma keeps_startHeight (start : Option Int) :
    (startHeight start).Keeps t (fun _ => True) bad := by
  unfold startHeight
  repeat' split
  · exact (suit.node _).mono fun _ _ => True.intro
  · exact keeps_pure True.intro
  · exact keeps_throw (suit.invalid _)
  · exact keeps_pure True.intro
  · exact keeps_pure True.intro

lemma keeps_subscribeAddress (setting : ServiceSetting) (params : Params) :
    (subscribeAddress setting params).Keeps t good bad := by
  refine (suit.read (reads_addressParam _ _)).bind fun address _ =>
    (suit.read (reads_int? _ _ _)).bind fun start _ =>
      (keeps_startHeight suit start).bind fun height _ =>
        (suit.read (reads_labels _ _ _)).bind fun rawLabels _ =>
          (suit.move (by simp) (by simp)).bind fun labels _ =>
            suit.look.bind fun session hsession => ?_
  have hscan := suit.scan session
    { owner := session.id, address, labels, startHeight := some height, endHeight := none }
    hsession rfl
  exact (keeps_move hscan fun _ _ => True.intro).bind fun _ _ => keeps_pure (suit.text _)

lemma keeps_unsubscribeAddress (setting : ServiceSetting) (params : Params) :
    (unsubscribeAddress setting params).Keeps t good bad :=
  (suit.read (reads_addressParam _ _)).bind fun _ _ =>
    (suit.move (by simp) (by simp)).bind fun _ _ => keeps_pure (suit.text _)

lemma keeps_subscribeHash (method : String) (raw : Json) :
    (subscribeHash method raw).Keeps t good bad :=
  (suit.read (reads_text _ _ _)).bind fun _ _ => (keeps_forward suit _ _).bind fun _ hstatus =>
    (suit.move (by simp) (by simp)).bind fun _ _ => keeps_pure hstatus

lemma keeps_unsubscribeHash (method : String) (raw : Json) :
    (unsubscribeHash method raw).Keeps t good bad :=
  (suit.read (reads_text _ _ _)).bind fun _ _ => (keeps_forward suit _ _).bind fun _ hresult =>
    (suit.move (by simp) (by simp)).bind fun _ _ => keeps_pure hresult

/-- **Every method** other than the settling of a version keeps to terms that suit it. -/
lemma keeps_answerCall (setting : ServiceSetting) (method : String) (raw : Json) :
    (answerCall setting method raw).Keeps t good bad := by
  unfold answerCall
  split
  · exact keeps_pure (suit.text _)
  · exact (suit.node _).bind fun _ _ => keeps_pure suit.null
  · exact keeps_serverFeatures suit setting
  · exact (suit.move (by simp) (by simp)).bind fun _ _ => (suit.node _).bind fun tip htip =>
      keeps_pure (suit.tip tip htip)
  · exact keeps_blockHeader suit _
  · exact keeps_estimateFee suit _
  · exact (suit.node _).bind fun fee hfee => keeps_pure (suit.relayFee fee hfee)
  · refine (suit.read (reads_text _ _ _)).bind fun txid _ =>
      (suit.read (reads_bool? _ _ _)).bind fun verbose _ => ?_
    exact (suit.node _).mono (suit.transaction _ _)
  · exact (suit.read (reads_text _ _ _)).bind fun _ _ => (suit.node _).bind fun _ _ =>
      keeps_pure (suit.text _)
  · exact keeps_subscribeHash suit _ _
  · exact keeps_unsubscribeHash suit _ _
  · exact keeps_subscribeAddress suit _ _
  · exact keeps_unsubscribeAddress suit _ _
  · dsimp only
    split
    · exact keeps_forward suit _ _
    · exact keeps_throw (suit.unknown _)

end Methods

/-! ### The settling of a version -/

namespace ProtocolVersion

lemma compare_self (v : ProtocolVersion) : v.compare v = .eq := by
  rw [compare, List.find?_eq_none.2 (by simp)]
  rfl

/-- Whether a version is one of those that are spoken. -/
def Spoken (v : ProtocolVersion) : Prop :=
  lowest.le v = true ∧ v.le highest = true

/-- The lower of the highest version and one that is not too low is spoken. -/
lemma spoken_lower {v : ProtocolVersion} (h : lowest.le v = true) : (v.lower highest).Spoken := by
  rw [lower]
  split
  · exact ⟨h, ‹_›⟩
  · exact ⟨by decide, by simp [le, compare_self]⟩

/-- Reading a version fails only for the text. -/
lemma parse_cases (s : String) :
    (∃ v, parse s = .ok v) ∨ ∃ text, parse s = .error (.invalidParams text) := by
  rw [parse]
  split
  · exact Or.inl ⟨_, rfl⟩
  · exact Or.inr ⟨_, rfl⟩

end ProtocolVersion

lemma clientVersion_cases (requested : Json) :
    (∃ v, clientVersion requested = .ok v)
      ∨ ∃ text, clientVersion requested = .error (.invalidParams text) := by
  unfold clientVersion
  split
  · exact ProtocolVersion.parse_cases _
  · dsimp only
    split
    · exact ProtocolVersion.parse_cases _
    · exact Or.inr ⟨_, rfl⟩
  · exact Or.inl ⟨_, rfl⟩
  · exact Or.inr ⟨_, rfl⟩

/-- **What settling ends with**: a version that is spoken, or one of two errors. -/
lemma negotiate_cases (requested : Json) (offered : Option (List String)) :
    Verdict ProtocolVersion.Spoken
      (fun e => (∃ text, e = .invalidParams text) ∨ ∃ v, e = .unsupportedVersion v)
      (negotiate requested offered) := by
  have settles : ∀ client other : ProtocolVersion, Verdict ProtocolVersion.Spoken
      (fun e => (∃ text, e = .invalidParams text) ∨ ∃ v, e = .unsupportedVersion v)
      (if ProtocolVersion.lowest.le (client.lower other)
        then (pure ((client.lower other).lower .highest) : Except RpcError ProtocolVersion)
        else throw (.unsupportedVersion (client.lower other).text)) := by
    intro client other
    split
    · exact ProtocolVersion.spoken_lower ‹_›
    · exact Or.inr ⟨_, rfl⟩
  rw [negotiate]
  rcases clientVersion_cases requested with ⟨client, hclient⟩ | ⟨text, hclient⟩
  · rw [hclient]
    simp only [bind, Except.bind]
    split
    · rename_i offer _
      rcases ProtocolVersion.parse_cases offer with ⟨other, hother⟩ | ⟨text, hother⟩
      · rw [hother]
        exact settles client other
      · rw [hother]
        exact Or.inl ⟨text, rfl⟩
    · exact settles client _
  · rw [hclient]
    exact Or.inl ⟨text, rfl⟩

/-- The version to settle on, found together with the other server if there is a link to it. -/
def agreeOnVersion (params : Params) : Handling ProtocolVersion := do
  let clientName := (← params.text? 0 "client_name").getD ""
  let requested := (params.get? 1 "protocol_version").getD .null
  let session ← move .look
  if session.linked then
    let reply ← forward "server.version" (.array [.string clientName, requested])
    negotiate requested (some (← versionReply reply))
  else negotiate requested none

/-- Terms that suit the search for a version: only the other server may be asked, and only for its
version, and the session may only be looked at. -/
structure Terms.SuitSettling (t : Terms) (bad : RpcError → Prop) : Prop where
  asks : ∀ params, t.asks (.forward "server.version" params)
  look : t.does .look
  invalid : ∀ text, bad (.invalidParams text)
  unlinked : ∀ what, bad (.notConfigured what)
  unsupported : ∀ v, bad (.unsupportedVersion v)
  nonsense : ∀ cause, bad (.backendIo cause)
  failed : ∀ params e, t.told (.forward "server.version" params) (.error e) → bad e

section Settling

variable {t : Terms} {bad : RpcError → Prop} (suit : t.SuitSettling bad)
include suit

lemma keeps_negotiate (requested : Json) (offered : Option (List String)) :
    (liftM (negotiate requested offered) : Handling ProtocolVersion).Keeps t
      ProtocolVersion.Spoken bad := by
  refine keeps_lift ?_
  have hcases := negotiate_cases requested offered
  cases hresult : negotiate requested offered with
  | ok v =>
    rw [hresult] at hcases
    exact hcases
  | error e =>
    rw [hresult] at hcases
    rcases hcases with ⟨text, rfl⟩ | ⟨v, rfl⟩
    · exact suit.invalid text
    · exact suit.unsupported v

/-- **The search for a version** keeps to terms that suit it, and what it finds is spoken. -/
lemma keeps_agreeOnVersion (params : Params) :
    (agreeOnVersion params).Keeps t ProtocolVersion.Spoken bad := by
  have look : (move .look).Keeps t (fun _ => True) bad :=
    keeps_move suit.look fun _ _ => True.intro
  have hforward : ∀ args, (forward "server.version" args).Keeps t (fun _ => True) bad := by
    refine fun args => look.bind fun session _ => ?_
    split
    · refine ⟨suit.asks args, fun r hr => ?_⟩
      cases r with
      | ok v => exact True.intro
      | error e => exact suit.failed args e hr
    · exact keeps_throw (suit.unlinked _)
  have hreply : ∀ v, Verdict (fun _ => True) bad (versionReply v) := by
    intro v
    rw [versionReply]
    split
    · exact True.intro
    · exact suit.nonsense _
  refine (keeps_lift (reads_text? _ _ _ suit.invalid)).bind fun name _ =>
    look.bind fun session _ => ?_
  split
  · exact (hforward _).bind fun v _ => (keeps_lift (hreply v)).bind fun versions _ =>
      keeps_negotiate suit _ _
  · exact keeps_negotiate suit _ _

end Settling

/-- Settling on a version: first it is found, then it is kept. -/
lemma serverVersion_eq (params : Params) :
    serverVersion params = (do
      let version ← agreeOnVersion params
      move (.settle version)
      return .array [.string serverString, .string version.text]) := by
  simp only [serverVersion, agreeOnVersion, bind_assoc]
  refine bind_congr fun name => bind_congr fun session => ?_
  split <;> simp only [bind_assoc, pure_bind]

/-- **The settling of a version** keeps to terms that suit it. -/
lemma keeps_serverVersion {t : Terms} {good : Json → Prop} {bad : RpcError → Prop}
    (suit : t.SuitSettling bad) (hsettle : ∀ v, v.Spoken → t.does (.settle v))
    (hgood : ∀ v : ProtocolVersion, good (.array [.string serverString, .string v.text]))
    (params : Params) : (serverVersion params).Keeps t good bad := by
  have hmove : ∀ v : ProtocolVersion, v.Spoken →
      (move (.settle v)).Keeps t (fun _ => True) bad := fun v hv =>
    keeps_move (hsettle v hv) fun _ _ => True.intro
  rw [serverVersion_eq]
  exact (keeps_agreeOnVersion suit params).bind fun v hv => (hmove v hv).bind fun _ _ =>
    keeps_pure (hgood v)

/-! ### Requests and lines -/

/-- A call other than the settling keeps to terms that suit the methods, if it may be refused where
no version can be seen to have been settled on. -/
lemma keeps_dispatch_of_ne {t : Terms} {good : Json → Prop} {bad : RpcError → Prop}
    (suit : t.Suit good bad)
    (hrefused : ∀ s, t.sees .look s → s.version = none → bad .versionNotNegotiated)
    (setting : ServiceSetting) {method : String} (hmethod : method ≠ "server.version")
    (raw : Json) : (dispatch setting method raw).Keeps t good bad := by
  rw [dispatch, if_neg hmethod]
  refine suit.look.bind fun session hsession => ?_
  split
  · have hbad := hrefused session hsession (Option.isNone_iff_eq_none.1 ‹_›)
    exact keeps_throw_bind hbad _
  · exact keeps_answerCall suit setting method raw

/-- A call keeps to terms that suit the methods and the settling. -/
lemma keeps_dispatch {t : Terms} {good : Json → Prop} {bad : RpcError → Prop}
    (suit : t.Suit good bad) (settling : t.SuitSettling bad)
    (hrefused : ∀ s, t.sees .look s → s.version = none → bad .versionNotNegotiated)
    (hsettle : ∀ v, v.Spoken → t.does (.settle v))
    (hgood : ∀ v : ProtocolVersion, good (.array [.string serverString, .string v.text]))
    (setting : ServiceSetting) (method : String) (raw : Json) :
    (dispatch setting method raw).Keeps t good bad := by
  by_cases hmethod : method = "server.version"
  · rw [dispatch, if_pos hmethod]
    exact keeps_serverVersion settling hsettle hgood _
  · exact keeps_dispatch_of_ne suit hrefused setting hmethod raw

/-- What a line leads to keeps to terms that suit its calls. -/
lemma keeps_handleLine {t : Terms} {good : Json → Prop} {bad : RpcError → Prop}
    (suit : t.Suit good bad) (settling : t.SuitSettling bad)
    (hrefused : ∀ s, t.sees .look s → s.version = none → bad .versionNotNegotiated)
    (hsettle : ∀ v, v.Spoken → t.does (.settle v))
    (hgood : ∀ v : ProtocolVersion, good (.array [.string serverString, .string v.text]))
    (setting : ServiceSetting) (line : String) :
    (handleLine setting line).Keeps t fun _ => True := by
  have hvalue : ∀ v, (handleValue setting v).Keeps t fun _ => True := by
    intro v
    unfold handleValue
    split
    · rename_i request _
      have hkeeps :=
        keeps_dispatch suit settling hrefused hsettle hgood setting request.method request.params
      refine Dialogue.Keeps.bind hkeeps fun r _ => ?_
      cases r <;> exact True.intro
    · exact True.intro
  have hbatch : ∀ items, (handleBatch setting items).Keeps t fun _ => True := by
    intro items
    induction items with
    | nil => exact True.intro
    | cons v items ih => exact (hvalue v).bind fun _ _ => ih.bind fun _ _ => True.intro
  unfold handleLine
  dsimp only
  split
  · exact True.intro
  · split
    · exact True.intro
    · exact (hbatch _).bind fun _ _ => True.intro
    · exact (hvalue _).bind fun _ _ => True.intro

end SilentScan
