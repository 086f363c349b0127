/-
The order of versions and the version settled on.

Versions of any lengths are compared as the sequences of all their components, in which those that
are missing are zero and the first difference decides. So the comparison is a total preorder, in
which versions are equal that differ in zeros at the end only. The version settled on is the lowest
of what the client wants, what the other server offers, and the highest that is spoken.

* `ProtocolVersion.sequence`, `compare_eq`: versions as sequences;
* `ProtocolVersion.sequence_eq_iff`: versions that are equal;
* `ProtocolVersion.parse_text`: a version is read from its text;
* `Wanted`, `Settles`, `settles`: the versions asked for and how settling ends;
* `versions_ordered_and_settled`: all of it.
-/
import Mathlib.Order.PiLex
import SilentScan.Proofs.Attempt
import SilentScan.Proofs.Bytes.Hex
import SilentScan.Proofs.Json.Numerals
import SilentScan.Proofs.Protocol.Terms
import SilentScan.Proofs.Wire.Roundtrip

namespace SilentScan
namespace ProtocolVersion

/-! ### The order -/

/-- The components of a version, with zeros after the last, as a sequence that is ordered by the
first difference. -/
def sequence (v : ProtocolVersion) : Lex (Nat → Nat) :=
  toLex v.component

lemma component_of_length_le {v : ProtocolVersion} {i : Nat} (h : v.components.length ≤ i) :
    v.component i = 0 := by
  rw [component, List.getElem?_eq_none h, Option.getD_none]

/-- **Versions are compared as their sequences.** -/
lemma compare_eq (a b : ProtocolVersion) :
    a.compare b = Ord.compare a.sequence b.sequence := by
  simp only [compare, List.find?_map]
  cases hfind : (List.range (max a.components.length b.components.length)).find?
      ((· ≠ Ordering.eq) ∘ fun i => Ord.compare (a.component i) (b.component i)) with
  | none =>
    -- No component differs among those that are there, and all others are zero.
    have hsame : a.sequence = b.sequence := by
      refine congrArg toLex (funext fun i => ?_)
      by_cases hi : i < max a.components.length b.components.length
      · have hnone := List.find?_eq_none.1 hfind i (List.mem_range.2 hi)
        simpa using hnone
      · rw [component_of_length_le (by omega), component_of_length_le (by omega)]
    exact (compare_eq_iff_eq.2 hsame).symm
  | some i =>
    obtain ⟨hdiff, -, hbefore⟩ := List.find?_range_eq_some.1 hfind
    have hsame : ∀ j < i, a.component j = b.component j := fun j hj => by
      simpa using hbefore j hj
    have hne : a.component i ≠ b.component i := by simpa using hdiff
    rw [Option.map_some, Option.getD_some]
    rcases Nat.lt_or_gt_of_ne hne with hlt | hlt
    · have hless : a.sequence < b.sequence := ⟨i, hsame, hlt⟩
      rw [compare_lt_iff_lt.2 hlt, compare_lt_iff_lt.2 hless]
    · have hless : b.sequence < a.sequence := ⟨i, fun j hj => (hsame j hj).symm, hlt⟩
      rw [compare_gt_iff_gt.2 hlt, compare_gt_iff_gt.2 hless]

lemma le_iff {a b : ProtocolVersion} : a.le b = true ↔ a.sequence ≤ b.sequence := by
  rw [le, decide_eq_true_iff, compare_eq, compare_le_iff_le]

lemma compare_eq_eq_iff {a b : ProtocolVersion} :
    a.compare b = .eq ↔ a.sequence = b.sequence := by
  rw [compare_eq, compare_eq_iff_eq]

lemma compare_eq_lt_iff {a b : ProtocolVersion} :
    a.compare b = .lt ↔ b.le a = false := by
  rw [compare_eq, compare_lt_iff_lt, ← not_le, ← le_iff, Bool.not_eq_true]

lemma le_refl (a : ProtocolVersion) : a.le a = true :=
  le_iff.2 le_rfl

lemma le_trans {a b c : ProtocolVersion} (hab : a.le b = true) (hbc : b.le c = true) :
    a.le c = true :=
  le_iff.2 ((le_iff.1 hab).trans (le_iff.1 hbc))

lemma le_total (a b : ProtocolVersion) : a.le b = true ∨ b.le a = true :=
  (LinearOrder.le_total a.sequence b.sequence).imp le_iff.2 le_iff.2

lemma compare_eq_eq_iff_le {a b : ProtocolVersion} :
    a.compare b = .eq ↔ a.le b = true ∧ b.le a = true := by
  rw [compare_eq_eq_iff, le_iff, le_iff, le_antisymm_iff]

/-- The lower of two versions is one of them and not above the other. -/
lemma lower_spec (a b : ProtocolVersion) :
    (a.lower b).le a = true ∧ (a.lower b).le b = true ∧ (a.lower b = a ∨ a.lower b = b) := by
  rw [lower]
  split
  · rename_i h
    exact ⟨le_refl a, h, Or.inl rfl⟩
  · rename_i h
    exact ⟨(le_total a b).resolve_left h, le_refl b, Or.inr rfl⟩

/-! ### Versions that are equal -/

lemma getD_append_zeros (l : List Nat) (n i : Nat) :
    (l ++ List.replicate n 0)[i]?.getD 0 = l[i]?.getD 0 := by
  by_cases hi : i < l.length
  · rw [List.getElem?_append_left hi]
  · rw [List.getElem?_append_right (by omega), List.getElem?_eq_none (l := l) (by omega),
      List.getElem?_replicate]
    split <;> rfl

/-- **Versions are equal** that agree up to zeros at the end. -/
lemma sequence_eq_iff {a b : ProtocolVersion} : a.sequence = b.sequence
    ↔ ∃ m n, a.components ++ List.replicate m 0 = b.components ++ List.replicate n 0 := by
  constructor
  · intro h
    have hsame : ∀ i, a.components[i]?.getD 0 = b.components[i]?.getD 0 :=
      congrFun (toLex.injective h)
    -- Both are filled up with zeros to the length of the longer one.
    refine ⟨b.components.length - a.components.length,
      a.components.length - b.components.length, List.ext_getElem ?_ fun i hi hi' => ?_⟩
    · simp only [List.length_append, List.length_replicate]
      omega
    · have ha := getD_append_zeros a.components (b.components.length - a.components.length) i
      have hb := getD_append_zeros b.components (a.components.length - b.components.length) i
      rw [List.getD_getElem?, dif_pos hi] at ha
      rw [List.getD_getElem?, dif_pos hi'] at hb
      rw [ha, hb, hsame]
  · rintro ⟨m, n, h⟩
    refine congrArg toLex (funext fun i => ?_)
    rw [component, ← getD_append_zeros a.components m, h, getD_append_zeros]
    rfl

/-! ### The text of a version -/

lemma splitDots_of_no_dot {part : List Char} (h : ∀ c ∈ part, c ≠ '.') :
    splitDots part = [part] := by
  induction part with
  | nil => rfl
  | cons c part ih =>
    rw [splitDots, if_neg (h c List.mem_cons_self),
      ih fun c' hc' => h c' (List.mem_cons_of_mem c hc')]

lemma splitDots_append {part : List Char} (h : ∀ c ∈ part, c ≠ '.') (rest : List Char) :
    splitDots (part ++ '.' :: rest) = part :: splitDots rest := by
  induction part with
  | nil => rfl
  | cons c part ih =>
    rw [List.cons_append, splitDots, if_neg (h c List.mem_cons_self),
      ih fun c' hc' => h c' (List.mem_cons_of_mem c hc')]

/-- Parts joined by dots are found again at the dots. -/
lemma splitDots_intercalate {parts : List (List Char)} (hne : parts ≠ [])
    (h : ∀ part ∈ parts, ∀ c ∈ part, c ≠ '.') : splitDots (['.'].intercalate parts) = parts := by
  induction parts with
  | nil => exact absurd rfl hne
  | cons part parts ih =>
    have hpart := h part List.mem_cons_self
    cases parts with
    | nil => rw [List.intercalate_singleton, splitDots_of_no_dot hpart]
    | cons next parts =>
      rw [List.intercalate_cons_cons, List.append_assoc, List.singleton_append,
        splitDots_append hpart, ih (List.cons_ne_nil _ _) fun p hp =>
          h p (List.mem_cons_of_mem part hp)]

/-- No characters stand in joined parts but those of the parts and those between them. -/
lemma forall_mem_intercalate {p : Char → Prop} {sep : List Char} (hsep : ∀ c ∈ sep, p c)
    {parts : List (List Char)} (h : ∀ part ∈ parts, ∀ c ∈ part, p c) :
    ∀ c ∈ sep.intercalate parts, p c := by
  induction parts with
  | nil => simp
  | cons part parts ih =>
    have hrest := ih fun q hq => h q (List.mem_cons_of_mem part hq)
    cases parts with
    | nil =>
      rw [List.intercalate_singleton]
      exact h part List.mem_cons_self
    | cons next parts =>
      rw [List.intercalate_cons_cons]
      intro c hc
      rcases List.mem_append.1 hc with hc | hc
      · rcases List.mem_append.1 hc with hc | hc
        · exact h part List.mem_cons_self c hc
        · exact hsep c hc
      · exact hrest c hc

/-- The numerals of the components. -/
def numerals (v : ProtocolVersion) : List (List Char) :=
  v.components.map fun n => (toString n).toList

lemma isDigit_of_mem_numerals {v : ProtocolVersion} {part : List Char} (hpart : part ∈ v.numerals)
    {c : Char} (hc : c ∈ part) : c.isDigit = true := by
  obtain ⟨n, -, rfl⟩ := List.mem_map.1 hpart
  rw [Nat.toString_eq_ofList_toDigits, String.toList_ofList] at hc
  exact (Draft.digits_toDigits n).2 c hc

lemma toList_text (v : ProtocolVersion) : v.text.toList = ['.'].intercalate v.numerals := by
  rw [text, String.toList_intercalate, List.map_map]
  rfl

lemma mapM_numerals {ns : List Nat} {bound : Nat} (h : ∀ n ∈ ns, n < bound) :
    (ns.map fun n => (toString n).toList).mapM (Natural.readChars? bound) = some ns :=
  mapM_map_eq_self fun n hn => Natural.read?_toString (h n hn)

/-- **A version is read from its text.** -/
lemma parse_text {v : ProtocolVersion} (hne : v.components ≠ [])
    (hbound : ∀ n ∈ v.components, n < 0x1_0000_0000) : parse v.text = .ok v := by
  have hplain : ∀ c ∈ v.text.toList, Text.isWhiteSpace c = false := by
    rw [toList_text]
    refine forall_mem_intercalate (fun c hc => ?_) fun part hpart c hc =>
      Text.isWhiteSpace_of_isDigit (isDigit_of_mem_numerals hpart hc)
    rw [List.mem_singleton.1 hc]
    decide
  have hnone : ∀ c ∈ ([] : List Char), Text.isWhiteSpace c = true :=
    fun _ hc => absurd hc List.not_mem_nil
  have htrim : Text.trimChars v.text.toList = v.text.toList := by
    simpa using Hex.trimChars_append hnone hplain hnone
  have hparts : splitDots v.text.toList = v.numerals := by
    rw [toList_text]
    refine splitDots_intercalate (by simpa [numerals] using hne) fun part hpart c hc => ?_
    rintro rfl
    exact absurd (isDigit_of_mem_numerals hpart hc) (by decide)
  rw [parse, htrim, hparts, numerals, mapM_numerals hbound]

end ProtocolVersion

/-! ### The version settled on -/

/-- What the other server offers: the last of its versions, or what the client asks for if it gives
none. -/
def otherVersion (client : ProtocolVersion) (offered : Option (List String)) :
    Except RpcError ProtocolVersion :=
  match offered.bind List.getLast? with
  | some v => ProtocolVersion.parse v
  | none => .ok client

/-- That a client asks for a version and the other server offers one. -/
structure Wanted (requested : Json) (offered : Option (List String))
    (client other : ProtocolVersion) : Prop where
  asked : clientVersion requested = .ok client
  given : otherVersion client offered = .ok other

lemma Wanted.unique {requested : Json} {offered : Option (List String)}
    {client other client' other' : ProtocolVersion} (h : Wanted requested offered client other)
    (h' : Wanted requested offered client' other') : client = client' ∧ other = other' := by
  obtain rfl := Except.ok.inj (h.asked.symm.trans h'.asked)
  exact ⟨rfl, Except.ok.inj (h.given.symm.trans h'.given)⟩

lemma otherVersion_cases (client : ProtocolVersion) (offered : Option (List String)) :
    (∃ v, otherVersion client offered = .ok v)
      ∨ ∃ text, otherVersion client offered = .error (.invalidParams text) := by
  rw [otherVersion]
  split
  · exact ProtocolVersion.parse_cases _
  · exact Or.inl ⟨_, rfl⟩

/-- Settling reads both versions and then compares the lower with those that are spoken. -/
lemma negotiate_eq (requested : Json) (offered : Option (List String)) :
    negotiate requested offered = (clientVersion requested).bind fun client =>
      (otherVersion client offered).bind fun other =>
        if ProtocolVersion.lowest.le (client.lower other) then
          .ok ((client.lower other).lower .highest)
        else .error (.unsupportedVersion (client.lower other).text) := by
  rw [negotiate]
  cases clientVersion requested with
  | error e => rfl
  | ok client =>
    simp only [bind, Except.bind, pure, Except.pure, otherVersion]
    cases offered.bind List.getLast? with
    | some v => cases ProtocolVersion.parse v <;> rfl
    | none => rfl

/-- Settling between two versions. -/
lemma Wanted.negotiate_eq {requested : Json} {offered : Option (List String)}
    {client other : ProtocolVersion} (h : Wanted requested offered client other) :
    negotiate requested offered
      = if ProtocolVersion.lowest.le (client.lower other) then
          .ok ((client.lower other).lower .highest)
        else .error (.unsupportedVersion (client.lower other).text) := by
  simp only [SilentScan.negotiate_eq, h.asked, h.given, Except.bind]

/-- Where a version is missing, the parameters are refused. -/
lemma negotiate_of_not_wanted {requested : Json} {offered : Option (List String)}
    (h : ∀ client other, ¬ Wanted requested offered client other) :
    ∃ text, negotiate requested offered = .error (.invalidParams text) := by
  rw [negotiate_eq]
  rcases clientVersion_cases requested with ⟨client, hclient⟩ | ⟨text, hclient⟩
  · rcases otherVersion_cases client offered with ⟨other, hother⟩ | ⟨text, hother⟩
    · exact absurd ⟨hclient, hother⟩ (h client other)
    · exact ⟨text, by rw [hclient, Except.bind, hother]; rfl⟩
  · exact ⟨text, by rw [hclient]; rfl⟩

/-- A version that is settled on is spoken and not above what the client and the other server
want. -/
lemma Wanted.bounds {requested : Json} {offered : Option (List String)}
    {client other v : ProtocolVersion} (h : Wanted requested offered client other)
    (hv : negotiate requested offered = .ok v) :
    v.Spoken ∧ v.le client = true ∧ v.le other = true := by
  rw [h.negotiate_eq] at hv
  split at hv
  · rename_i hle
    obtain rfl := Except.ok.inj hv
    obtain ⟨hclient, hother, -⟩ := client.lower_spec other
    have hbelow := ((client.lower other).lower_spec .highest).1
    exact ⟨ProtocolVersion.spoken_lower hle, ProtocolVersion.le_trans hbelow hclient,
      ProtocolVersion.le_trans hbelow hother⟩
  · cases hv

/-- How settling ends. It succeeds exactly if both versions are there and the lower of them is not
below those that are spoken, with the lowest of the two and the highest spoken. It says that the
lower is too low, or refuses the parameters where a version is missing. -/
structure Settles (requested : Json) (offered : Option (List String)) : Prop where
  settled : ∀ v, negotiate requested offered = .ok v
    ↔ ∃ client other, Wanted requested offered client other
      ∧ ProtocolVersion.lowest.le (client.lower other) = true
      ∧ v = (client.lower other).lower .highest
  within : ∀ v, negotiate requested offered = .ok v →
    ProtocolVersion.lowest.le v = true ∧ v.le .highest = true
      ∧ ∀ client other, Wanted requested offered client other →
        v.le client = true ∧ v.le other = true
  tooLow : ∀ text, negotiate requested offered = .error (.unsupportedVersion text)
    ↔ ∃ client other, Wanted requested offered client other
      ∧ (client.lower other).compare .lowest = .lt ∧ text = (client.lower other).text
  refused : (∃ text, negotiate requested offered = .error (.invalidParams text))
    ↔ ∀ client other, ¬ Wanted requested offered client other

/-- How settling ends between two versions. -/
lemma Wanted.settles {requested : Json} {offered : Option (List String)}
    {client other : ProtocolVersion} (h : Wanted requested offered client other) :
    Settles requested offered where
  settled v := by
    rw [h.negotiate_eq]
    constructor
    · intro hv
      split at hv
      · rename_i hle
        exact ⟨client, other, h, hle, (Except.ok.inj hv).symm⟩
      · cases hv
    · rintro ⟨client', other', h', hle, hv⟩
      obtain ⟨rfl, rfl⟩ := h.unique h'
      rw [if_pos hle, hv]
  within v hv := by
    obtain ⟨hspoken, -, -⟩ := h.bounds hv
    exact ⟨hspoken.1, hspoken.2, fun _ _ h' => (h'.bounds hv).2⟩
  tooLow text := by
    rw [h.negotiate_eq]
    constructor
    · intro htext
      split at htext
      · cases htext
      · rename_i hlow
        refine ⟨client, other, h, ?_, (RpcError.unsupportedVersion.inj
          (Except.error.inj htext)).symm⟩
        exact ProtocolVersion.compare_eq_lt_iff.2 (Bool.not_eq_true _ ▸ hlow)
    · rintro ⟨client', other', h', hlow, rfl⟩
      obtain ⟨rfl, rfl⟩ := h.unique h'
      rw [ProtocolVersion.compare_eq_lt_iff.1 hlow]
      rfl
  refused := by
    refine ⟨fun ⟨text, htext⟩ => ?_, fun hmissing => absurd h (hmissing client other)⟩
    rw [h.negotiate_eq] at htext
    split at htext <;> cases htext

/-- How settling ends where a version is missing. -/
lemma settles_of_not_wanted {requested : Json} {offered : Option (List String)}
    (hmissing : ∀ client other, ¬ Wanted requested offered client other) :
    Settles requested offered := by
  obtain ⟨text, hrefused⟩ := negotiate_of_not_wanted hmissing
  refine ⟨fun v => ⟨fun hv => ?_, ?_⟩, fun v hv => ?_, fun text' => ⟨fun htext => ?_, ?_⟩,
    fun _ => hmissing, fun _ => ⟨text, hrefused⟩⟩
  · rw [hrefused] at hv
    cases hv
  · rintro ⟨client, other, hwanted, -⟩
    exact absurd hwanted (hmissing client other)
  · rw [hrefused] at hv
    cases hv
  · rw [hrefused] at htext
    cases htext
  · rintro ⟨client, other, hwanted, -⟩
    exact absurd hwanted (hmissing client other)

/-- **How settling ends**, with and without two versions. -/
lemma settles (requested : Json) (offered : Option (List String)) : Settles requested offered := by
  by_cases h : ∃ client other, Wanted requested offered client other
  · obtain ⟨client, other, h⟩ := h
    exact h.settles
  · exact settles_of_not_wanted fun client other hwanted => h ⟨client, other, hwanted⟩

/-- **Versions are ordered, and the lowest one is settled on.** The comparison of versions is a
total preorder, in which those are equal that agree up to zeros at the end; the lower of two is one
of them and not above either; and a version of 32-bit components is read from its text. -/
theorem versions_ordered_and_settled :
    (∀ a b c : ProtocolVersion, a.le a = true ∧ (a.le b = true ∨ b.le a = true)
        ∧ (a.le b = true → b.le c = true → a.le c = true))
      ∧ (∀ a b : ProtocolVersion, (a.compare b = .eq ↔ a.le b = true ∧ b.le a = true)
        ∧ (a.compare b = .lt ↔ b.le a = false)
        ∧ (a.compare b = .eq
            ↔ ∃ m n, a.components ++ List.replicate m 0 = b.components ++ List.replicate n 0)
        ∧ (a.lower b).le a = true ∧ (a.lower b).le b = true ∧ (a.lower b = a ∨ a.lower b = b))
      ∧ (∀ v : ProtocolVersion, v.components ≠ [] → (∀ n ∈ v.components, n < 0x1_0000_0000) →
        ∃ w, ProtocolVersion.parse v.text = .ok w ∧ w.compare v = .eq)
      ∧ ∀ requested offered, Settles requested offered := by
  refine ⟨fun a b c => ⟨a.le_refl, a.le_total b, ProtocolVersion.le_trans⟩, fun a b => ⟨?_, ?_, ?_,
    a.lower_spec b⟩, fun v hne hbound => ?_, settles⟩
  · exact ProtocolVersion.compare_eq_eq_iff_le
  · exact ProtocolVersion.compare_eq_lt_iff
  · exact ProtocolVersion.compare_eq_eq_iff.trans ProtocolVersion.sequence_eq_iff
  · exact ⟨v, ProtocolVersion.parse_text hne hbound, v.compare_self⟩

end SilentScan
