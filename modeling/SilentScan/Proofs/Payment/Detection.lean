/-
Payments are found.

A sender who knows the secret scalar `a` of a transaction multiplies the recipient's scan key by
it, hashes the result to a scalar, and pays to the recipient's spend key, plain or shifted for a
label, shifted once more by that scalar. The index keeps of the transaction the multiple of the
generator by `a` and eight bytes of every output. From these the matcher computes the shared key
from the other side, and adds the shift of a label last. Since points form a commutative group and
keys come back from all the forms in which they are handed on, both come to the same keys.

* `senderScalar`, `outputKey?`: what the sender computes;
* `exists_query`: the matcher has the recipient's keys;
* `firstOutputKey_eq`, `shifted_eq`: the keys looked for are the sender's;
* `matcher_accepts_iff`: a row is accepted exactly if it has a prefix of an output key.
-/
import SilentScan.Payment.Matcher
import SilentScan.Proofs.Attempt
import SilentScan.Proofs.Curve.Encoding
import SilentScan.Proofs.Curve.Parameters
import SilentScan.Scan.Engine

namespace SilentScan

open Curve

/-! ### The sender -/

/-- The scalar by which a sender with the secret scalar `a` shifts the spend key of a recipient with
the scan scalar `b`: a hash of the scan key times `a`. There is none if the product is infinity. -/
def senderScalar (s : Scheme) (a b : ℕ) : Option ℕ :=
  (s.curve.mul a (s.curve.base b)).map fun shared =>
    Bytes.toNatBE (s.hash "BIP0352/SharedSecret" (shared.compress ++ Bytes.ofNatBE 4 0))

/-- The key to which a sender pays, with a given shift: to the plain spend key or to that of a
label. There is none if the label has no key or the sum is infinity. -/
def outputKey? (s : Scheme) (address : ScanAddress) (shift : ℕ) : Option ℕ → Option PublicKey
  | none => s.curve.add (some address.spendKey) (s.curve.base shift)
  | some label =>
    match address.labelledSpendKey s label with
    | .ok key => s.curve.add (some key) (s.curve.base shift)
    | .error _ => none

/-- What a sender may pay to: the plain spend key, and that of every label of a set. -/
def destinations (labels : LabelSet) : List (Option ℕ) :=
  none :: labels.toList.map some

/-! ### Labels -/

section Scheme

variable {s : Scheme} {address : ScanAddress} {label : ℕ} {key shift : PublicKey}

/-- The spend key of a label is the plain one with the shift of the label added. -/
lemma labelledSpendKey_eq_ok (h : address.labelledSpendKey s label = .ok key) :
    ∃ shift, address.labelTweakKey s label = .ok shift
      ∧ s.curve.add (some address.spendKey) (some shift) = some key := by
  obtain ⟨shift, hshift, h⟩ := exists_of_bind_eq_ok h
  refine ⟨shift, hshift, ?_⟩
  cases hsum : s.curve.add (some address.spendKey) (some shift) with
  | none => rw [hsum] at h; cases h
  | some sum => rw [hsum] at h; exact congrArg some (Except.ok.inj h)

/-- A key to which a sender pays for a label comes from the shift of the label. -/
lemma outputKey?_label {t : ℕ} {p : PublicKey} (h : outputKey? s address t (some label) = some p) :
    ∃ shift key, address.labelTweakKey s label = .ok shift
      ∧ s.curve.add (some address.spendKey) (some shift) = some key
      ∧ s.curve.add (some key) (s.curve.base t) = some p := by
  rw [outputKey?] at h
  cases hkey : address.labelledSpendKey s label with
  | error e => simp [hkey] at h
  | ok key =>
    obtain ⟨shift, hshift, hsum⟩ := labelledSpendKey_eq_ok hkey
    rw [hkey] at h
    exact ⟨shift, key, hshift, hsum, h⟩

/-- The shift of a label is a multiple of the generator. -/
lemma labelTweakKey_eq_ok (h : address.labelTweakKey s label = .ok shift) :
    ∃ k, s.curve.base k = some shift := by
  obtain ⟨k, -, h⟩ := exists_of_bind_eq_ok h
  refine ⟨k, ?_⟩
  cases hbase : s.curve.base k with
  | none => rw [hbase] at h; cases h
  | some p => rw [hbase] at h; exact congrArg some (Except.ok.inj h)

/-- The eight bytes of a key are those of its abscissa. -/
lemma outputPrefix_eq (p : PublicKey) : outputPrefix p = xonlyPrefix (Bytes.ofNatBE 32 p.x) := by
  rw [outputPrefix, xonlyPrefix, PublicKey.compress, List.drop_one, List.tail_cons]

/-- The prefixes that the matcher looks for are those of the keys that it finds. -/
lemma candidates_eq {spend tweak plain : PublicKey} {b : ℕ} {labels : List ℕ}
    {shifts outputs : ℕ → PublicKey}
    (hfirst : Matcher.firstOutputKey s ⟨b, spend, labels.map shifts⟩ tweak = .ok plain)
    (hshifted : ∀ l ∈ labels, Matcher.shifted s plain (shifts l) = .ok (outputs l)) :
    Matcher.candidates s ⟨b, spend, labels.map shifts⟩ tweak
      = .ok (outputPrefix plain :: labels.map fun l => outputPrefix (outputs l)) := by
  have hlabelled : (labels.map shifts).mapM (Matcher.shifted s plain)
      = .ok (labels.map outputs) := by
    rw [List.mapM_map]
    exact mapM_eq_pure hshifted
  simp [Matcher.candidates, hfirst, hlabelled, bind, Except.bind, pure, Except.pure]

/-! ### The matcher -/

variable [s.curve.Sound]

/-- **The recipient's keys come into the matcher as they are.** -/
lemma exists_query (r : ScanRequest) (batchSize : Option ℕ) {shifts : ℕ → PublicKey}
    (hpos : 0 < r.address.scanKey) (hlt : r.address.scanKey < s.curve.order)
    (hspend : s.curve.onCurve r.address.spendKey = true)
    (hshifts : ∀ l ∈ r.labels.toList, r.address.labelTweakKey s l = .ok (shifts l)) :
    ∃ q, r.buildQuery s batchSize = .ok q
      ∧ Matcher.ofBytes s q.scanKey q.spendKey q.labelKeys
        = .ok ⟨r.address.scanKey, r.address.spendKey, r.labels.toList.map shifts⟩ := by
  have hraw : (r.labels.toList.mapM fun l => do return toRawKey (← r.address.labelTweakKey s l))
      = (.ok (r.labels.toList.map fun l => toRawKey (shifts l)) :
          Except KeyError (List Bytes)) := by
    refine mapM_eq_pure fun l hl => ?_
    rw [hshifts l hl]
    rfl
  have hread : ((r.labels.toList.map fun l => toRawKey (shifts l)).mapM (fromRawKey s.curve))
      = .ok (r.labels.toList.map shifts) := by
    rw [List.mapM_map]
    refine mapM_eq_pure fun l hl => ?_
    obtain ⟨k, hk⟩ := labelTweakKey_eq_ok (hshifts l hl)
    exact fromRawKey_toRawKey (onCurve_of_base hk)
  refine ⟨_, by rw [ScanRequest.buildQuery, hraw]; rfl, ?_⟩
  simp only [Matcher.ofBytes, ScanAddress.scanBytes, secret_ofNatBE hpos hlt,
    fromRawKey_toRawKey hspend, hread]
  rfl

/-- **The key that the matcher finds for the first output is the sender's.** -/
lemma firstOutputKey_eq {a b t : ℕ} {tweak spend plain : PublicKey} (labelKeys : List PublicKey)
    (htweak : s.curve.base a = some tweak) (hsender : senderScalar s a b = some t)
    (ht : t < s.curve.order) (hplain : s.curve.add (some spend) (s.curve.base t) = some plain) :
    Matcher.firstOutputKey s ⟨b, spend, labelKeys⟩ tweak = .ok plain := by
  obtain ⟨shared, hshared, hscalar⟩ := Option.map_eq_some_iff.1 hsender
  have hmul : s.curve.mul b (some tweak) = some shared := by
    rw [← htweak, mul_base, mul_comm, ← mul_base, hshared]
  have hscalar' : Matcher.sharedScalar s shared = t := hscalar
  have ht' : ¬ s.curve.order ≤ t := by omega
  simp [Matcher.firstOutputKey, hmul, hscalar', ht', hplain, pure, Except.pure]

/-- **Adding the shift of a label last gives the key that the sender pays to for the label.** -/
lemma shifted_eq {t : ℕ} {spend plain p : PublicKey} (hspend : s.curve.onCurve spend = true)
    (hshift : s.curve.onCurve shift = true)
    (hplain : s.curve.add (some spend) (s.curve.base t) = some plain)
    (hkey : s.curve.add (some spend) (some shift) = some key)
    (hp : s.curve.add (some key) (s.curve.base t) = some p) :
    Matcher.shifted s plain shift = .ok p := by
  obtain ⟨G, hG, -⟩ := exists_generator s.curve
  obtain ⟨B, hB⟩ := onCurve_iff.1 hspend
  obtain ⟨L, hL⟩ := onCurve_iff.1 hshift
  have ht : StandsFor (s.curve.base t) (t • G) := hG.mul t
  have hreceiver : StandsFor (s.curve.add (some plain) (some shift)) (B + t • G + L) :=
    (hplain ▸ hB.add ht).add hL
  have hsender : StandsFor (some p) (B + L + t • G) := hp ▸ (hkey ▸ hB.add hL).add ht
  have hsame : s.curve.add (some plain) (some shift) = some p :=
    hreceiver.unique (add_right_comm B (t • G) L ▸ hsender)
  simp [Matcher.shifted, hsame]

/-- A row whose tweak point is a key is tested for the prefixes looked for. -/
lemma matchesRow_eq {m : Matcher} {tweak : PublicKey} {wanted : List ℕ}
    (htweak : s.curve.onCurve tweak = true) (hwanted : m.candidates s tweak = .ok wanted)
    (prefixes : List ℕ) :
    m.matchesRow s (toRawKey tweak) prefixes = .ok (wanted.any prefixes.contains) := by
  cases prefixes with
  | nil => simp [Matcher.matchesRow, pure, Except.pure]
  | cons p rest =>
    simp [Matcher.matchesRow, fromRawKey_toRawKey htweak, hwanted, bind, Except.bind, pure,
      Except.pure]

end Scheme

/-! ### The row of a payment -/

/-- **A row is accepted exactly if it has a prefix of a key to which the sender may pay.** For every
recipient with a secret scan scalar and a spend key, every label set and every secret scalar `a` of
a sender there are a tweak point and a scalar that both share. If the scalar is below the order and
no label fails and no sum is infinity, then the store gets a matcher, and the matcher accepts the
row of the tweak point with any prefixes just if among these is that of an output key. -/
theorem matcher_accepts_iff (hash : String → Bytes → Bytes) (r : ScanRequest)
    (batchSize : Option ℕ) {a : ℕ} (ha : 0 < a ∧ a < secp256k1.order)
    (hscan : 0 < r.address.scanKey ∧ r.address.scanKey < secp256k1.order)
    (hspend : secp256k1.onCurve r.address.spendKey = true) :
    ∃ tweak t, secp256k1.base a = some tweak
      ∧ senderScalar ⟨secp256k1, hash⟩ a r.address.scanKey = some t
      ∧ (t < secp256k1.order →
        (∀ d ∈ destinations r.labels, (outputKey? ⟨secp256k1, hash⟩ r.address t d).isSome) →
        ∃ q m, r.buildQuery ⟨secp256k1, hash⟩ batchSize = .ok q
          ∧ Matcher.ofBytes ⟨secp256k1, hash⟩ q.scanKey q.spendKey q.labelKeys = .ok m
          ∧ ∀ prefixes, ∃ accepted,
            m.matchesRow ⟨secp256k1, hash⟩ (toRawKey tweak) prefixes = .ok accepted
            ∧ (accepted = true ↔ ∃ d ∈ destinations r.labels, ∃ p,
                outputKey? ⟨secp256k1, hash⟩ r.address t d = some p
                ∧ xonlyPrefix (Bytes.ofNatBE 32 p.x) ∈ prefixes)) := by
  set s : Scheme := ⟨secp256k1, hash⟩ with hs
  obtain ⟨tweak, htweak⟩ := exists_base (c := s.curve) ha.1 ha.2
  obtain ⟨shared, hshared⟩ := exists_mul_base (c := s.curve) ha.1 ha.2 hscan.1 hscan.2
  have hsender : ∃ t, senderScalar s a r.address.scanKey = some t :=
    ⟨_, by rw [senderScalar, hshared]; rfl⟩
  obtain ⟨t, hsender⟩ := hsender
  refine ⟨tweak, t, htweak, hsender, fun ht houtputs => ?_⟩
  obtain ⟨plain, hplain⟩ := Option.isSome_iff_exists.1 (houtputs none (by simp [destinations]))
  have hlabels : ∀ l, ∃ shift output, l ∈ r.labels.toList →
      r.address.labelTweakKey s l = .ok shift ∧ outputKey? s r.address t (some l) = some output
        ∧ Matcher.shifted s plain shift = .ok output := by
    intro l
    by_cases hl : l ∈ r.labels.toList
    · obtain ⟨output, houtput⟩ := Option.isSome_iff_exists.1
        (houtputs (some l) (by simp [destinations, hl]))
      obtain ⟨shift, key, hshift, hkey, hsum⟩ := outputKey?_label houtput
      obtain ⟨k, hk⟩ := labelTweakKey_eq_ok hshift
      exact ⟨shift, output, fun _ =>
        ⟨hshift, houtput, shifted_eq hspend (onCurve_of_base hk) hplain hkey hsum⟩⟩
    · exact ⟨default, default, fun hmem => absurd hmem hl⟩
  choose shifts outputs hlabels using hlabels
  obtain ⟨q, hq, hm⟩ := exists_query r batchSize hscan.1 hscan.2 hspend
    fun l hl => (hlabels l hl).1
  refine ⟨q, _, hq, hm, fun prefixes => ⟨_, matchesRow_eq (onCurve_of_base htweak)
    (candidates_eq (firstOutputKey_eq _ htweak hsender ht hplain)
      fun l hl => (hlabels l hl).2.2) prefixes, ?_⟩⟩
  have hplain' : outputKey? s r.address t none = some plain := hplain
  have houtput : ∀ l ∈ r.labels.toList, outputKey? s r.address t (some l) = some (outputs l) :=
    fun l hl => (hlabels l hl).2.1
  simp only [List.any_cons, List.any_map, Bool.or_eq_true, List.any_eq_true, Function.comp_apply,
    List.contains_iff_mem, outputPrefix_eq, destinations, List.exists_mem_cons_iff, hplain',
    List.mem_map, exists_exists_and_eq_and]
  constructor
  · rintro (hmem | ⟨l, hl, hmem⟩)
    · exact .inl ⟨plain, rfl, hmem⟩
    · exact .inr ⟨l, hl, outputs l, houtput l hl, hmem⟩
  · rintro (⟨p, hp, hmem⟩ | ⟨l, hl, p, hp, hmem⟩)
    · obtain rfl := Option.some.inj hp
      exact .inl hmem
    · obtain rfl := Option.some.inj ((houtput l hl).symm.trans hp)
      exact .inr ⟨l, hl, hmem⟩

/-- Hashes that are small scalars, the one of a label that number plus three. -/
def smallHash (tag : String) (bs : Bytes) : Bytes :=
  Bytes.ofNatBE 32 (if tag = "BIP0352/Label" then Bytes.toNatBE (bs.drop 32) + 3 else 5)

/-- A request of a wallet that has given out the label one. -/
def labelledRequest : ScanRequest where
  owner := 0
  address :=
    { scanKey := 2
      scanPublicKey :=
        ⟨0xc6047f9441ed7d6d3045406e95c07cd85c778e4b8cef3ca7abac09b95c709ee5,
         0x1ae168fea63dc339a3c58419466ceaeef7f632653266d0e1236431a950cfe52a⟩
      spendKey := secp256k1.generator
      address := "sample" }
  labels := .ofRaw [some 1]
  startHeight := none
  endHeight := none

/-- A sender with the scalar three pays to the label one, which comes to ten times the generator:
the row is accepted for the prefix of this key, and not for the number after it. -/
theorem matcher_accepts_label_one :
    ((0 < 3 ∧ 3 < secp256k1.order)
      ∧ (0 < labelledRequest.address.scanKey ∧ labelledRequest.address.scanKey < secp256k1.order)
      ∧ secp256k1.onCurve labelledRequest.address.spendKey = true)
    ∧ ∃ tweak q m, secp256k1.base 3 = some tweak
      ∧ labelledRequest.buildQuery ⟨secp256k1, smallHash⟩ none = .ok q
      ∧ Matcher.ofBytes ⟨secp256k1, smallHash⟩ q.scanKey q.spendKey q.labelKeys = .ok m
      ∧ m.matchesRow ⟨secp256k1, smallHash⟩ (toRawKey tweak) [0xa0434d9e47f3c862] = .ok true
      ∧ m.matchesRow ⟨secp256k1, smallHash⟩ (toRawKey tweak) [0xa0434d9e47f3c863] = .ok false := by
  have ha : 0 < 3 ∧ 3 < secp256k1.order := by decide
  have hscan : 0 < labelledRequest.address.scanKey
      ∧ labelledRequest.address.scanKey < secp256k1.order := by decide
  have hspend : secp256k1.onCurve labelledRequest.address.spendKey = true := by decide +kernel
  obtain ⟨tweak, t, htweak, hsender, haccepts⟩ :=
    matcher_accepts_iff smallHash labelledRequest none ha hscan hspend
  have ht : senderScalar ⟨secp256k1, smallHash⟩ 3 labelledRequest.address.scanKey = some 5 := by
    decide +kernel
  obtain rfl : t = 5 := Option.some.inj (hsender.symm.trans ht)
  obtain ⟨q, m, hq, hm, hrow⟩ := haccepts (by decide) (by decide +kernel)
  refine ⟨⟨ha, hscan, hspend⟩, tweak, q, m, htweak, hq, hm, ?_, ?_⟩
  · obtain ⟨accepted, hmatches, hiff⟩ := hrow [0xa0434d9e47f3c862]
    have hkey : (outputKey? ⟨secp256k1, smallHash⟩ labelledRequest.address 5 (some 1)).map
        (fun p => xonlyPrefix (Bytes.ofNatBE 32 p.x)) = some 0xa0434d9e47f3c862 := by
      decide +kernel
    obtain ⟨p, hp, hbytes⟩ := Option.map_eq_some_iff.1 hkey
    have htrue : accepted = true := hiff.2 ⟨some 1, by decide, p, hp, by simp [hbytes]⟩
    exact htrue ▸ hmatches
  · obtain ⟨accepted, hmatches, hiff⟩ := hrow [0xa0434d9e47f3c863]
    have hnone : ∀ d ∈ destinations labelledRequest.labels,
        (outputKey? ⟨secp256k1, smallHash⟩ labelledRequest.address 5 d).all
          (fun p => xonlyPrefix (Bytes.ofNatBE 32 p.x) ∉ [0xa0434d9e47f3c863]) = true := by
      decide +kernel
    have hfalse : accepted = false := by
      refine Bool.eq_false_iff.2 fun htrue => ?_
      obtain ⟨d, hd, p, hp, hmem⟩ := hiff.1 htrue
      have hother := hnone d hd
      rw [hp] at hother
      exact absurd hmem (by simpa using hother)
    exact hfalse ▸ hmatches

end SilentScan
