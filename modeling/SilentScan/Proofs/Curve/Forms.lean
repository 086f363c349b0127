/-
The forms in which a key is accepted.

Every form that is accepted stands for a point of the curve. With both coordinates in full, it is
just the point with these coordinates, and the marker may tell the parity of the ordinate besides.
The raw form is read through the full one and the compressed one; since a point comes back from
either, the raw forms that are read are those of the points, and no others.

* `Curve.parse_full`: what is read from both coordinates;
* `Curve.onCurve_of_parse`: what is read is on the curve;
* `PublicKey.hybrid`, `Curve.parse_hybrid`: the full form with the parity in its marker;
* `Curve.fromRawKey_eq_ok_iff`: the raw forms that are read;
* `raw_forms_correspond`: raw forms and points correspond one to one.
-/
import Mathlib.Data.Set.Function
import SilentScan.Proofs.Attempt
import SilentScan.Proofs.Curve.Encoding
import SilentScan.Proofs.Curve.Parameters

namespace SilentScan

/-- The full form of a point with the parity of its ordinate in the marker, 65 bytes. -/
def PublicKey.hybrid (p : PublicKey) : Bytes :=
  (if p.y % 2 = 0 then 6 else 7) :: Bytes.ofNatBE 32 p.x ++ Bytes.ofNatBE 32 p.y

namespace Curve

variable {c : Curve} {p : PublicKey} {xs ys : Bytes}

/-! ### Both coordinates -/

/-- From both coordinates the point with these coordinates is read, if it is on the curve and the
marker is right for it. -/
lemma parse_full (marker : UInt8) (hx : xs.length = 32) (hy : ys.length = 32) :
    c.parse (marker :: (xs ++ ys)) = .ok p ↔
      (marker = 4 ∨ (marker = 6 ∧ p.y % 2 = 0) ∨ (marker = 7 ∧ p.y % 2 = 1))
        ∧ c.onCurve p = true ∧ p = ⟨Bytes.toNatBE xs, Bytes.toNatBE ys⟩ := by
  have hlength : (xs ++ ys).length = 64 := by simp [hx, hy]
  have hshort : (xs ++ ys).length ≠ 32 := by omega
  simp only [parse, if_neg hshort, if_pos hlength, List.take_left' hx, List.drop_left' hx, point?]
  split_ifs with hmarker hcurve
  · constructor
    · rintro ⟨⟩
      exact ⟨hmarker, hcurve, rfl⟩
    · rintro ⟨-, -, rfl⟩
      rfl
  · refine iff_of_false (by simp) ?_
    rintro ⟨-, honCurve, rfl⟩
    exact hcurve honCurve
  · refine iff_of_false (by simp) ?_
    rintro ⟨hmarked, -, rfl⟩
    exact hmarker hmarked

/-- The raw form is both coordinates in full, each with its bytes reversed. -/
lemma toRawKey_eq (p : PublicKey) :
    toRawKey p = (Bytes.ofNatBE 32 p.x).reverse ++ (Bytes.ofNatBE 32 p.y).reverse := by
  simp only [toRawKey, Bytes.ofNatBE, List.reverse_reverse]

/-- A raw form that is compressed is that of a point. -/
lemma exists_of_compressRawKey {raw bs : Bytes} (h : compressRawKey c raw = .ok bs) :
    ∃ p, c.onCurve p = true ∧ raw = toRawKey p ∧ bs = p.compress := by
  by_cases hlength : raw.length = rawKeyLength
  · rw [compressRawKey, if_neg (not_not.2 hlength), List.reverse_append] at h
    have hlow : (raw.take 32).length = 32 := by simp [hlength, rawKeyLength]
    have hhigh : (raw.drop 32).length = 32 := by simp [hlength, rawKeyLength]
    obtain ⟨p, hparse, hbs⟩ := exists_of_bind_eq_ok h
    obtain ⟨-, honCurve, hp⟩ := (parse_full 4 (List.length_reverse.trans hlow)
      (List.length_reverse.trans hhigh)).1 hparse
    have hback : ∀ half : Bytes, half.length = 32 →
        Bytes.ofNatLE 32 (Bytes.toNatBE half.reverse) = half := by
      intro half hhalf
      rw [Bytes.toNatBE_eq_toNatLE_reverse, List.reverse_reverse, Bytes.ofNatLE_toNatLE hhalf]
    refine ⟨p, honCurve, ?_, (Except.ok.inj hbs).symm⟩
    simp only [hp, toRawKey, hback _ hlow, hback _ hhigh, List.take_append_drop]
  · rw [compressRawKey, if_pos hlength] at h
    cases h

/-! ### One coordinate and a parity -/

variable [c.Sound]

/-- A point found from its abscissa is on the curve. -/
lemma onCurve_of_lift? {odd : Bool} {x : ℕ} (h : c.lift? odd x = some p) : c.onCurve p = true := by
  have hprime : 0 < c.fieldPrime := Sound.prime.pos
  rw [lift?] at h
  split_ifs at h with hx
  obtain ⟨r, hroot, hp⟩ := Option.bind_eq_some_iff.1 h
  rw [sqrt?] at hroot
  split_ifs at hroot with hsquare
  obtain rfl := Option.some.inj hroot
  set r := c.power (c.cubic x) (c.fieldPrime.log2 + 2) ((c.fieldPrime + 1) / 4) with hr
  have hlt : r < c.fieldPrime := power_lt _ _ _
  obtain rfl := Option.some.inj hp
  -- The ordinate is one of the two roots, which have the same square.
  have hordinate : ∀ y : ℕ, (y : c.BaseField) = r ∨ (y : c.BaseField) = -r →
      c.times y y = c.cubic x := by
    intro y hy
    have hcubic : c.cubic x % c.fieldPrime = c.cubic x := Nat.mod_mod _ _
    rw [← hcubic, ← hsquare]
    refine eq_of_cast_eq (times_lt _ _) (times_lt _ _) ?_
    rw [cast_times, cast_times]
    obtain hy | hy := hy
    · rw [hy]
    · rw [hy, neg_mul_neg]
  have hnegative : (((c.fieldPrime - r) % c.fieldPrime : ℕ) : c.BaseField) = -r := by
    rw [ZMod.natCast_mod, Nat.cast_sub hlt.le, ZMod.natCast_self, zero_sub]
  simp only [onCurve, Bool.and_eq_true, decide_eq_true_eq, beq_iff_eq]
  split_ifs
  · exact ⟨⟨hx, hlt⟩, hordinate r (.inl rfl)⟩
  · exact ⟨⟨hx, Nat.mod_lt _ hprime⟩, hordinate _ (.inr hnegative)⟩

/-- **What is read in a marked form is on the curve.** -/
theorem onCurve_of_parse {bs : Bytes} (h : c.parse bs = .ok p) : c.onCurve p = true := by
  cases bs with
  | nil => cases h
  | cons marker rest =>
    by_cases hfull : rest.length = 64
    · rw [← List.take_append_drop 32 rest] at h
      exact ((parse_full marker (by simp [hfull]) (by simp [hfull])).1 h).2.1
    · simp only [parse, if_neg hfull] at h
      split at h
      · rename_i q hread
        cases h
        split_ifs at hread
        · exact onCurve_of_lift? hread
        · exact onCurve_of_lift? hread
      · cases h

/-- **A key comes back from its full form with the parity in the marker.** -/
theorem parse_hybrid (h : c.onCurve p = true) : c.parse p.hybrid = .ok p := by
  obtain ⟨hx, hy⟩ := lt_of_onCurve h
  have hlength : ∀ n, (Bytes.ofNatBE 32 n).length = 32 := Bytes.length_ofNatBE 32
  refine (parse_full _ (hlength p.x) (hlength p.y)).2 ⟨?_, h, ?_⟩
  · obtain heven | hodd := Nat.mod_two_eq_zero_or_one p.y
    · simp [heven]
    · simp [hodd]
  · rw [toNatBE_coordinate hx, toNatBE_coordinate hy]

/-! ### The raw form -/

/-- **The raw forms that are read are those of the points.** -/
theorem fromRawKey_eq_ok_iff {raw : Bytes} :
    fromRawKey c raw = .ok p ↔ c.onCurve p = true ∧ raw = toRawKey p := by
  constructor
  · intro h
    obtain ⟨bs, hcompressed, hparse⟩ := exists_of_bind_eq_ok h
    obtain ⟨q, hq, hraw, rfl⟩ := exists_of_compressRawKey hcompressed
    obtain rfl : q = p := Except.ok.inj ((parse_compress hq).symm.trans hparse)
    exact ⟨hq, hraw⟩
  · rintro ⟨h, rfl⟩
    exact fromRawKey_toRawKey h

end Curve

/-- **Raw forms and points correspond one to one.** -/
theorem raw_forms_correspond :
    (∀ p, secp256k1.onCurve p = true →
      fromRawKey secp256k1 (toRawKey p) = .ok p
        ∧ compressRawKey secp256k1 (toRawKey p) = .ok p.compress)
    ∧ (∀ raw p, fromRawKey secp256k1 raw = .ok p ↔
      raw.length = 64 ∧ secp256k1.onCurve p = true
        ∧ raw = (Bytes.ofNatBE 32 p.x).reverse ++ (Bytes.ofNatBE 32 p.y).reverse)
    ∧ (∀ raw p, fromRawKey secp256k1 raw = .ok p → toRawKey p = raw)
    ∧ Set.BijOn toRawKey {p | secp256k1.onCurve p = true}
        {raw | ∃ p, fromRawKey secp256k1 raw = .ok p} := by
  refine ⟨fun p hp => ⟨Curve.fromRawKey_toRawKey hp, Curve.compressRawKey_toRawKey hp⟩,
    fun raw p => ?_, fun raw p h => (Curve.fromRawKey_eq_ok_iff.1 h).2.symm, ?_, ?_, ?_⟩
  · rw [Curve.fromRawKey_eq_ok_iff, Curve.toRawKey_eq]
    constructor
    · rintro ⟨hp, rfl⟩
      exact ⟨by simp, hp, rfl⟩
    · exact fun h => h.2
  · exact fun p hp => ⟨p, Curve.fromRawKey_toRawKey hp⟩
  · intro p hp q hq hsame
    have hread := Curve.fromRawKey_toRawKey hp
    rw [hsame, Curve.fromRawKey_toRawKey hq] at hread
    exact (Except.ok.inj hread).symm
  · rintro raw ⟨p, h⟩
    obtain ⟨hp, rfl⟩ := Curve.fromRawKey_eq_ok_iff.1 h
    exact ⟨p, hp, rfl⟩

/-- The generator comes back from its raw form. -/
theorem raw_form_of_generator :
    secp256k1.onCurve secp256k1.generator = true
      ∧ fromRawKey secp256k1 (toRawKey secp256k1.generator) = .ok secp256k1.generator
      ∧ toRawKey secp256k1.generator
        = (Bytes.ofNatBE 32 secp256k1.generator.x).reverse
          ++ (Bytes.ofNatBE 32 secp256k1.generator.y).reverse := by
  obtain ⟨hback, hread, -, -⟩ := raw_forms_correspond
  have hgenerator : secp256k1.onCurve secp256k1.generator = true := by decide +kernel
  have hraw := (hback _ hgenerator).1
  exact ⟨hgenerator, hraw, ((hread _ _).1 hraw).2.2⟩

end SilentScan
