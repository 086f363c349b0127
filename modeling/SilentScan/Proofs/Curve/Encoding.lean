/-
Keys come back from their encodings.

The compressed form of a key keeps its abscissa and the parity of its ordinate. That is enough:
over one abscissa lie two points with opposite ordinates, and since the field prime is odd one of
them is even and the other odd. The raw form keeps both coordinates, and is read through the full
form and the compressed one.

* `Curve.lift?_eq`: the point over an abscissa with a parity;
* `Curve.parse_compress`, `Curve.parse_uncompressed`: a key comes back from the marked forms;
* `Curve.fromRawKey_toRawKey`, `Curve.secret_ofNatBE`: a key comes back from the raw form, and a
  secret from its bytes.
-/
import SilentScan.Curve.Encoding
import SilentScan.Proofs.Bytes.Order
import SilentScan.Proofs.Curve.Group

namespace SilentScan

namespace Curve

variable {c : Curve} {p : PublicKey}

/-- The coordinates of a key are reduced. -/
lemma lt_of_onCurve (h : c.onCurve p = true) : p.x < c.fieldPrime ∧ p.y < c.fieldPrime := by
  simp only [onCurve, Bool.and_eq_true, decide_eq_true_eq] at h
  exact h.1

/-- The number under the root is the square of the ordinate. -/
lemma cubic_of_onCurve (h : c.onCurve p = true) :
    ((c.cubic p.x : ℕ) : c.BaseField) = (p.y : c.BaseField) ^ 2 := by
  simp only [onCurve, Bool.and_eq_true, beq_iff_eq] at h
  rw [← h.2, cast_times, sq]

variable [c.Sound]

/-- **A key is found again from its abscissa and the parity of its ordinate.** -/
theorem lift?_eq (h : c.onCurve p = true) : c.lift? (decide (p.y % 2 = 1)) p.x = some p := by
  obtain ⟨hx, hy⟩ := lt_of_onCurve h
  have hfour : c.fieldPrime % 4 = 3 := Sound.three_mod_four
  obtain ⟨r, hroot, hr, hsame⟩ := sqrt?_of_square hfour (cubic_of_onCurve h)
  have hchosen : (if (r % 2 = 1) = (decide (p.y % 2 = 1) = true) then r
      else (c.fieldPrime - r) % c.fieldPrime) = p.y := by
    obtain hsame | hopposite := hsame
    · obtain rfl : r = p.y := eq_of_cast_eq hr hy hsame
      simp
    · -- The root found is the other one, which has the other parity unless both are zero.
      have hsum : c.fieldPrime ∣ r + p.y := by
        rw [← ZMod.natCast_eq_zero_iff, Nat.cast_add, hopposite, neg_add_cancel]
      obtain ⟨k, hk⟩ := hsum
      have hk' : k = 0 ∨ k = 1 := by
        by_contra hmore
        have : c.fieldPrime * 2 ≤ c.fieldPrime * k := Nat.mul_le_mul_left _ (by omega)
        omega
      obtain rfl | rfl := hk'
      · have hrzero : r = 0 := by omega
        have hyzero : p.y = 0 := by omega
        simp [hrzero, hyzero]
      · have hparity : ¬((r % 2 = 1) = (decide (p.y % 2 = 1) = true)) := by
          simp only [decide_eq_true_eq, eq_iff_iff]
          omega
        rw [if_neg hparity, Nat.mod_eq_of_lt (by omega)]
        omega
  simp only [lift?, hx, if_true, hroot]
  exact congrArg (fun y => some (PublicKey.mk p.x y)) hchosen

/-- A coordinate fits into 32 bytes. -/
lemma toNatBE_coordinate {n : ℕ} (h : n < c.fieldPrime) :
    Bytes.toNatBE (Bytes.ofNatBE 32 n) = n :=
  Bytes.toNatBE_ofNatBE (h.trans_le (Sound.fits.trans_eq (by norm_num)))

/-- **A key comes back from its compressed form.** -/
theorem parse_compress (h : c.onCurve p = true) : c.parse p.compress = .ok p := by
  have hx := toNatBE_coordinate (lt_of_onCurve h).1
  have htake : (Bytes.ofNatBE 32 p.x).take 32 = Bytes.ofNatBE 32 p.x :=
    List.take_of_length_le (Bytes.length_ofNatBE 32 p.x).le
  have hlift := lift?_eq h
  by_cases hparity : p.y % 2 = 0
  · have hodd : decide (p.y % 2 = 1) = false := by simp [hparity]
    rw [hodd] at hlift
    simp [parse, PublicKey.compress, hparity, htake, hx, hlift]
  · have hodd : decide (p.y % 2 = 1) = true := by simpa using hparity
    rw [hodd] at hlift
    simp [parse, PublicKey.compress, hparity, htake, hx, hlift]

/-- **A key comes back from its full form.** -/
theorem parse_uncompressed (h : c.onCurve p = true) : c.parse p.uncompressed = .ok p := by
  obtain ⟨hx, hy⟩ := lt_of_onCurve h
  simp [parse, PublicKey.uncompressed, point?, toNatBE_coordinate hx, toNatBE_coordinate hy, h]

/-- The raw form with its halves swapped and reversed is the full form without its marker. -/
lemma reverse_toRawKey (p : PublicKey) :
    4 :: ((toRawKey p).drop 32 ++ (toRawKey p).take 32).reverse = p.uncompressed := by
  have hlength : (Bytes.ofNatLE 32 p.x).length = 32 := Bytes.length_ofNatLE 32 p.x
  rw [toRawKey, List.drop_left' hlength, List.take_left' hlength, List.reverse_append]
  rfl

/-- The compressed form of a key is found from its raw form. -/
lemma compressRawKey_toRawKey (h : c.onCurve p = true) :
    compressRawKey c (toRawKey p) = .ok p.compress := by
  have hlength : (toRawKey p).length = rawKeyLength := by simp [toRawKey, rawKeyLength]
  rw [compressRawKey, reverse_toRawKey, parse_uncompressed h, if_neg (not_not.2 hlength)]
  rfl

/-- **A key comes back from its raw form.** -/
theorem fromRawKey_toRawKey (h : c.onCurve p = true) : fromRawKey c (toRawKey p) = .ok p := by
  rw [fromRawKey, compressRawKey_toRawKey h]
  exact parse_compress h

/-- **A secret comes back from its bytes.** -/
theorem secret_ofNatBE {k : ℕ} (hpos : 0 < k) (hlt : k < c.order) :
    c.secret (Bytes.ofNatBE 32 k) = .ok k := by
  have hk : Bytes.toNatBE (Bytes.ofNatBE 32 k) = k :=
    Bytes.toNatBE_ofNatBE (hlt.trans_le (Sound.order_fits.trans_eq (by norm_num)))
  simp [secret, hk, hpos, hlt]

end Curve
end SilentScan
