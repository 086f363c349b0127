/-
The parameters of the curve of the payments.

That the curve is sound comes down to two prime numbers, that of the field and the order of the
generator. Both are proved prime by Pocklington's test: if some primes whose product exceeds the
root of `n` divide `n - 1`, and some number has the order to show for it, then every divisor of
`n` exceeds the root of `n`. The primes used are found prime in the same way, down to small ones.

* `primeTest`, `prime_of_primeTest`: the test;
* `prime_fieldPrime`, `prime_order`: the two primes;
* the parameters of `secp256k1` are sound.
-/
import Mathlib.NumberTheory.LucasPrimality
import Mathlib.Tactic.NormNum.Prime
import SilentScan.Proofs.Curve.Group

namespace SilentScan

/-! ### Pocklington's test -/

/-- A curve whose arithmetic is that modulo a number. -/
def modulo (n : ℕ) : Curve :=
  { secp256k1 with fieldPrime := n }

/-- Pocklington's test of a number by some divisors of the number before it, with a witness. -/
def primeTest (n witness : ℕ) (divisors : List ℕ) : Bool :=
  let power := (modulo n).power witness (n.log2 + 1)
  1 < n && n < divisors.prod * divisors.prod && (n - 1) % divisors.prod == 0
    && power (n - 1) == 1 && divisors.all fun q => Nat.gcd (power ((n - 1) / q) - 1) n == 1

/-- What divides an exponent, and cannot be left out of it, divides the number of units. -/
lemma dvd_pred_of_pow_eq_one {l : ℕ} [Fact l.Prime] {x : ZMod l} {m F : ℕ} (hpos : 0 < F)
    (hF : F ∣ m) (hone : x ^ m = 1) (hleft : ∀ q, q.Prime → q ∣ F → x ^ (m / q) ≠ 1) :
    F ∣ l - 1 := by
  obtain ⟨k, rfl⟩ := hF
  have horder : orderOf (x ^ k) = F := by
    refine orderOf_eq_of_pow_and_pow_div_prime hpos (by rw [← pow_mul, mul_comm, hone]) ?_
    rintro q hq ⟨r, rfl⟩ h
    refine hleft q hq (Dvd.intro r rfl) ?_
    rw [Nat.mul_div_cancel_left _ hq.pos, ← pow_mul] at h
    rwa [mul_assoc, Nat.mul_div_cancel_left _ hq.pos, mul_comm]
  have hunit : x ^ k ≠ 0 := by
    intro hzero
    rw [mul_comm, pow_mul, hzero, zero_pow hpos.ne'] at hone
    exact zero_ne_one hone
  exact horder ▸ orderOf_dvd_of_pow_eq_one (ZMod.pow_card_sub_one_eq_one hunit)

/-- **A number that passes the test by prime divisors is prime.** -/
theorem prime_of_primeTest {n : ℕ} (witness : ℕ) (divisors : List ℕ)
    (hprime : ∀ q ∈ divisors, q.Prime) (h : primeTest n witness divisors = true) : n.Prime := by
  simp only [primeTest, Bool.and_eq_true, decide_eq_true_eq, beq_iff_eq, List.all_eq_true] at h
  obtain ⟨⟨⟨⟨hone, hroot⟩, hdvd⟩, hfermat⟩, hcoprime⟩ := h
  have hlprime : n.minFac.Prime := Nat.minFac_prime hone.ne'
  have : Fact n.minFac.Prime := ⟨hlprime⟩
  have hln : n.minFac ∣ n := Nat.minFac_dvd n
  -- Powers modulo `n` are powers modulo its least divisor.
  have hpower : ∀ e ≤ n - 1, (((modulo n).power witness (n.log2 + 1) e : ℕ) : ZMod n.minFac)
      = (witness : ZMod n.minFac) ^ e := by
    intro e he
    have hbound : e < 2 ^ (n.log2 + 1) := lt_of_le_of_lt (by omega) Nat.lt_log2_self
    have hcast : (((modulo n).power witness (n.log2 + 1) e : ℕ) : ZMod n)
        = (witness : ZMod n) ^ e :=
      Curve.cast_power witness hbound
    rw [← Nat.cast_pow, ZMod.natCast_eq_natCast_iff] at hcast ⊢
    exact hcast.of_dvd hln
  have hproper : ∀ q, q.Prime → q ∣ divisors.prod →
      (witness : ZMod n.minFac) ^ ((n - 1) / q) ≠ 1 := by
    intro q hq hdiv hpow
    have hmem : q ∈ divisors := mem_list_primes_of_dvd_prod hq.prime
      (fun p hp => (hprime p hp).prime) hdiv
    set r := (modulo n).power witness (n.log2 + 1) ((n - 1) / q) with hr
    have hcast : (r : ZMod n.minFac) = (1 : ℕ) := by
      rw [hr, hpower _ (Nat.div_le_self _ _), hpow, Nat.cast_one]
    have hpred : n.minFac ∣ r - 1 := by
      obtain hzero | hpos := Nat.eq_zero_or_pos r
      · simp [hzero]
      · exact (Nat.modEq_iff_dvd' hpos).1 ((ZMod.natCast_eq_natCast_iff _ _ _).1 hcast.symm)
    have hcommon := Nat.dvd_gcd hpred hln
    rw [hcoprime q hmem] at hcommon
    exact hlprime.one_lt.ne' (Nat.dvd_one.1 hcommon)
  have hpred : divisors.prod ∣ n.minFac - 1 := by
    refine dvd_pred_of_pow_eq_one ?_ (Nat.dvd_of_mod_eq_zero hdvd) ?_ hproper
    · exact Nat.pos_of_ne_zero fun hzero => by simp [hzero] at hroot
    · rw [← hpower _ le_rfl, hfermat, Nat.cast_one]
  by_contra hcomposite
  have hle : divisors.prod ≤ n.minFac := by
    have := Nat.le_of_dvd (by have := hlprime.one_lt; omega) hpred
    omega
  have hsquare := Nat.minFac_sq_le_self (by omega) hcomposite
  have := Nat.mul_le_mul hle hle
  rw [sq] at hsquare
  omega

/-! ### The primes -/

/-- The field prime is prime. -/
theorem prime_fieldPrime : secp256k1.fieldPrime.Prime := by
  have h128 : Nat.Prime 255515944373312847190720520512484175977 :=
    prime_of_primeTest 3 [107590001, 7240687, 96557] (by norm_num) (by decide +kernel)
  have h237 : Nat.Prime 205115282021455665897114700593932402728804164701536103180137503955397371 :=
    prime_of_primeTest 10 [255515944373312847190720520512484175977] (by simpa using h128)
      (by decide +kernel)
  exact prime_of_primeTest 3
    [205115282021455665897114700593932402728804164701536103180137503955397371]
    (by simpa using h237) (by decide +kernel)

/-- The order of the generator is prime. -/
theorem prime_order : secp256k1.order.Prime := by
  have h38 : Nat.Prime 297159362677 :=
    prime_of_primeTest 2 [1627771] (by norm_num) (by decide +kernel)
  have h95 : Nat.Prime 29047611873442575647497758179 :=
    prime_of_primeTest 2 [297159362677, 305873] (by simp [h38]; norm_num) (by decide +kernel)
  have h108 : Nat.Prime 341948486974166000522343609283189 :=
    prime_of_primeTest 2 [29047611873442575647497758179] (by simpa using h95) (by decide +kernel)
  have h57 : Nat.Prime 107361793816595537 :=
    prime_of_primeTest 3 [4681609, 85831] (by norm_num) (by decide +kernel)
  exact prime_of_primeTest 7 [341948486974166000522343609283189, 107361793816595537]
    (by simpa using ⟨h108, h57⟩) (by decide +kernel)

instance : secp256k1.Sound where
  prime := prime_fieldPrime
  three_mod_four := by decide
  fits := by decide
  smooth := by decide
  generator := by decide +kernel
  order_prime := prime_order
  order_base := by decide +kernel
  order_fits := by decide

end SilentScan
