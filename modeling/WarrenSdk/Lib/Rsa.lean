import Mathlib.Algebra.Field.ZMod
import Mathlib.FieldTheory.Finite.Basic

/-!
# The RSA permutation

Raising to exponents `e` and `d` with `e * d ≡ 1` modulo the Carmichael function of a product of two
distinct primes undo each other, and a factor `r ^ e` put in front of the message before the private
operation comes out as `r`.
-/

namespace WarrenSdk.Lib

theorem pow_modEq_of_prime (hp : p.Prime) (hk : k ≡ 1 [MOD p - 1]) (hpos : 0 < k) (m : Nat) :
    m ^ k ≡ m [MOD p] := by
  have : Fact p.Prime := ⟨hp⟩
  obtain ⟨t, ht⟩ := (Nat.modEq_iff_dvd' hpos).mp hk.symm
  rw [← ZMod.natCast_eq_natCast_iff, Nat.cast_pow, show k = 1 + (p - 1) * t by omega]
  by_cases hm : (m : ZMod p) = 0
  · rw [hm, pow_add, pow_one, zero_mul]
  · rw [pow_add, pow_mul, ZMod.pow_card_sub_one_eq_one hm, one_pow, pow_one, mul_one]

structure RsaKey where
  p : Nat
  q : Nat
  e : Nat
  d : Nat
  prime_p : p.Prime
  prime_q : q.Prime
  distinct : p ≠ q
  inverse : e * d ≡ 1 [MOD (p - 1).lcm (q - 1)]

namespace RsaKey
variable (key : RsaKey)

def n : Nat := key.p * key.q

theorem one_lt_lambda : 1 < (key.p - 1).lcm (key.q - 1) := by
  have hp := key.prime_p.two_le
  have hq := key.prime_q.two_le
  have hne := key.distinct
  have hle : key.p - 1 ≤ (key.p - 1).lcm (key.q - 1) :=
    Nat.le_of_dvd (Nat.lcm_pos (by omega) (by omega)) (Nat.dvd_lcm_left _ _)
  have hle' : key.q - 1 ≤ (key.p - 1).lcm (key.q - 1) :=
    Nat.le_of_dvd (Nat.lcm_pos (by omega) (by omega)) (Nat.dvd_lcm_right _ _)
  omega

theorem exponents_pos : 0 < key.e * key.d := by
  rcases Nat.eq_zero_or_pos (key.e * key.d) with h0 | hpos
  · have h := key.inverse
    rw [h0, Nat.ModEq, Nat.zero_mod, Nat.mod_eq_of_lt key.one_lt_lambda] at h
    cases h
  · exact hpos

theorem coprime : key.p.Coprime key.q :=
  (Nat.coprime_primes key.prime_p key.prime_q).mpr key.distinct

/-- The private operation undoes the public one. -/
theorem pow_pow (m : Nat) : (m ^ key.e) ^ key.d ≡ m [MOD key.n] := by
  rw [← pow_mul]
  refine (Nat.modEq_and_modEq_iff_modEq_mul key.coprime).mp ⟨?_, ?_⟩
  · exact pow_modEq_of_prime key.prime_p (key.inverse.of_dvd (Nat.dvd_lcm_left _ _))
      key.exponents_pos m
  · exact pow_modEq_of_prime key.prime_q (key.inverse.of_dvd (Nat.dvd_lcm_right _ _))
      key.exponents_pos m

/-- And the public operation undoes the private one. -/
theorem pow_pow' (m : Nat) : (m ^ key.d) ^ key.e ≡ m [MOD key.n] := by
  rw [← pow_mul, Nat.mul_comm, pow_mul]
  exact key.pow_pow m

/-- Signing a message blinded by `r ^ e`, and multiplying by the inverse of `r`, signs it. -/
theorem unblind (hr : r * r' ≡ 1 [MOD key.n]) (m : Nat) :
    (m * r ^ key.e) ^ key.d * r' ≡ m ^ key.d [MOD key.n] :=
  calc (m * r ^ key.e) ^ key.d * r'
      = m ^ key.d * ((r ^ key.e) ^ key.d * r') := by rw [mul_pow, mul_assoc]
    _ ≡ m ^ key.d * (r * r') [MOD key.n] := ((key.pow_pow r).mul_right r').mul_left _
    _ ≡ m ^ key.d * 1 [MOD key.n] := hr.mul_left _
    _ = m ^ key.d := Nat.mul_one _

end RsaKey

end WarrenSdk.Lib
