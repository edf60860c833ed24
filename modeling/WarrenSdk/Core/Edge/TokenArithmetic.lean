import Mathlib.Data.Int.ModEq
import Mathlib.Data.Nat.ModEq
import Mathlib.Data.Nat.Size
import Mathlib.Tactic.LinearCombination
import WarrenSdk.Core.Edge.Token
import WarrenSdk.Lib.Run

/-!
# The arithmetic of `edge/token.ts`

What the loops of `os2ip`, `i2osp`, `modPow` and `modInverse` compute, from what they keep, and
after how many turns they end: `modPow` takes one for each bit of the exponent, `modInverse` at most
two for each bit of the modulus.
-/

namespace WarrenSdk.Core
open Lib

/-! ## Octet strings -/

theorem os2ip_eq (bytes : Bytes) : os2ip bytes = ofBE bytes := by
  unfold os2ip ofBE
  congr 1
  funext n b
  have hb : b.toNat < 2 ^ 8 := b.toNat_lt
  rw [← Nat.shiftLeft_add_eq_or_of_lt hb, Nat.shiftLeft_eq]

theorem i2ospLoop_eq (i v : Nat) (out : Bytes) :
    i2ospLoop i v out = (v / 256 ^ i, toBE i v ++ out) := by
  induction i generalizing v out with
  | zero => simp [i2ospLoop, toBE]
  | succ i ih =>
    have hlow : UInt8.ofNat (v &&& 0xff) = UInt8.ofNat v := by
      apply UInt8.toNat_inj.mp
      rw [UInt8.toNat_ofNat', UInt8.toNat_ofNat', Nat.and_two_pow_sub_one_eq_mod v 8]
      exact Nat.mod_mod _ _
    have hshift : v >>> 8 = v / 256 := Nat.shiftRight_eq_div_pow v 8
    rw [i2ospLoop, ih, hlow, hshift, Nat.div_div_eq_div_mul, toBE, List.append_assoc,
      List.singleton_append, Nat.pow_succ, Nat.mul_comm 256]

theorem i2osp_of_lt (h : n < 256 ^ len) : i2osp n len = .ok ⟨toBE len n, length_toBE _ _⟩ := by
  have hv : n / 256 ^ len = 0 := Nat.div_eq_of_lt h
  simp only [i2osp, i2ospLoop_eq, hv, ne_eq, not_true, if_false, List.append_nil]

theorem i2osp_of_le (h : 256 ^ len ≤ n) :
    i2osp n len = .error (.range "integer too large for the requested octet length") := by
  have hv : n / 256 ^ len ≠ 0 := Nat.ne_of_gt (Nat.div_pos h (Nat.pow_pos (by decide)))
  simp only [i2osp, i2ospLoop_eq, ne_eq, hv, not_false_iff, if_true]

theorem os2ip_lt (bytes : Octets len) : os2ip bytes.1 < 256 ^ len := by
  have h := ofBE_lt bytes.1
  rwa [bytes.2, ← os2ip_eq] at h

theorem i2osp_os2ip (bytes : Octets len) : i2osp (os2ip bytes.1) len = .ok bytes := by
  have hb : toBE len (ofBE bytes.1) = bytes.1 := by
    have h := toBE_ofBE bytes.1
    rwa [bytes.2] at h
  rw [i2osp_of_lt (os2ip_lt bytes)]
  simp only [os2ip_eq, hb]

theorem os2ip_of_i2osp {bytes : Octets len} (h : i2osp n len = .ok bytes) :
    os2ip bytes.1 = n ∧ n < 256 ^ len := by
  rcases Nat.lt_or_ge n (256 ^ len) with hn | hn
  · rw [i2osp_of_lt hn] at h
    cases h
    exact ⟨by rw [os2ip_eq, ofBE_toBE_of_lt hn], hn⟩
  · rw [i2osp_of_le hn] at h
    cases h

/-! ## Square and multiply -/

/-- The variables of the loop of `modPow`. -/
structure PowState where
  result : Nat
  b : Nat
  e : Nat

namespace PowState

def turn (mod : Nat) (s : PowState) : PowState where
  result := if s.e &&& 1 ≠ 0 then s.result * s.b % mod else s.result
  b := s.b * s.b % mod
  e := s.e >>> 1

/-- The guard of the loop. -/
def Goes (s : PowState) : Prop := 0 < s.e

def start (base exp mod : Nat) : PowState where
  result := 1
  b := base % mod
  e := exp

/-- Each turn keeps `result * b ^ e`. -/
theorem turn_modEq (mod : Nat) (s : PowState) :
    (s.turn mod).result * (s.turn mod).b ^ (s.turn mod).e ≡ s.result * s.b ^ s.e [MOD mod] := by
  have hhalf : s.e >>> 1 = s.e / 2 := Nat.shiftRight_one s.e
  have hodd : s.e &&& 1 = s.e % 2 := Nat.and_one_is_mod s.e
  have hsq : (s.b * s.b % mod) ^ (s.e / 2) ≡ (s.b * s.b) ^ (s.e / 2) [MOD mod] :=
    (Nat.mod_modEq _ _).pow _
  simp only [turn, hhalf, hodd]
  split
  next hbit =>
    calc s.result * s.b % mod * (s.b * s.b % mod) ^ (s.e / 2)
        ≡ s.result * s.b * (s.b * s.b) ^ (s.e / 2) [MOD mod] := (Nat.mod_modEq _ _).mul hsq
      _ = s.result * s.b ^ (2 * (s.e / 2) + 1) := by rw [pow_succ, pow_mul]; ring
      _ = s.result * s.b ^ s.e := by rw [show 2 * (s.e / 2) + 1 = s.e by omega]
  next hbit =>
    calc s.result * (s.b * s.b % mod) ^ (s.e / 2)
        ≡ s.result * (s.b * s.b) ^ (s.e / 2) [MOD mod] := hsq.mul_left _
      _ = s.result * s.b ^ (2 * (s.e / 2)) := by rw [pow_mul]; ring
      _ = s.result * s.b ^ s.e := by rw [show 2 * (s.e / 2) = s.e by omega]

theorem turn_lt {s : PowState} (h : s.result < mod) : (s.turn mod).result < mod := by
  simp only [turn]
  split
  · exact Nat.mod_lt _ (Nat.zero_lt_of_lt h)
  · exact h

end PowState

theorem modPowLoop_of_pos (h : 0 < e) (mod result b : Nat) :
    modPowLoop mod result b e =
      modPowLoop mod (if e &&& 1 ≠ 0 then result * b % mod else result) (b * b % mod)
          (e >>> 1) := by
  rw [modPowLoop, if_pos h]

theorem modPowLoop_zero (mod result b : Nat) : modPowLoop mod result b 0 = result := by
  rw [modPowLoop, if_neg (Nat.lt_irrefl 0)]

theorem size_eq_succ (h : 0 < e) : e.size = (e >>> 1).size + 1 := by
  have hbit := Nat.size_bit (b := e.bodd) (n := e.div2) (by rw [Nat.bit_bodd_div2]; omega)
  rwa [Nat.bit_bodd_div2, Nat.div2_val, ← Nat.shiftRight_one] at hbit

/-- The loop of `modPow` takes a turn for each bit of the exponent. -/
theorem modPowLoop_turns (mod result b e : Nat) :
    ∃ b', Turns PowState.Goes (PowState.turn mod) e.size ⟨result, b, e⟩
      ⟨modPowLoop mod result b e, b', 0⟩ := by
  induction e using Nat.strong_induction_on generalizing result b with
  | h e ih =>
    rcases Nat.eq_zero_or_pos e with rfl | hpos
    · rw [modPowLoop_zero, Nat.size_zero]
      exact ⟨b, .stop (Nat.lt_irrefl 0)⟩
    · have hlt : e >>> 1 < e := by
        rw [Nat.shiftRight_one]
        omega
      obtain ⟨b', h⟩ := ih (e >>> 1) hlt (if e &&& 1 ≠ 0 then result * b % mod else result)
        (b * b % mod)
      rw [modPowLoop_of_pos hpos, size_eq_succ hpos]
      exact ⟨b', .turn hpos h⟩

theorem modPowLoop_modEq (mod result b e : Nat) :
    modPowLoop mod result b e ≡ result * b ^ e [MOD mod] := by
  obtain ⟨b', h⟩ := modPowLoop_turns mod result b e
  have hkept := h.invariant
    (I := fun s : PowState => s.result * s.b ^ s.e ≡ result * b ^ e [MOD mod])
    (fun _ hs => (PowState.turn_modEq mod _).trans hs) rfl
  rwa [pow_zero, mul_one] at hkept

theorem modPowLoop_lt (hr : result < mod) (b e : Nat) : modPowLoop mod result b e < mod := by
  obtain ⟨b', h⟩ := modPowLoop_turns mod result b e
  exact h.invariant (I := fun s : PowState => s.result < mod) (fun _ hs => PowState.turn_lt hs) hr

theorem modPow_eq (hm : 1 < mod) (base exp : Nat) : modPow base exp mod = base ^ exp % mod := by
  have h : modPow base exp mod ≡ base ^ exp [MOD mod] :=
    (modPowLoop_modEq mod 1 (base % mod) exp).trans <| by
      rw [one_mul]
      exact (Nat.mod_modEq _ _).pow _
  have hlt : modPow base exp mod < mod := modPowLoop_lt hm _ _
  rw [← Nat.mod_eq_of_lt hlt]
  exact h

/-! ## Extended Euclid -/

/-- The variables of the loop of `modInverse`. -/
structure InverseState where
  old_r : Int
  r : Int
  old_s : Int
  s : Int

namespace InverseState

def turn (t : InverseState) : InverseState :=
  let q := t.old_r.tdiv t.r
  { old_r := t.r, r := t.old_r - q * t.r, old_s := t.s, s := t.old_s - q * t.s }

/-- The guard of the loop. -/
def Goes (t : InverseState) : Prop := t.r ≠ 0

def start (a m : Int) : InverseState where
  old_r := (a.tmod m + m).tmod m
  r := m
  old_s := 1
  s := 0

/-- What `modInverse` makes of the end of its loop. -/
def answer (m : Int) (t : InverseState) : Except Failure Int :=
  if t.old_r ≠ 1 then .error (.error "no modular inverse (value not coprime to modulus)")
  else .ok ((t.old_s.tmod m + m).tmod m)

/-- What the turns keep: the divisors of the two remainders, and the remainders as multiples of
`a`. -/
structure Keeps (m a : Int) (g : Nat) (t : InverseState) : Prop where
  old_nonneg : 0 ≤ t.old_r
  nonneg : 0 ≤ t.r
  gcd : Int.gcd t.old_r t.r = g
  old_bezout : t.old_s * a ≡ t.old_r [ZMOD m]
  bezout : t.s * a ≡ t.r [ZMOD m]

theorem Keeps.turn {t : InverseState} (h : t.Keeps m a g) (hg : t.Goes) : t.turn.Keeps m a g := by
  have hmod : t.old_r - t.old_r.tdiv t.r * t.r = t.old_r % t.r := by
    rw [Int.tdiv_eq_ediv_of_nonneg h.old_nonneg, Int.emod_def, mul_comm]
  have hgcd : Int.gcd t.r (t.old_r % t.r) = Int.gcd t.old_r t.r := by
    rw [Int.gcd_comm, Int.gcd_emod, Int.gcd_comm]
  refine ⟨h.nonneg, ?_, ?_, h.bezout, ?_⟩
  · simp only [InverseState.turn, hmod]
    exact Int.emod_nonneg _ hg
  · simp only [InverseState.turn, hmod, hgcd]
    exact h.gcd
  · simp only [InverseState.turn]
    rw [sub_mul, mul_assoc]
    exact h.old_bezout.sub (h.bezout.mul_left _)

end InverseState

theorem modInverseLoop_of_ne {r : Int} (h : r ≠ 0) (old_r old_s s : Int) :
    modInverseLoop old_r r old_s s =
      modInverseLoop r (old_r - old_r.tdiv r * r) s (old_s - old_r.tdiv r * s) := by
  rw [modInverseLoop, if_pos h]

theorem modInverseLoop_zero (old_r old_s s : Int) :
    modInverseLoop old_r 0 old_s s = (old_r, old_s) := by
  rw [modInverseLoop, if_neg (not_not.mpr rfl)]

theorem natAbs_sub_tdiv_mul (a b : Int) : (a - a.tdiv b * b).natAbs = a.natAbs % b.natAbs := by
  rw [mul_comm, ← Int.tmod_def, Int.natAbs_tmod]

/-- Two remainders on, there is a bit less. -/
theorem size_mod_mod_lt (hk : 0 < k) (hpos : 0 < n % k) : (k % (n % k)).size < k.size := by
  have hlt : n % k < k := Nat.mod_lt n hk
  have hrest : k % (n % k) < n % k := Nat.mod_lt k hpos
  have hsub : k % (n % k) ≤ k - n % k := by
    rw [Nat.mod_eq_sub_mod hlt.le]
    exact Nat.mod_le _ _
  have hbits : k < 2 ^ k.size := Nat.lt_size_self k
  have hsize : 0 < k.size := Nat.size_pos.mpr hk
  have hdouble : 2 ^ k.size = 2 * 2 ^ (k.size - 1) := by
    rw [← Nat.pow_succ', Nat.succ_eq_add_one, Nat.sub_add_cancel hsize]
  have hle : (k % (n % k)).size ≤ k.size - 1 := by
    apply Nat.size_le.mpr
    omega
  omega

/-- The loop of `modInverse` takes at most two turns for each bit of the remainder. -/
theorem modInverseLoop_turns (old_r r old_s s : Int) :
    ∃ n ≤ 2 * r.natAbs.size, ∃ s', Turns InverseState.Goes InverseState.turn n ⟨old_r, r, old_s, s⟩
      ⟨(modInverseLoop old_r r old_s s).1, 0, (modInverseLoop old_r r old_s s).2, s'⟩ := by
  induction hk : r.natAbs using Nat.strong_induction_on generalizing old_r r old_s s with
  | h k ih =>
    subst hk
    by_cases hr : r = 0
    · subst hr
      rw [modInverseLoop_zero]
      exact ⟨0, Nat.zero_le _, s, .stop (not_not.mpr rfl)⟩
    · have hpos : 0 < r.natAbs := Int.natAbs_pos.mpr hr
      have hsize : 0 < r.natAbs.size := Nat.size_pos.mpr hpos
      have hnext := natAbs_sub_tdiv_mul old_r r
      have hturn : InverseState.turn ⟨old_r, r, old_s, s⟩ =
        ⟨r, old_r - old_r.tdiv r * r, s, old_s - old_r.tdiv r * s⟩ := rfl
      rw [modInverseLoop_of_ne hr]
      generalize old_r - old_r.tdiv r * r = r₁, old_s - old_r.tdiv r * s = s₁ at hnext hturn ⊢
      by_cases hr₁ : r₁ = 0
      · subst hr₁
        rw [modInverseLoop_zero]
        refine ⟨1, by omega, s₁, .turn hr ?_⟩
        rw [hturn]
        exact .stop (not_not.mpr rfl)
      · have hpos₁ : 0 < old_r.natAbs % r.natAbs := by
          rw [← hnext]
          exact Int.natAbs_pos.mpr hr₁
        have hnext₂ := natAbs_sub_tdiv_mul r r₁
        have hless := size_mod_mod_lt hpos hpos₁
        have hlt := (Nat.mod_lt r.natAbs hpos₁).trans (Nat.mod_lt old_r.natAbs hpos)
        rw [← hnext, ← hnext₂] at hless hlt
        obtain ⟨n, hn, s', h⟩ := ih _ hlt r₁ (r - r.tdiv r₁ * r₁) s₁ (s - r.tdiv r₁ * s₁) rfl
        rw [modInverseLoop_of_ne hr₁]
        refine ⟨n + 2, by omega, s', .turn hr ?_⟩
        rw [hturn]
        exact .turn hr₁ h

theorem modInverseLoop_spec {m a old_r r old_s s : Int} (ho : 0 ≤ old_r) (hr : 0 ≤ r)
    (hos : old_s * a ≡ old_r [ZMOD m]) (hs : s * a ≡ r [ZMOD m]) :
    (modInverseLoop old_r r old_s s).1 = Int.gcd old_r r ∧
      (modInverseLoop old_r r old_s s).2 * a ≡ (modInverseLoop old_r r old_s s).1 [ZMOD m] := by
  obtain ⟨n, -, s', h⟩ := modInverseLoop_turns old_r r old_s s
  have hkept := h.invariant (I := InverseState.Keeps m a (Int.gcd old_r r))
    (fun hg ht => ht.turn hg) ⟨ho, hr, rfl, hos, hs⟩
  have hgcd := hkept.gcd
  rw [Int.gcd_zero_right] at hgcd
  exact ⟨by rw [← hgcd, Int.natAbs_of_nonneg hkept.old_nonneg], hkept.old_bezout⟩

/-- The remainder, which the source makes nonnegative. -/
theorem tmod_add_tmod {m : Int} (hm : 0 < m) (a : Int) : (a.tmod m + m).tmod m = a % m := by
  have h : -m < a.tmod m := Int.lt_tmod_of_pos a hm
  rw [Int.tmod_eq_emod_of_nonneg (by omega), Int.add_emod_right, Int.tmod_def,
    Int.sub_mul_emod_self_left]

theorem modInverse_spec {a m : Int} (hm : 1 < m) :
    (Int.gcd a m = 1 → ∃ x, modInverse a m = .ok x ∧ 0 ≤ x ∧ x < m ∧ a * x ≡ 1 [ZMOD m]) ∧
      (Int.gcd a m ≠ 1 → modInverse a m =
        .error (.error "no modular inverse (value not coprime to modulus)")) := by
  have hpos : 0 < m := by omega
  obtain ⟨hgcd, hinv⟩ := modInverseLoop_spec (m := m) (a := a) (Int.emod_nonneg a hpos.ne')
    hpos.le (by rw [one_mul]; exact (Int.mod_modEq a m).symm)
    (show 0 * a ≡ m [ZMOD m] by rw [zero_mul]; exact (Int.modEq_zero_iff_dvd.mpr dvd_rfl).symm)
  rw [Int.gcd_emod] at hgcd
  have hloop : modInverseLoop ((a.tmod m + m).tmod m) m 1 0 = modInverseLoop (a % m) m 1 0 := by
    rw [tmod_add_tmod hpos]
  constructor
  · intro hone
    rw [hone] at hgcd
    refine ⟨(modInverseLoop (a % m) m 1 0).2 % m, ?_, Int.emod_nonneg _ hpos.ne',
      Int.emod_lt_of_pos _ hpos, ?_⟩
    · simp only [modInverse, if_neg hpos.ne', hgcd, Nat.cast_one, ne_eq, not_true, if_false,
        tmod_add_tmod hpos]
    · rw [mul_comm]
      refine ((Int.mod_modEq _ m).mul_right a).trans ?_
      rwa [hgcd, Nat.cast_one] at hinv
  · intro hne
    have h : ¬ (modInverseLoop (a % m) m 1 0).1 = 1 := by
      rw [hgcd]
      exact_mod_cast hne
    simp only [modInverse, if_neg hpos.ne', hloop, ne_eq, h, not_false_iff, if_true]

/-- The inverse as a natural number. -/
theorem modInverse_natCast {r n : Nat} (hn : 1 < n) (hr : r.Coprime n) :
    ∃ x : Nat, modInverse r n = .ok (x : Int) ∧ x < n ∧ r * x ≡ 1 [MOD n] := by
  obtain ⟨x, hx, h0, hlt, hone⟩ := (modInverse_spec (a := r) (m := n) (by exact_mod_cast hn)).1
    (by rw [Int.gcd_natCast_natCast]; exact hr)
  lift x to Nat using h0
  refine ⟨x, hx, by exact_mod_cast hlt, ?_⟩
  rw [← Int.natCast_modEq_iff]
  exact_mod_cast hone

theorem modInverse_turns {m : Int} (hm : m ≠ 0) (a : Int) :
    ∃ n ≤ 2 * m.natAbs.size, ∃ t, Turns InverseState.Goes InverseState.turn n (.start a m) t ∧
      modInverse a m = t.answer m := by
  obtain ⟨n, hn, s', h⟩ := modInverseLoop_turns ((a.tmod m + m).tmod m) m 1 0
  refine ⟨n, hn, _, h, ?_⟩
  simp only [modInverse, if_neg hm, InverseState.answer]

theorem modPow_turns (base exp mod : Nat) :
    ∃ t, Turns PowState.Goes (PowState.turn mod) exp.size (.start base exp mod) t ∧
      modPow base exp mod = t.result := by
  obtain ⟨b', h⟩ := modPowLoop_turns mod 1 (base % mod) exp
  exact ⟨_, h, rfl⟩

/-- A number below `m` is given back exactly if it is inverse to `a`. -/
theorem modInverse_eq_ok {a m x : Int} (hm : 1 < m) :
    modInverse a m = .ok x ↔ 0 ≤ x ∧ x < m ∧ a * x ≡ 1 [ZMOD m] := by
  constructor
  · intro h
    by_cases hone : Int.gcd a m = 1
    · obtain ⟨y, hy, hspec⟩ := (modInverse_spec hm).1 hone
      rw [h] at hy
      cases hy
      exact hspec
    · rw [(modInverse_spec hm).2 hone] at h
      cases h
  · intro hx
    obtain ⟨h0, hlt, hinv⟩ := hx
    obtain ⟨k, hk⟩ := hinv.dvd
    have hone : Int.gcd a m = 1 := by
      apply Int.gcd_eq_one_iff.mpr
      intro c hca hcm
      rw [show 1 = a * x + m * k by linear_combination hk]
      exact Int.dvd_add (Int.dvd_mul_of_dvd_left hca) (Int.dvd_mul_of_dvd_left hcm)
    obtain ⟨y, hy, hy0, hylt, hyinv⟩ := (modInverse_spec hm).1 hone
    have hyx : y ≡ x [ZMOD m] := by
      calc y = 1 * y := (one_mul y).symm
        _ ≡ a * x * y [ZMOD m] := hinv.symm.mul_right y
        _ = a * y * x := by ring
        _ ≡ 1 * x [ZMOD m] := hyinv.mul_right x
        _ = x := one_mul x
    have heq : y = x := by
      rw [← Int.emod_eq_of_lt hy0 hylt, hyx, Int.emod_eq_of_lt h0 hlt]
    rw [hy, heq]

/-- The helpers compute what they are named for, and their loops end. -/
theorem tokenArithmetic_exact :
    (∀ m : Nat, 1 < m →
      (∀ a : Int,
        (∃ n ≤ 2 * m.size, ∃ t, Turns InverseState.Goes InverseState.turn n (.start a m) t ∧
          modInverse a m = t.answer m) ∧
        (∀ x, modInverse a m = .ok x ↔ 0 ≤ x ∧ x < m ∧ a * x ≡ 1 [ZMOD m]) ∧
        (Int.gcd a m = 1 → ∃ x, modInverse a m = .ok x) ∧
        (Int.gcd a m ≠ 1 → modInverse a m =
          .error (.error "no modular inverse (value not coprime to modulus)"))) ∧
      ∀ base exp : Nat,
        (∃ t, Turns PowState.Goes (PowState.turn m) exp.size (.start base exp m) t ∧
          modPow base exp m = t.result) ∧
        modPow base exp m = base ^ exp % m ∧ modPow base exp m < m) ∧
    ∀ len : Nat,
      (∀ bytes : Octets len, os2ip bytes.1 < 256 ^ len ∧ i2osp (os2ip bytes.1) len = .ok bytes) ∧
      (∀ n < 256 ^ len, ∃ bytes : Octets len, i2osp n len = .ok bytes ∧ os2ip bytes.1 = n) ∧
      ∀ n, 256 ^ len ≤ n →
        i2osp n len = .error (.range "integer too large for the requested octet length") := by
  refine ⟨fun m hm => ⟨fun a => ?_, fun base exp => ?_⟩,
    fun len => ⟨fun bytes => ?_, fun n hn => ?_, fun n hn => i2osp_of_le hn⟩⟩
  · have hm' : 1 < (m : Int) := by exact_mod_cast hm
    have hturns := modInverse_turns (m := m) (by omega) a
    rw [Int.natAbs_natCast] at hturns
    refine ⟨hturns, fun x => modInverse_eq_ok hm', fun hone => ?_, (modInverse_spec hm').2⟩
    obtain ⟨x, hx, -⟩ := (modInverse_spec hm').1 hone
    exact ⟨x, hx⟩
  · refine ⟨modPow_turns base exp m, modPow_eq hm base exp, ?_⟩
    rw [modPow_eq hm]
    exact Nat.mod_lt _ (Nat.zero_lt_of_lt hm)
  · exact ⟨os2ip_lt bytes, i2osp_os2ip bytes⟩
  · have hbytes := i2osp_of_lt hn
    exact ⟨_, hbytes, (os2ip_of_i2osp hbytes).1⟩

end WarrenSdk.Core
