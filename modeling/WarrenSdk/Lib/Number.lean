import Mathlib.Tactic.Ring
import Mathlib.Data.Nat.Basic

/-!
# Whole numbers as doubles

The number of JavaScript nearest to a `bigint`, and the numbers that are exact.
-/

namespace WarrenSdk.Lib

/-- `2 ^ 53`: every whole number up to it is a double. -/
def MAX_EXACT : Nat := 9007199254740992

theorem lt_MAX_EXACT (h : n < 2 ^ 53) : n < MAX_EXACT := h

/-- `n` to the nearest multiple of `m`, to the even one of two as near. -/
def roundTo (m n : Nat) : Nat :=
  let q := n / m
  let r := n % m
  (if 2 * r < m ∨ 2 * r = m ∧ q % 2 = 0 then q else q + 1) * m

/-- `Number(n)` of a natural number below the largest double: 53 significant bits are kept. -/
def toNumber (n : Nat) : Nat := if n < MAX_EXACT then n else roundTo (2 ^ (n.log2 - 52)) n

theorem toNumber_of_lt (h : n < MAX_EXACT) : toNumber n = n := if_pos h

theorem le_roundTo {m k n : Nat} (h : k * m ≤ n) (hm : 0 < m) : k * m ≤ roundTo m n := by
  have hq : k ≤ n / m := (Nat.le_div_iff_mul_le hm).mpr h
  unfold roundTo
  dsimp only
  split
  · exact Nat.mul_le_mul_right m hq
  · exact Nat.mul_le_mul_right m (Nat.le_succ_of_le hq)

theorem le_toNumber (h : MAX_EXACT ≤ n) : MAX_EXACT ≤ toNumber n := by
  have hne : n ≠ 0 := by
    rintro rfl
    cases Nat.le_zero.mp h
  have hlog : 53 ≤ n.log2 := (Nat.le_log2 hne).mpr h
  have hsplit : 2 ^ 52 * 2 ^ (n.log2 - 52) = 2 ^ n.log2 := by
    rw [← Nat.pow_add]
    congr 1
    omega
  have hle : 2 ^ 52 * 2 ^ (n.log2 - 52) ≤ n := by
    rw [hsplit]
    exact Nat.log2_self_le hne
  rw [toNumber, if_neg (Nat.not_lt.mpr h)]
  refine Nat.le_trans ?_ (le_roundTo hle (Nat.two_pow_pos _))
  rw [hsplit]
  exact Nat.pow_le_pow_right Nat.two_pos hlog

/-- A number that is exact is the one it was converted from. -/
theorem toNumber_eq_of_lt (h : toNumber n < MAX_EXACT) : toNumber n = n := by
  rcases Nat.lt_or_ge n MAX_EXACT with hlt | hge
  · exact toNumber_of_lt hlt
  · exact absurd (le_toNumber hge) (Nat.not_le.mpr h)

end WarrenSdk.Lib
