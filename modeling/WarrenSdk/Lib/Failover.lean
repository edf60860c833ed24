import Mathlib.Data.List.Basic
import Mathlib.Data.List.Infix

/-!
# Failover

Requests are tried one after the other, for as long as what becomes of one moves on to the next. The
`i`-th try of a run has the `i`-th outcome.
-/

namespace WarrenSdk.Lib

variable {ρ : Type u} {σ : Type v} {ω : Type w} (moves : ω → Bool) (outcome : Nat → ω)

/-- What is tried of `requests` from the `i`-th try on, with what became of it. -/
def tried : Nat → List ρ → List (ρ × ω)
  | _, [] => []
  | i, r :: rs => (r, outcome i) :: if moves (outcome i) then tried (i + 1) rs else []

theorem tried_map (f : ρ → σ) (i : Nat) (rs : List ρ) :
    tried moves outcome i (rs.map f) = (tried moves outcome i rs).map fun x => (f x.1, x.2) := by
  induction rs generalizing i with
  | nil => rfl
  | cons r rs ih =>
    rw [List.map_cons, tried, tried, ih]
    split <;> rfl

/-- Requests are tried in order, each of them at most once. -/
theorem tried_requests (i : Nat) (rs : List ρ) : (tried moves outcome i rs).map (·.1) <+: rs := by
  induction rs generalizing i with
  | nil => exact List.nil_prefix
  | cons r rs ih =>
    rw [tried, List.map_cons, List.cons_prefix_cons]
    refine ⟨rfl, ?_⟩
    split
    · exact ih (i + 1)
    · exact List.nil_prefix

/-- Nothing is tried behind an outcome that does not move on. -/
theorem tried_moves (i : Nat) (rs : List ρ) :
    ∀ x ∈ (tried moves outcome i rs).dropLast, moves x.2 = true := by
  induction rs generalizing i with
  | nil => exact fun x hx => absurd hx List.not_mem_nil
  | cons r rs ih =>
    intro x hx
    rw [tried] at hx
    split at hx
    · next hmoves =>
      by_cases hnil : tried moves outcome (i + 1) rs = []
      · rw [hnil] at hx
        exact absurd hx List.not_mem_nil
      · rw [List.dropLast_cons_of_ne_nil hnil] at hx
        rcases List.mem_cons.mp hx with rfl | hx
        · exact hmoves
        · exact ih (i + 1) x hx
    · exact absurd hx List.not_mem_nil

theorem tried_ne_nil (i : Nat) {rs : List ρ} (h : rs ≠ []) : tried moves outcome i rs ≠ [] := by
  cases rs with
  | nil => exact absurd rfl h
  | cons r rs => exact List.cons_ne_nil _ _

end WarrenSdk.Lib
