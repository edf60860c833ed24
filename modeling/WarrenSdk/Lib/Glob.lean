import Mathlib.Data.List.Infix

/-!
# Patterns

A glob pattern is a list in which one element, the star, matches any text. It matches a whole text.
A search finds the first place of a text at which a pattern matches.
-/

namespace WarrenSdk.Lib

variable {α : Type*}

section
variable [DecidableEq α]

def glob (star : α) : List α → List α → Bool
  | [], s => s.isEmpty
  | p :: ps, s =>
    if p = star then s.tails.any (glob star ps)
    else
      match s with
      | [] => false
      | c :: s => c = p && glob star ps s

@[simp] theorem glob_nil {star : α} : glob star [] s = true ↔ s = [] := by
  simp [glob]

theorem glob_star {star : α} : glob star (star :: p) s = true ↔ ∃ t, t <:+ s ∧ glob star p t := by
  simp [glob]

theorem glob_cons {star c : α} (hc : c ≠ star) :
    glob star (c :: p) s = true ↔ ∃ t, s = c :: t ∧ glob star p t := by
  cases s with
  | nil => simp [glob, hc]
  | cons d s =>
    simp only [glob, if_neg hc, Bool.and_eq_true, decide_eq_true_eq, List.cons.injEq]
    constructor
    · rintro ⟨rfl, h⟩
      exact ⟨s, ⟨rfl, rfl⟩, h⟩
    · rintro ⟨t, ⟨rfl, rfl⟩, h⟩
      exact ⟨rfl, h⟩

/-- A pattern without a star is the one text it matches. -/
theorem glob_of_notMem {star : α} (hp : star ∉ p) : glob star p s = true ↔ s = p := by
  induction p generalizing s with
  | nil => exact glob_nil
  | cons c p ih =>
    obtain ⟨hc, hp⟩ := not_or.mp (mt List.mem_cons.mpr hp)
    rw [glob_cons (Ne.symm hc)]
    constructor
    · rintro ⟨t, rfl, ht⟩
      rw [(ih hp).mp ht]
    · rintro rfl
      exact ⟨p, rfl, (ih hp).mpr rfl⟩

/-- A star before a pattern without one matches what ends as the pattern says. -/
theorem glob_star_of_notMem {star : α} (hp : star ∉ p) :
    glob star (star :: p) s = true ↔ p <:+ s := by
  rw [glob_star]
  constructor
  · rintro ⟨t, hts, ht⟩
    rwa [(glob_of_notMem hp).mp ht] at hts
  · intro h
    exact ⟨p, h, (glob_of_notMem hp).mpr rfl⟩

end

/-! ## Searching -/

/-- What the pattern `at?` finds at the first place of a text where it matches. -/
def leftmost {β : Type*} (at? : List α → Option β) (s : List α) : Option β := s.tails.findSome? at?

section
variable {β : Type*} {at? : List α → Option β}

theorem leftmost_of_some (h : at? s = some m) : leftmost at? s = some m := by
  cases s <;> simp [leftmost, h]

theorem leftmost_cons (h : at? (c :: s) = none) : leftmost at? (c :: s) = leftmost at? s := by
  simp [leftmost, h]

/-- A pattern that begins with `c` does not match before the first `c`. -/
theorem leftmost_append {c : α} (hat : ∀ s, (at? s).isSome = true → s.head? = some c)
    (hc : c ∉ p) (s : List α) : leftmost at? (p ++ s) = leftmost at? s := by
  induction p with
  | nil => rfl
  | cons d p ih =>
    obtain ⟨hd, hp⟩ := not_or.mp (mt List.mem_cons.mpr hc)
    have hnone : at? (d :: (p ++ s)) = none := by
      rw [← Option.not_isSome_iff_eq_none]
      intro h
      exact hd (Option.some.inj (hat _ h)).symm
    rw [List.cons_append, leftmost_cons hnone, ih hp]

end

end WarrenSdk.Lib
