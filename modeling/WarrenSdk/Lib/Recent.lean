import Mathlib.Data.List.DropRight

/-!
# Bounded memory

A memory of the `k` entries last made in a log, kept in the order they were made, and what it is
for: a log in which an entry is only made when the memory does not hold it never repeats one within
`k` entries.
-/

namespace WarrenSdk.Lib

variable {α : Type*}

/-- Adds an entry to a memory, and drops the oldest when it then holds more than `k`. -/
def remember [DecidableEq α] (k : Nat) (memory : List α) (a : α) : List α :=
  let memory := if a ∈ memory then memory else memory ++ [a]
  if k < memory.length then memory.drop 1 else memory

theorem mem_of_mem_remember [DecidableEq α] {memory : List α} (h : b ∈ remember k memory a) :
    b ∈ memory ∨ b = a := by
  have hadd : b ∈ (if a ∈ memory then memory else memory ++ [a]) := by
    unfold remember at h
    dsimp only at h
    generalize (if a ∈ memory then memory else memory ++ [a]) = added at h ⊢
    split at h
    · exact List.mem_of_mem_drop h
    · exact h
  split at hadd
  · exact .inl hadd
  · exact (List.mem_append.mp hadd).imp_right List.mem_singleton.mp

@[simp] theorem length_rtake (log : List α) (k : Nat) :
    (log.rtake k).length = min k log.length := by
  rw [List.rtake, List.length_drop]
  omega

/-- The memory of a log grows with it. -/
theorem remember_rtake [DecidableEq α] {log : List α} (h : a ∉ log.rtake k) :
    remember k (log.rtake k) a = (log ++ [a]).rtake k := by
  rw [remember, if_neg h]
  have hlen : (log.rtake k ++ [a]).length = min k log.length + 1 := by
    rw [List.length_append, length_rtake, List.length_singleton]
  split
  next hlt =>
    have hk : k ≤ log.length := by omega
    cases k with
    | zero => simp
    | succ k =>
      have hne : log.rtake (k + 1) ≠ [] := by
        intro hnil
        simp [hnil] at hlt
      rw [List.rtake_concat_succ, List.drop_append_of_le_length (List.length_pos_iff.mpr hne),
        List.rtake, List.rtake, List.drop_drop]
      congr 2
      omega
  next hge =>
    have hk : log.length < k := by omega
    have hall : log.rtake k = log := by
      rw [List.rtake, Nat.sub_eq_zero_of_le hk.le, List.drop_zero]
    rw [hall, List.rtake, List.length_append, List.length_singleton,
      Nat.sub_eq_zero_of_le (by omega), List.drop_zero]

/-- No entry is among the `k` before it. -/
def Spaced (k : Nat) (log : List α) : Prop :=
  ∀ pre a rest, log = pre ++ a :: rest → a ∉ pre.rtake k

theorem Spaced.nil : Spaced k ([] : List α) := by
  intro pre a rest h
  simp at h

theorem Spaced.concat {log : List α} (h : Spaced k log) (ha : a ∉ log.rtake k) :
    Spaced k (log ++ [a]) := by
  intro pre b rest heq
  rcases List.eq_nil_or_concat rest with rfl | ⟨rest, c, rfl⟩
  · obtain ⟨rfl, hab⟩ := List.append_inj' heq rfl
    cases hab
    exact ha
  · rw [List.concat_eq_append, ← List.cons_append, ← List.append_assoc] at heq
    obtain ⟨rfl, -⟩ := List.append_inj' heq rfl
    exact h pre b rest rfl

end WarrenSdk.Lib
