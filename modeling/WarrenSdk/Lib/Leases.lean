import Mathlib.Data.List.Basic

/-!
# Exclusive leases

A registry of held keys, and the leases that were given out on them. A lease holds its key until its
first release, and a key is held while a lease on it lives. `Sound` says that the two agree; a claim
of a free key keeps it, and so does a release.
-/

namespace WarrenSdk.Lib

/-- A lease on a key, and what the claimant keeps with it. -/
structure Lease (κ : Type u) (α : Type v) where
  key : κ
  live : Bool := true
  claimant : α
deriving DecidableEq

namespace Leases

variable {κ : Type u} {α : Type v}

def release (i : Nat) (leases : List (Lease κ α)) : List (Lease κ α) :=
  leases.modify i fun a => { a with live := false }

structure Sound (held : List κ) (leases : List (Lease κ α)) : Prop where
  /-- Live leases are on different keys. -/
  exclusive : ∀ {i j : Nat} {a b : Lease κ α}, leases[i]? = some a → leases[j]? = some b → a.live →
    b.live →
    a.key = b.key → i = j
  held : ∀ key,
    key ∈ held ↔ ∃ i : Nat, ∃ a : Lease κ α, leases[i]? = some a ∧ a.live ∧ a.key = key

theorem getElem?_release {leases : List (Lease κ α)} (i j : Nat) :
    (release i leases)[j]? =
      (leases[j]?).map fun a => if i = j then { a with live := false } else a := by
  rw [release, List.getElem?_modify]
  by_cases h : i = j
  · simp [h]
  · simp [h]

/-- A lease after a release of `i`, which was there before. -/
theorem of_getElem?_release {leases : List (Lease κ α)} {i j : Nat} {a : Lease κ α}
    (h : (release i leases)[j]? = some a) : ∃ b, leases[j]? = some b ∧ a.key = b.key ∧
      a.claimant = b.claimant ∧ (a.live = true → i ≠ j ∧ a = b) := by
  rw [getElem?_release, Option.map_eq_some_iff] at h
  obtain ⟨b, hb, rfl⟩ := h
  refine ⟨b, hb, ?_⟩
  by_cases hij : i = j
  · simp [hij]
  · simp [hij]

theorem getElem?_release_of_ne {leases : List (Lease κ α)} {i j : Nat} (h : i ≠ j) :
    (release i leases)[j]? = leases[j]? := by
  rw [getElem?_release]
  simp [h]

theorem release_of_dead {leases : List (Lease κ α)} {i : Nat} {a : Lease κ α}
    (h : leases[i]? = some a) (hd : a.live = false) : release i leases = leases := by
  apply List.ext_getElem?
  intro j
  rw [getElem?_release]
  by_cases hij : i = j
  · subst hij
    have ha : { a with live := false } = a := by rw [← hd]
    simp [h, ha]
  · simp [hij]

theorem of_getElem?_concat {leases : List (Lease κ α)} {a b : Lease κ α} {i : Nat}
    (h : (leases ++ [b])[i]? = some a) :
    leases[i]? = some a ∨ i = leases.length ∧ a = b := by
  rcases Nat.lt_trichotomy i leases.length with hlt | heq | hgt
  · exact .inl (by rwa [List.getElem?_append_left hlt] at h)
  · subst heq
    rw [List.getElem?_concat_length] at h
    exact .inr ⟨rfl, (Option.some.inj h).symm⟩
  · rw [List.getElem?_eq_none (by simp; omega)] at h
    cases h

theorem getElem?_concat_of_some {leases : List (Lease κ α)} {a b : Lease κ α} {i : Nat}
    (h : leases[i]? = some a) : (leases ++ [b])[i]? = some a := by
  obtain ⟨hlt, -⟩ := List.getElem?_eq_some_iff.mp h
  rwa [List.getElem?_append_left hlt]

namespace Sound

variable {held : List κ} {leases : List (Lease κ α)}

theorem empty : Sound ([] : List κ) ([] : List (Lease κ α)) where
  exclusive h := by cases h
  held key := by simp

/-- A lease on a free key. -/
theorem claim (h : Sound held leases) {key : κ} (hfree : key ∉ held) (claimant : α) :
    Sound (held ++ [key]) (leases ++ [{ key := key, claimant := claimant }]) where
  exclusive {i j a b} ha hb hla hlb hkey := by
    have hfree' : ∀ {i : Nat} {a : Lease κ α}, leases[i]? = some a → a.live → a.key ≠ key :=
      fun hi hl hk => hfree ((h.held key).mpr ⟨_, _, hi, hl, hk⟩)
    rcases of_getElem?_concat ha with ha | ⟨rfl, rfl⟩ <;>
      rcases of_getElem?_concat hb with hb | ⟨rfl, rfl⟩
    · exact h.exclusive ha hb hla hlb hkey
    · exact absurd hkey (hfree' ha hla)
    · exact absurd hkey.symm (hfree' hb hlb)
    · rfl
  held k := by
    constructor
    · intro hk
      rcases List.mem_append.mp hk with hk | hk
      · obtain ⟨i, a, hi, hl, hkey⟩ := (h.held k).mp hk
        exact ⟨i, a, getElem?_concat_of_some hi, hl, hkey⟩
      · exact ⟨_, _, List.getElem?_concat_length, rfl, (List.mem_singleton.mp hk).symm⟩
    · rintro ⟨i, a, hi, hl, rfl⟩
      rcases of_getElem?_concat hi with hi | ⟨-, rfl⟩
      · exact List.mem_append_left _ ((h.held _).mpr ⟨i, a, hi, hl, rfl⟩)
      · exact List.mem_append_right _ (List.mem_singleton_self _)

/-- The first release of a lease frees its key, and no other. -/
theorem release [DecidableEq κ] (h : Sound held leases) {i : Nat} {a : Lease κ α}
    (ha : leases[i]? = some a) (hl : a.live) :
    Sound (held.filter (· ≠ a.key)) (release i leases) where
  exclusive {j k b c} hb hc hlb hlc hkey := by
    obtain ⟨b', hb', -, -, hb''⟩ := of_getElem?_release hb
    obtain ⟨c', hc', -, -, hc''⟩ := of_getElem?_release hc
    obtain ⟨-, rfl⟩ := hb'' hlb
    obtain ⟨-, rfl⟩ := hc'' hlc
    exact h.exclusive hb' hc' hlb hlc hkey
  held key := by
    rw [List.mem_filter, h.held, decide_eq_true_iff]
    constructor
    · rintro ⟨⟨j, b, hb, hlb, rfl⟩, hne⟩
      have hij : i ≠ j := by
        rintro rfl
        rw [ha] at hb
        exact hne (congrArg Lease.key (Option.some.inj hb)).symm
      exact ⟨j, b, (getElem?_release_of_ne hij).trans hb, hlb, rfl⟩
    · rintro ⟨j, b, hb, hlb, rfl⟩
      obtain ⟨c, hc, -, -, hbc⟩ := of_getElem?_release hb
      obtain ⟨hij, rfl⟩ := hbc hlb
      exact ⟨⟨j, b, hc, hlb, rfl⟩, fun hkey => hij (h.exclusive hc ha hlb hl hkey).symm⟩

end Sound

end Leases

end WarrenSdk.Lib
