import Mathlib.Data.List.Nodup

/-!
# Maps that keep the order of insertion

A map as the list of its entries, oldest key first; setting a key that is there keeps its place.
-/

namespace WarrenSdk.Lib

structure OrderedMap (κ : Type u) (ν : Type v) where
  entries : List (κ × ν)
  nodup : (entries.map Prod.fst).Nodup

namespace OrderedMap

variable {κ : Type u} {ν : Type v}

def empty : OrderedMap κ ν := ⟨[], List.nodup_nil⟩

def keys (m : OrderedMap κ ν) : List κ := m.entries.map Prod.fst

def filterKeys (p : κ → Bool) (m : OrderedMap κ ν) : OrderedMap κ ν :=
  ⟨m.entries.filter fun e => p e.1, m.nodup.sublist (List.filter_sublist.map _)⟩

variable [DecidableEq κ]

def get (m : OrderedMap κ ν) (k : κ) : Option ν := (m.entries.find? (·.1 = k)).map (·.2)

/-- The entries with `k` set to `v` where it is. -/
def replace (k : κ) (v : ν) (entries : List (κ × ν)) : List (κ × ν) :=
  entries.map fun e => if e.1 = k then (k, v) else e

theorem map_fst_replace (k : κ) (v : ν) (entries : List (κ × ν)) :
    (replace k v entries).map Prod.fst = entries.map Prod.fst := by
  rw [replace, List.map_map]
  apply List.map_congr_left
  intro e _
  simp only [Function.comp_apply]
  split
  next h => exact h.symm
  next => rfl

def set (m : OrderedMap κ ν) (k : κ) (v : ν) : OrderedMap κ ν :=
  if h : k ∈ m.keys then ⟨replace k v m.entries, by rw [map_fst_replace]; exact m.nodup⟩
  else ⟨m.entries ++ [(k, v)], by
    rw [List.map_append, List.map_singleton, List.nodup_append]
    refine ⟨m.nodup, List.nodup_singleton _, ?_⟩
    rintro a ha b hb rfl
    rw [List.mem_singleton.mp hb] at ha
    exact h ha⟩

def delete (m : OrderedMap κ ν) (k : κ) : OrderedMap κ ν := m.filterKeys (· ≠ k)

/-! ## Lookup -/

theorem get_eq_some_iff {m : OrderedMap κ ν} : m.get k = some v ↔ (k, v) ∈ m.entries := by
  obtain ⟨entries, nodup⟩ := m
  unfold get
  simp only
  induction entries with
  | nil => simp
  | cons e entries ih =>
    obtain ⟨hne, hrest⟩ := List.nodup_cons.mp nodup
    rw [List.find?_cons]
    by_cases he : e.1 = k
    · simp only [he, decide_true, Option.map_some, Option.some.injEq, List.mem_cons]
      constructor
      · rintro rfl
        exact .inl (Prod.ext he.symm rfl)
      · rintro (h | h)
        · exact (congrArg Prod.snd h).symm
        · exact absurd (List.mem_map_of_mem (f := Prod.fst) h) (he ▸ hne)
    · simp only [he, decide_false, List.mem_cons]
      rw [ih hrest]
      refine ⟨.inr, fun h => h.resolve_left fun h => he (congrArg Prod.fst h).symm⟩

@[simp] theorem get_empty (k : κ) : (empty : OrderedMap κ ν).get k = none := rfl

theorem get_isSome_iff {m : OrderedMap κ ν} : (∃ v, m.get k = some v) ↔ k ∈ m.keys := by
  simp only [get_eq_some_iff, keys, List.mem_map, Prod.exists]
  constructor
  · rintro ⟨v, hv⟩
    exact ⟨k, v, hv, rfl⟩
  · rintro ⟨_, v, hv, rfl⟩
    exact ⟨v, hv⟩

theorem get_filterKeys (p : κ → Bool) (m : OrderedMap κ ν) (k : κ) :
    (m.filterKeys p).get k = if p k then m.get k else none := by
  apply Option.ext
  intro v
  rw [get_eq_some_iff, filterKeys, List.mem_filter]
  split
  next h => rw [get_eq_some_iff]; exact and_iff_left h
  next h => exact ⟨fun hv => absurd hv.2 h, nofun⟩

theorem get_delete (m : OrderedMap κ ν) (k j : κ) :
    (m.delete k).get j = if j = k then none else m.get j := by
  rw [delete, get_filterKeys]
  by_cases h : j = k
  · simp [h]
  · simp [h]

theorem get_set (m : OrderedMap κ ν) (k j : κ) (v : ν) :
    (m.set k v).get j = if j = k then some v else m.get j := by
  apply Option.ext
  intro w
  rw [get_eq_some_iff, set]
  split
  next hk =>
    simp only [replace, List.mem_map]
    split
    next hj =>
      subst hj
      constructor
      · rintro ⟨e, he, hw⟩
        split at hw
        · exact (congrArg (some ∘ Prod.snd) hw)
        · next hne => exact absurd (congrArg Prod.fst hw) hne
      · intro hw
        cases hw
        obtain ⟨e, he, hej⟩ := List.mem_map.mp hk
        exact ⟨e, he, if_pos hej⟩
    next hj =>
      rw [get_eq_some_iff]
      constructor
      · rintro ⟨e, he, hw⟩
        split at hw
        · exact absurd (congrArg Prod.fst hw).symm hj
        · exact hw ▸ he
      · intro hw
        exact ⟨_, hw, if_neg hj⟩
  next hk =>
    rw [List.mem_append, List.mem_singleton]
    split
    next hj =>
      subst hj
      constructor
      · rintro (h | h)
        · exact absurd (List.mem_map_of_mem (f := Prod.fst) h) hk
        · rw [(Prod.mk.inj h).2]
      · intro h
        exact .inr (by rw [Option.some.inj h])
    next hj =>
      rw [get_eq_some_iff]
      exact ⟨fun h => h.resolve_right fun h => hj (Prod.mk.inj h).1, .inl⟩

end OrderedMap

end WarrenSdk.Lib
