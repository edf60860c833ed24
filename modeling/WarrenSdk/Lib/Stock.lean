import Mathlib.Data.List.Nodup
import Mathlib.Logic.Function.Basic
import Mathlib.Logic.Relation

/-!
# A stock and its saved copy

Items are kept under keys, in a memory and in a copy of it that was saved at some time, and are
taken from the end of what a key holds. The memory may be lost at any time, and the copy read back.
`Change may` is one change of such a stock, `may` saying which items may come in. A predicate on
what is held and what was taken that the changes keep holds of the memory and of the copy in every
run: saving and reading back need no argument of their own.
-/

namespace WarrenSdk.Lib

structure Stock (κ : Type u) (α : Type v) where
  memory : κ → List α
  saved : κ → List α
  taken : List α

namespace Stock

variable {κ : Type u} {α : Type v} [DecidableEq κ]

inductive Change (may : Stock κ α → κ → List α → Prop) (s : Stock κ α) : Stock κ α → Prop
  /-- Items are lost, always from the end of what a key holds. -/
  | shrink (memory : κ → List α) (h : ∀ k, memory k <+: s.memory k) : Change may s { s with memory }
  | add (k : κ) (items : List α) (h : may s k items) :
    Change may s { s with memory := Function.update s.memory k (s.memory k ++ items) }
  | save : Change may s { s with saved := s.memory }
  /-- The last item of `k` is taken, which is saved before it is handed out. -/
  | take (k : κ) (rest : List α) (a : α) (h : s.memory k = rest ++ [a]) :
    Change may s
      { memory := Function.update s.memory k rest, saved := Function.update s.memory k rest
        taken := s.taken ++ [a] }
  | reload : Change may s { s with memory := s.saved }

abbrev Changes (may : Stock κ α → κ → List α → Prop) : Stock κ α → Stock κ α → Prop :=
  Relation.ReflTransGen (Change may)

/-- `Q`, of what is held and what was taken, withstands every change. -/
structure Keeps (may : Stock κ α → κ → List α → Prop) (Q : (κ → List α) → List α → Prop) :
    Prop where
  shrink : ∀ {held held' taken}, Q held taken → (∀ k, held' k <+: held k) → Q held' taken
  add : ∀ {s k items}, Q s.memory s.taken → may s k items →
    Q (Function.update s.memory k (s.memory k ++ items)) s.taken
  take : ∀ {held taken k rest a}, Q held taken → held k = rest ++ [a] →
    Q (Function.update held k rest) (taken ++ [a])

/-- `Q` of the memory and of the saved copy. -/
def Both (Q : (κ → List α) → List α → Prop) (s : Stock κ α) : Prop :=
  Q s.memory s.taken ∧ Q s.saved s.taken

variable {β : Type w} {may : Stock κ α → κ → List α → Prop} {Q : (κ → List α) → List α → Prop}

theorem Keeps.change (hk : Keeps may Q) (h : Change may s t) (hs : s.Both Q) : t.Both Q := by
  obtain ⟨hm, hd⟩ := hs
  cases h with
  | shrink memory h => exact ⟨hk.shrink hm h, hd⟩
  | add k items h => exact ⟨hk.add hm h, hd⟩
  | save => exact ⟨hm, hm⟩
  | take k rest a h => exact ⟨hk.take hm h, hk.take hm h⟩
  | reload => exact ⟨hd, hd⟩

theorem Keeps.changes (hk : Keeps may Q) (h : Changes may s t) (hs : s.Both Q) : t.Both Q := by
  induction h with
  | refl => exact hs
  | tail _ h ih => exact hk.change h ih

/-! ## Two such predicates -/

theorem update_shrinks {held : κ → List α} (h : held k = rest ++ [a]) (j : κ) :
    Function.update held k rest j <+: held j := by
  rcases eq_or_ne j k with rfl | hj
  · rw [Function.update_self, h]
    exact List.prefix_append _ _
  · exact (Function.update_of_ne hj _ _) ▸ List.prefix_rfl

/-- Every key holds a prefix of a list that is fixed for it. -/
def PrefixOf (batch : κ → List α) (held : κ → List α) (_ : List α) : Prop :=
  ∀ k, held k <+: batch k

theorem prefixOf_keeps (batch : κ → List α)
    (hadd : ∀ {s k items}, may s k items → s.memory k <+: batch k →
      s.memory k ++ items <+: batch k) :
    Keeps may (PrefixOf batch) where
  shrink h hs k := (hs k).trans (h k)
  add := by
    intro s k items h ha j
    rcases eq_or_ne j k with rfl | hj
    · rw [Function.update_self]
      exact hadd ha (h j)
    · rw [Function.update_of_ne hj]
      exact h j
  take h hk j := (update_shrinks hk j).trans (h j)

/-- No two items that are held or were taken have the same label. -/
structure Distinct (label : α → β) (held : κ → List α) (taken : List α) : Prop where
  once : (taken.map label).Nodup
  within : ∀ k, ((held k).map label).Nodup
  across : ∀ {j k}, j ≠ k → ∀ a ∈ held j, ∀ b ∈ held k, label a ≠ label b
  untaken : ∀ k, ∀ a ∈ held k, ∀ b ∈ taken, label a ≠ label b

/-- The labels of `items` are new, and none occurs twice. -/
structure Fresh (label : α → β) (s : Stock κ α) (items : List α) : Prop where
  nodup : (items.map label).Nodup
  unheld : ∀ k, ∀ a ∈ items, ∀ b ∈ s.memory k, label a ≠ label b
  untaken : ∀ a ∈ items, ∀ b ∈ s.taken, label a ≠ label b

theorem Distinct.add {label : α → β} {s : Stock κ α} (h : Distinct label s.memory s.taken)
    (hf : s.Fresh label items) (k : κ) :
    Distinct label (Function.update s.memory k (s.memory k ++ items)) s.taken := by
  have hmem : ∀ {j a}, a ∈ Function.update s.memory k (s.memory k ++ items) j →
      a ∈ s.memory j ∨ j = k ∧ a ∈ items := by
    intro j a ha
    rcases eq_or_ne j k with rfl | hj
    · rw [Function.update_self, List.mem_append] at ha
      exact ha.imp_right fun ha => ⟨rfl, ha⟩
    · rw [Function.update_of_ne hj] at ha
      exact .inl ha
  refine ⟨h.once, fun j => ?_, fun {i j} hij a ha b hb => ?_, fun j a ha b hb => ?_⟩
  · rcases eq_or_ne j k with rfl | hj
    · rw [Function.update_self, List.map_append, List.nodup_append]
      refine ⟨h.within j, hf.nodup, ?_⟩
      intro x hx y hy
      obtain ⟨a, ha, rfl⟩ := List.mem_map.mp hx
      obtain ⟨b, hb, rfl⟩ := List.mem_map.mp hy
      exact (hf.unheld j b hb a ha).symm
    · rw [Function.update_of_ne hj]
      exact h.within j
  · rcases hmem ha with hold | ⟨rfl, hnew⟩
    · rcases hmem hb with hb | ⟨rfl, hnew⟩
      · exact h.across hij a hold b hb
      · exact (hf.unheld i b hnew a hold).symm
    · rcases hmem hb with hb | ⟨rfl, -⟩
      · exact hf.unheld j a hnew b hb
      · exact absurd rfl hij
  · rcases hmem ha with ha | ⟨rfl, hnew⟩
    · exact h.untaken j a ha b hb
    · exact hf.untaken a hnew b hb

theorem Distinct.shrink {label : α → β} {taken : List α} (h : Distinct label held taken)
    (hs : ∀ k, held' k <+: held k) : Distinct label held' taken where
  once := h.once
  within k := (h.within k).sublist ((hs k).sublist.map label)
  across hjk a ha b hb := h.across hjk a ((hs _).subset ha) b ((hs _).subset hb)
  untaken k a ha b hb := h.untaken k a ((hs k).subset ha) b hb

theorem Distinct.take {label : α → β} {held : κ → List α} {taken : List α}
    (h : Distinct label held taken)
    (hk : held k = rest ++ [a]) :
    Distinct label (Function.update held k rest) (taken ++ [a]) := by
  have ha : a ∈ held k := by simp [hk]
  have hnew : ∀ j, ∀ b ∈ Function.update held k rest j, label b ≠ label a := by
    intro j b hb
    rcases eq_or_ne j k with rfl | hj
    · rw [Function.update_self] at hb
      have hnodup := h.within j
      rw [hk, List.map_append, List.nodup_append] at hnodup
      exact hnodup.2.2 _ (List.mem_map_of_mem hb) _ (by simp)
    · rw [Function.update_of_ne hj] at hb
      exact h.across hj b hb a ha
  have hshrink := h.shrink (update_shrinks hk)
  refine ⟨?_, hshrink.within, hshrink.across, fun j b hb c hc => ?_⟩
  · rw [List.map_append, List.nodup_append]
    refine ⟨h.once, List.nodup_singleton _, ?_⟩
    intro x hx y hy
    obtain ⟨b, hb, rfl⟩ := List.mem_map.mp hx
    rw [List.mem_singleton.mp hy]
    exact (h.untaken k a ha b hb).symm
  · rcases List.mem_append.mp hc with hc | hc
    · exact hshrink.untaken j b hb c hc
    · rw [List.mem_singleton.mp hc]
      exact hnew j b hb

theorem distinct_keeps (label : α → β) (hadd : ∀ {s k items}, may s k items → s.Fresh label items) :
    Keeps may (Distinct label) where
  shrink := Distinct.shrink
  add h ha := h.add (hadd ha) _
  take := Distinct.take

end Stock

end WarrenSdk.Lib
