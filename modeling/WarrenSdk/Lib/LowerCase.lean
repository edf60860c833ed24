import WarrenSdk.Lib.Utf16

/-!
# Lower case

What is used of the lower case of strings of UTF-16 code units, and the one that knows the ASCII
letters only.
-/

namespace WarrenSdk.Lib.Utf16

def asciiLower (u : UInt16) : UInt16 := if 0x41 ≤ u && u ≤ 0x5A then u + 0x20 else u

/-- `t` is `s` with every unit from the letters on replaced by such units. -/
inductive Replaces : Utf16 → Utf16 → Prop
  | nil : Replaces [] []
  | keep : u < 0x41 → Replaces s t → Replaces (u :: s) (u :: t)
  | letter : 0x41 ≤ u → p ≠ [] → (∀ v ∈ p, 0x41 ≤ v) → Replaces s t → Replaces (u :: s) (p ++ t)

/-- A way to write strings in lower case: it changes ASCII letters as it should, nothing below the
letters and nothing twice. -/
structure LowerCase where
  toFun : Utf16 → Utf16
  idem : ∀ s, toFun (toFun s) = toFun s
  ascii : ∀ s, (∀ u ∈ s, u < 0x80) → toFun s = s.map asciiLower
  replaces : ∀ s, Replaces s (toFun s)

instance : CoeFun LowerCase fun _ => Utf16 → Utf16 := ⟨LowerCase.toFun⟩

/-- What is ASCII and in lower case stays as it is. -/
theorem LowerCase.eq_self (L : LowerCase) {s : Utf16}
    (h : s.all (fun u => u < 0x80 ∧ asciiLower u = u) = true) : L s = s := by
  have hall : ∀ u ∈ s, u < 0x80 ∧ asciiLower u = u := fun u hu =>
    of_decide_eq_true (List.all_eq_true.mp h u hu)
  rw [L.ascii s fun u hu => (hall u hu).1]
  exact (List.map_congr_left fun u hu => (hall u hu).2).trans (List.map_id s)

theorem asciiLower_asciiLower (u : UInt16) : asciiLower (asciiLower u) = asciiLower u := by
  by_cases hu : (0x41 ≤ u && u ≤ 0x5A) = true
  · have hs : asciiLower u = u + 0x20 := if_pos hu
    rw [hs]
    apply if_neg
    simp only [Bool.and_eq_true, decide_eq_true_eq, UInt16.le_iff_toNat_le, UInt16.toNat_add,
      UInt16.reduceToNat] at hu ⊢
    omega
  · have hs : asciiLower u = u := if_neg hu
    rw [hs, hs]

theorem le_asciiLower {u : UInt16} (hu : 0x41 ≤ u) : 0x41 ≤ asciiLower u := by
  by_cases h : (0x41 ≤ u && u ≤ 0x5A) = true
  · have hs : asciiLower u = u + 0x20 := if_pos h
    rw [hs]
    simp only [Bool.and_eq_true, decide_eq_true_eq, UInt16.le_iff_toNat_le, UInt16.toNat_add,
      UInt16.reduceToNat] at h ⊢
    omega
  · rwa [asciiLower, if_neg h]

theorem Replaces.map_asciiLower (s : Utf16) : Replaces s (s.map asciiLower) := by
  induction s with
  | nil => exact .nil
  | cons u s ih =>
    rcases UInt16.lt_or_le u 0x41 with hu | hu
    · have hk : asciiLower u = u := by
        apply if_neg
        simp [UInt16.not_le.mpr hu]
      rw [List.map_cons, hk]
      exact .keep hu ih
    · exact .letter hu (List.cons_ne_nil _ []) (by simpa using le_asciiLower hu) ih

/-- The lower case that knows the ASCII letters only. -/
def asciiLowerCase : LowerCase where
  toFun s := s.map asciiLower
  idem s := by simp [asciiLower_asciiLower]
  ascii _ _ := rfl
  replaces := Replaces.map_asciiLower

/-- What is below the letters comes from itself. -/
theorem Replaces.mem {s t : Utf16} (h : Replaces s t) (hu : u < 0x41) (hm : u ∈ t) : u ∈ s := by
  induction h with
  | nil => exact hm
  | keep _ _ ih =>
    rcases List.mem_cons.mp hm with rfl | hm
    · exact List.mem_cons_self
    · exact List.mem_cons_of_mem _ (ih hm)
  | letter _ _ hp _ ih =>
    rcases List.mem_append.mp hm with hm | hm
    · exact absurd (UInt16.lt_of_lt_of_le hu (hp u hm)) (UInt16.lt_irrefl u)
    · exact List.mem_cons_of_mem _ (ih hm)

/-- What is below the letters stands in front only where it did. -/
theorem Replaces.head {s t : Utf16} (h : Replaces s t) (hu : u < 0x41) (ht : t.head? = some u) :
    s.head? = some u := by
  cases h with
  | nil => cases ht
  | keep _ _ => exact ht
  | letter _ hne hp _ =>
    rw [List.head?_append, Option.or_eq_some_iff] at ht
    rcases ht with ht | ⟨hnil, -⟩
    · have hle := hp u (List.mem_of_head? ht)
      exact absurd (UInt16.lt_of_lt_of_le hu hle) (UInt16.lt_irrefl u)
    · exact absurd (List.head?_eq_none_iff.mp hnil) hne

theorem Replaces.of_keep {s t : Utf16} (h : Replaces (u :: s) t) (hu : u < 0x41) :
    ∃ t', t = u :: t' ∧ Replaces s t' := by
  cases h with
  | keep _ h => exact ⟨_, rfl, h⟩
  | letter hle _ _ _ => exact absurd (UInt16.lt_of_lt_of_le hu hle) (UInt16.lt_irrefl u)

/-- No letter A to Z is left in lower case. -/
def NoCapitals (f : Utf16 → Utf16) : Prop := ∀ s, ∀ u ∈ f s, asciiLower u = u

theorem NoCapitals.not_mem {f : Utf16 → Utf16} (h : NoCapitals f) (hu : asciiLower u ≠ u)
    (s : Utf16) : u ∉ f s :=
  fun hm => hu (h s u hm)

theorem asciiLowerCase_noCapitals : NoCapitals asciiLowerCase := by
  intro s u hu
  obtain ⟨v, -, rfl⟩ := List.mem_map.mp hu
  exact asciiLower_asciiLower v

theorem Replaces.ne_nil {s t : Utf16} (h : Replaces s t) (hs : s ≠ []) : t ≠ [] := by
  cases h with
  | nil => exact hs
  | keep _ _ => exact List.cons_ne_nil _ _
  | letter _ hne _ _ => exact List.append_ne_nil_of_left_ne_nil hne _

end WarrenSdk.Lib.Utf16
