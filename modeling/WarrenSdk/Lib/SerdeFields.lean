import WarrenSdk.Lib.JsonForm
import WarrenSdk.Lib.Serde

/-!
# Reading objects field by field

What derived deserializers read of an object that was written from its fields: each field is there
once, under its own name, or not at all.
-/

namespace WarrenSdk.Lib

/-- The JSON of a text. -/
def Json.text (s : String) : Json := .string (.ofString s)

namespace Serde

/-- The members that fields are written as. -/
abbrev membersOf (fields : List (Utf16 × Option Json)) : List (Utf16 × Json) :=
  fields.filterMap fun f => f.2.map fun value => (f.1, value)

variable {fields : List (Utf16 × Option Json)} {key : Utf16} {value : Option Json}

theorem valuesOf_absent (h : key ∉ fields.map Prod.fst) : valuesOf (membersOf fields) key = [] := by
  refine List.map_eq_nil_iff.mpr (List.filter_eq_nil_iff.mpr fun m hm heq => ?_)
  obtain rfl : m.1 = key := of_decide_eq_true heq
  exact h (List.mem_map.mpr ⟨_, Json.mem_members hm, rfl⟩)

theorem valuesOf_cons (f : Utf16 × Option Json) : valuesOf (membersOf (f :: fields)) key =
    (if f.1 = key then f.2.toList else []) ++ valuesOf (membersOf fields) key := by
  obtain ⟨name, _ | v⟩ := f
  · show valuesOf (membersOf fields) key = _
    rw [Option.toList_none, ite_self, List.nil_append]
  · show valuesOf ((name, v) :: membersOf fields) key = _
    unfold valuesOf
    rw [List.filter_cons]
    by_cases h : name = key
    · rw [if_pos (decide_eq_true h), if_pos h]
      rfl
    · rw [if_neg (by simpa using h), if_neg h]
      rfl

/-- A field is there once, if it is. -/
theorem valuesOf_membersOf (hn : (fields.map Prod.fst).Nodup) (h : (key, value) ∈ fields) :
    valuesOf (membersOf fields) key = value.toList := by
  induction fields with
  | nil => cases h
  | cons f fields ih =>
    obtain ⟨hf, hfields⟩ := List.nodup_cons.mp hn
    rw [valuesOf_cons]
    obtain rfl | h := List.mem_cons.mp h
    · rw [if_pos rfl, valuesOf_absent hf, List.append_nil]
    · have hne : f.1 ≠ key := by
        rintro rfl
        exact hf (List.mem_map.mpr ⟨_, h, rfl⟩)
      rw [if_neg hne, List.nil_append, ih hfields h]

theorem option_text (s : String) : option string (.text s) = some (some (id s)) := by
  rw [Json.text, option, string_ofString]
  · rfl
  · exact fun h => by cases h

section
variable {keys : List String} (hk : Json.HasKeys fields keys) (hn : keys.Nodup)
include hk hn

/-- The names of an object that is written from its fields are accepted. -/
@[simp] theorem acceptsNames_membersOf (known : List Utf16) :
    acceptsNames known (membersOf fields) = true := by
  refine acceptsNames_iff.mpr ⟨fun m hm => ?_, fun name _ => ?_⟩
  · have hname : m.1 ∈ fields.map Prod.fst := List.mem_map.mpr ⟨_, Json.mem_members hm, rfl⟩
    rw [hk] at hname
    obtain ⟨key, -, hkey⟩ := List.mem_map.mp hname
    rw [← hkey]
    exact Utf16.ofChars_wellFormed _
  · by_cases h : name ∈ fields.map Prod.fst
    · obtain ⟨⟨_, value⟩, hmem, rfl⟩ := List.mem_map.mp h
      rw [valuesOf_membersOf (hk.nodup hn) hmem]
      exact Option.length_toList_le
    · rw [valuesOf_absent h]
      exact Nat.zero_le _

/-- A field that may be absent reads as it was written. -/
theorem field_membersOf {α : Type*} {de : Deserializer α} (h : (key, value) ∈ fields) :
    field de (membersOf fields) key = value.elim (some none) (option de) := by
  rw [field, valuesOf_membersOf (hk.nodup hn) h]
  cases value <;> rfl

theorem fieldOrNull_membersOf {α : Type*} {de : Deserializer α} (h : (key, value) ∈ fields) :
    fieldOrNull de (membersOf fields) key = value.elim (some none) fun v => (de v).map some := by
  rw [fieldOrNull, valuesOf_membersOf (hk.nodup hn) h]
  cases value <;> rfl

theorem field_map {α : Type*} {de : Deserializer α} {x : Option β} {f : β → Json} {g : β → α}
    (hf : ∀ b, option de (f b) = some (some (g b))) (h : (key, x.map f) ∈ fields) :
    field de (membersOf fields) key = some (x.map g) := by
  rw [field_membersOf hk hn h]
  cases x with
  | none => rfl
  | some b => exact hf b

theorem field_text {x : Option String} (h : (key, x.map .text) ∈ fields) :
    field string (membersOf fields) key = some x := by
  rw [field_map hk hn option_text h, Option.map_id, id]

theorem field_bool {x : Option Bool} (h : (key, x.map .bool) ∈ fields) :
    field bool (membersOf fields) key = some x := by
  have hread (b : Bool) : option bool (.bool b) = some (some (id b)) := rfl
  rw [field_map hk hn hread h, Option.map_id, id]

end

theorem field_absent {α : Type*} {de : Deserializer α} (h : key ∉ fields.map Prod.fst) :
    field de (membersOf fields) key = some none := by
  rw [field, valuesOf_absent h]

theorem fieldOrNull_absent {α : Type*} {de : Deserializer α} (h : key ∉ fields.map Prod.fst) :
    fieldOrNull de (membersOf fields) key = some none := by
  rw [fieldOrNull, valuesOf_absent h]

end Serde

end WarrenSdk.Lib
