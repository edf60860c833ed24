import Mathlib.Data.List.Nodup
import WarrenSdk.Lib.Json

/-!
# Objects by their fields

Objects that are written field by field, some of the fields only now and then, and the octets of
their texts. The fields are read off the object (`ofFields_inj`), and a value off the octets
(`eq_of_octets`), so what is signed over such an object is signed over every field of it.
-/

namespace WarrenSdk.Lib.Json

/-- The object of the fields that are there. -/
def ofFields (fields : List (Utf16 × Option Json)) : Json :=
  .object (fields.filterMap fun f => f.2.map fun value => (f.1, value))

/-- The fields stand under `keys`, whether they are there or not. -/
def HasKeys (fields : List (Utf16 × Option Json)) (keys : List String) : Prop :=
  fields.map Prod.fst = keys.map Utf16.ofString

/-- The values that are there are written as they are read. -/
def PlainFields (fields : List (Utf16 × Option Json)) : Prop :=
  ∀ f ∈ fields, ∀ value ∈ f.2, Plain value

variable {fields : List (Utf16 × Option Json)}

theorem mem_members (h : (key, value) ∈ fields.filterMap fun f => f.2.map fun v => (f.1, v)) :
    (key, some value) ∈ fields := by
  obtain ⟨⟨key', value'⟩, hmem, hvalue⟩ := List.mem_filterMap.mp h
  obtain ⟨v, rfl, hpair⟩ := Option.map_eq_some_iff.mp hvalue
  cases hpair
  exact hmem

theorem key_notMem (h : key ∉ fields.map Prod.fst) (value : Json) :
    (key, value) ∉ fields.filterMap fun f => f.2.map fun v => (f.1, v) :=
  fun hmem => h (List.mem_map.mpr ⟨_, mem_members hmem, rfl⟩)

/-- The fields of an object, given its keys. -/
theorem members_inj {fs gs : List (Utf16 × Option Json)} (hk : fs.map Prod.fst = gs.map Prod.fst)
    (hn : (fs.map Prod.fst).Nodup)
    (h : (fs.filterMap fun f => f.2.map fun v => (f.1, v)) =
      gs.filterMap fun f => f.2.map fun v => (f.1, v)) : fs = gs := by
  induction fs generalizing gs with
  | nil => exact (List.map_eq_nil_iff.mp hk.symm).symm
  | cons f fs ih =>
    obtain ⟨key, x⟩ := f
    obtain _ | ⟨⟨key', y⟩, gs⟩ := gs
    · cases hk
    · obtain ⟨rfl, htail⟩ := List.cons.inj hk
      obtain ⟨hf, hfs⟩ := List.nodup_cons.mp hn
      have hg : key ∉ gs.map Prod.fst := htail ▸ hf
      -- A field of one object alone would stand under a key that the other one lacks.
      cases x with
      | none =>
        cases y with
        | none => exact congrArg ((key, none) :: ·) (ih htail hfs h)
        | some v =>
          have hmem := List.mem_cons_self (a := (key, v))
            (l := gs.filterMap fun f => f.2.map fun v => (f.1, v))
          exact absurd (h.symm ▸ hmem) (key_notMem hf v)
      | some u =>
        cases y with
        | none =>
          have hmem := List.mem_cons_self (a := (key, u))
            (l := fs.filterMap fun f => f.2.map fun v => (f.1, v))
          exact absurd (h ▸ hmem) (key_notMem hg u)
        | some v =>
          obtain ⟨hhead, hrest⟩ := List.cons.inj h
          cases hhead
          exact congrArg ((key, some u) :: ·) (ih htail hfs hrest)

theorem HasKeys.nodup {keys : List String} (h : HasKeys fields keys) (hn : keys.Nodup) :
    (fields.map Prod.fst).Nodup := by
  rw [h]
  exact List.Nodup.map (fun _ _ heq => Utf16.ofString_inj.mp heq) hn

theorem ofFields_inj {fs gs : List (Utf16 × Option Json)} {keys : List String} (hn : keys.Nodup)
    (hf : HasKeys fs keys) (hg : HasKeys gs keys) (h : ofFields fs = ofFields gs) : fs = gs :=
  members_inj (hf.trans hg.symm) (hf.nodup hn) (Json.object.inj h)

/-! ## Plain fields -/

theorem PlainFields.nil : PlainFields [] := fun f hf => by cases hf

theorem PlainFields.cons {value : Option Json} (h : ∀ v ∈ value, Plain v)
    (hfields : PlainFields fields) : PlainFields ((key, value) :: fields) := by
  intro f hf
  obtain rfl | hf := List.mem_cons.mp hf
  · exact h
  · exact hfields f hf

theorem plain_some (h : Plain j) : ∀ v ∈ some j, Plain v := by
  intro v hv
  cases hv
  exact h

theorem plain_map {x : Option α} {f : α → Json} (h : ∀ a, Plain (f a)) :
    ∀ v ∈ x.map f, Plain v := by
  intro v hv
  obtain ⟨a, -, rfl⟩ := Option.map_eq_some_iff.mp hv
  exact h a

theorem plain_array {items : List α} {f : α → Json} (h : ∀ a, Plain (f a)) :
    Plain (.array (items.map f)) := by
  refine .array fun item hitem => ?_
  obtain ⟨a, -, rfl⟩ := List.mem_map.mp hitem
  exact h a

theorem keys_sublist (fields : List (Utf16 × Option Json)) :
    ((fields.filterMap fun f => f.2.map fun value => (f.1, value)).map Prod.fst).Sublist
      (fields.map Prod.fst) := by
  induction fields with
  | nil => exact .slnil
  | cons f fields ih =>
    obtain ⟨key, _ | value⟩ := f
    · exact ih.cons key
    · exact ih.cons_cons key

theorem plain_ofFields {keys : List String} (hn : keys.Nodup) (hf : HasKeys fields keys)
    (h : PlainFields fields) : Plain (ofFields fields) := by
  refine .object ((hf.nodup hn).sublist (keys_sublist fields)) ?_
  rintro ⟨key, value⟩ hm
  exact h _ (mem_members hm) value rfl

/-! ## Octets -/

theorem numberText_isAscii (z : Int) : Utf16.IsAscii (numberText z) := by
  have htext : numberText z = (if z < 0 then [0x2D] else []) ++ natText z.natAbs := by
    rw [numberText, if_pos (Rat.den_intCast z), Rat.num_intCast, List.append_nil]
  have hdigits : Utf16.IsAscii (natText z.natAbs) := by
    intro u hu
    have hdigit := (natText_decimal z.natAbs).digits u hu
    have hle : 0x30 ≤ u.toNat ∧ u.toNat ≤ 0x39 := by
      simpa [isDigit, UInt16.le_iff_toNat_le] using hdigit
    omega
  rw [htext]
  intro u hu
  obtain hu | hu := List.mem_append.mp hu
  · split at hu
    · rw [List.mem_singleton.mp hu]
      decide
    · cases hu
  · exact hdigits u hu

theorem moreItems_wellFormed {items : List Json}
    (h : ∀ item ∈ items, Utf16.WellFormed (stringify item)) :
    Utf16.WellFormed (moreItems items) := by
  induction items with
  | nil => exact .cons (by decide) rfl
  | cons item items ih =>
    have htail := ih fun j hj => h j (List.mem_cons_of_mem item hj)
    exact .cons (by decide) ((h item List.mem_cons_self).append htail)

theorem moreMembers_wellFormed {members : List (Utf16 × Json)}
    (h : ∀ m ∈ members, Utf16.WellFormed (stringify m.2)) :
    Utf16.WellFormed (moreMembers members) := by
  induction members with
  | nil => exact .cons (by decide) rfl
  | cons m members ih =>
    obtain ⟨key, value⟩ := m
    have hvalue := h (key, value) List.mem_cons_self
    have htail := ih fun m hm => h m (List.mem_cons_of_mem _ hm)
    exact .cons (by decide) ((JsString.quote_wellFormed key).append
      (.cons (by decide) (hvalue.append htail)))

/-- The text of a value holds no lone surrogate: one of its strings that does is escaped. -/
theorem stringify_wellFormed (h : Plain j) : Utf16.WellFormed (stringify j) := by
  induction h with
  | null => exact Utf16.IsAscii.wellFormed (by decide)
  | bool b => cases b <;> exact Utf16.IsAscii.wellFormed (by decide)
  | number z => exact (numberText_isAscii z).wellFormed
  | string s => exact JsString.quote_wellFormed s
  | array h ih =>
    rename_i items
    cases items with
    | nil => exact .cons (by decide) (.cons (by decide) rfl)
    | cons item items =>
      have htail := moreItems_wellFormed fun j hj => ih j (List.mem_cons_of_mem item hj)
      exact .cons (by decide) ((ih item List.mem_cons_self).append htail)
  | object hk h ih =>
    rename_i members
    obtain _ | ⟨⟨key, value⟩, members⟩ := members
    · exact .cons (by decide) (.cons (by decide) rfl)
    · have hvalue := ih (key, value) List.mem_cons_self
      have htail := moreMembers_wellFormed fun m hm => ih m (List.mem_cons_of_mem _ hm)
      exact .cons (by decide) ((JsString.quote_wellFormed key).append
        (.cons (by decide) (hvalue.append htail)))

/-- The octets of a value's text tell which value it is. -/
theorem eq_of_octets (h : Plain j) (h' : Plain j')
    (heq : Utf16.utf8 (stringify j) = Utf16.utf8 (stringify j')) : j = j' :=
  stringify_inj h h' (Utf16.utf8_inj (stringify_wellFormed h) (stringify_wellFormed h') heq)

end WarrenSdk.Lib.Json
