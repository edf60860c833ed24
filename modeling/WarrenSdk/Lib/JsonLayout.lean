import WarrenSdk.Lib.JsonPrefix

/-!
# JSON texts on several lines

`to_string_pretty` puts every item and every member on a line of its own, two spaces deeper than the
bracket. Space between the parts of a text is skipped, so such a text is read back.
-/

namespace WarrenSdk.Lib.Json

def newline (depth : Nat) : Utf16 := 0x0A :: List.replicate (2 * depth) 0x20

mutual

def prettyFrom (depth : Nat) : Json → Utf16
  | .array (item :: items) =>
    0x5B :: (newline (depth + 1) ++ (prettyFrom (depth + 1) item ++ prettyItems depth items))
  | .object ((key, value) :: members) =>
    0x7B :: (newline (depth + 1) ++ (JsString.quote key ++ 0x3A :: 0x20 ::
      (prettyFrom (depth + 1) value ++ prettyMembers depth members)))
  | .null => stringify .null
  | .bool b => stringify (.bool b)
  | .number q => stringify (.number q)
  | .string s => stringify (.string s)
  | .array [] => stringify (.array [])
  | .object [] => stringify (.object [])

/-- The items of an array after its first, and its closing bracket. -/
def prettyItems (depth : Nat) : List Json → Utf16
  | [] => newline depth ++ [0x5D]
  | item :: items =>
    0x2C :: (newline (depth + 1) ++ (prettyFrom (depth + 1) item ++ prettyItems depth items))

/-- The members of an object after its first, and its closing brace. -/
def prettyMembers (depth : Nat) : List (Utf16 × Json) → Utf16
  | [] => newline depth ++ [0x7D]
  | (key, value) :: members =>
    0x2C :: (newline (depth + 1) ++ (JsString.quote key ++ 0x3A :: 0x20 ::
      (prettyFrom (depth + 1) value ++ prettyMembers depth members)))

end

/-- `serde_json::to_string_pretty` -/
def pretty (j : Json) : Utf16 := prettyFrom 0 j

theorem skipSpace_newline (depth : Nat) (text : Utf16) :
    skipSpace (newline depth ++ text) = skipSpace text := by
  have hspaces : ∀ u ∈ newline depth, isSpace u = true := by
    intro u hu
    rcases List.mem_cons.mp hu with rfl | hu
    · rfl
    · rw [List.eq_of_mem_replicate hu]
      rfl
  rw [skipSpace, List.dropWhile_append, List.dropWhile_eq_nil_iff.mpr hspaces]
  rfl

@[simp] theorem skipSpace_blank (text : Utf16) : skipSpace (0x20 :: text) = skipSpace text := rfl

theorem prettyFrom_head (h : Plain j) (depth : Nat) :
    ∃ u text, prettyFrom depth j = u :: text ∧ isSpace u = false ∧ u ≠ 0x5D ∧ u ≠ 0x7D := by
  cases h with
  | null => exact stringify_head .null
  | bool b => exact stringify_head (.bool b)
  | number z => exact stringify_head (.number z)
  | string s => exact stringify_head (.string s)
  | @array items h =>
    cases items with
    | nil => exact stringify_head (.array h)
    | cons item items => exact ⟨_, _, rfl, by decide⟩
  | @object members hk h =>
    obtain _ | ⟨⟨key, value⟩, members⟩ := members
    · exact stringify_head (.object hk h)
    · exact ⟨_, _, rfl, by decide⟩

/-- The lines of `j` are read with any text behind them that no number goes on in. -/
def PrettyReads (j : Json) : Prop :=
  ∀ depth fuel rest, (prettyFrom depth j).length < fuel → Ends rest →
    readValue fuel (prettyFrom depth j ++ rest) = some (j, rest)

theorem ends_prettyItems (depth : Nat) (items : List Json) (rest : Utf16) :
    Ends (prettyItems depth items ++ rest) := by
  cases items <;> exact ends_of_head (by decide)

theorem ends_prettyMembers (depth : Nat) (members : List (Utf16 × Json)) (rest : Utf16) :
    Ends (prettyMembers depth members ++ rest) := by
  obtain _ | ⟨⟨key, value⟩, members⟩ := members <;> exact ends_of_head (by decide)

theorem readItems_prettyItems {depth : Nat} {items : List Json}
    (h : ∀ j ∈ item :: items, PrettyReads j)
    (hf : (prettyFrom (depth + 1) item ++ prettyItems depth items).length < fuel)
    (htext : skipSpace text =
      skipSpace (prettyFrom (depth + 1) item ++ (prettyItems depth items ++ rest))) :
    readItems fuel text = some (item :: items, rest) := by
  induction items generalizing item fuel text with
  | nil =>
    obtain _ | fuel := fuel
    · cases hf
    rw [List.length_append, prettyItems, List.length_append, List.length_singleton] at hf
    have hitem := h item List.mem_cons_self (depth + 1) fuel (prettyItems depth [] ++ rest)
      (by omega) (ends_prettyItems _ _ _)
    refine readItems_eq_some.mpr ⟨item, _, (readValue_skipSpace htext).trans hitem, .inl ⟨?_, rfl⟩⟩
    rw [prettyItems, List.append_assoc, skipSpace_newline]
    exact skipSpace_of_head (by decide)
  | cons next items ih =>
    obtain _ | fuel := fuel
    · cases hf
    rw [List.length_append, prettyItems, List.length_cons, List.length_append] at hf
    have hitem := h item List.mem_cons_self (depth + 1) fuel
      (prettyItems depth (next :: items) ++ rest) (by omega) (ends_prettyItems _ _ _)
    have htail : readItems fuel (newline (depth + 1) ++ (prettyFrom (depth + 1) next ++
        (prettyItems depth items ++ rest))) = some (next :: items, rest) :=
      ih (fun j hj => h j (List.mem_cons_of_mem _ hj)) (by omega) (skipSpace_newline ..)
    refine readItems_eq_some.mpr ⟨item, _, (readValue_skipSpace htext).trans hitem,
      .inr ⟨_, _, ?_, htail, rfl⟩⟩
    rw [prettyItems, List.cons_append, List.append_assoc, List.append_assoc]
    exact skipSpace_of_head (by decide)

theorem readMembers_prettyMembers {depth : Nat} {members : List (Utf16 × Json)}
    (h : ∀ m ∈ (key, value) :: members, PrettyReads m.2)
    (hf : (prettyFrom (depth + 1) value ++ prettyMembers depth members).length < fuel)
    (htext : skipSpace text = skipSpace (JsString.quote key ++ 0x3A :: 0x20 ::
      (prettyFrom (depth + 1) value ++ (prettyMembers depth members ++ rest)))) :
    readMembers fuel text = some ((key, value) :: members, rest) := by
  have hquote (key : Utf16) (more : Utf16) : skipSpace (JsString.quote key ++ more) =
      0x22 :: (JsString.escape key ++ 0x22 :: more) := by
    rw [JsString.quote, List.cons_append, List.append_assoc]
    exact skipSpace_of_head (by decide)
  rw [hquote] at htext
  induction members generalizing key value fuel text with
  | nil =>
    obtain _ | fuel := fuel
    · cases hf
    rw [List.length_append, prettyMembers, List.length_append, List.length_singleton] at hf
    have hvalue := h (key, value) List.mem_cons_self (depth + 1) fuel
      (prettyMembers depth [] ++ rest)
      (by dsimp only; omega) (ends_prettyMembers _ _ _)
    refine readMembers_eq_some.mpr ⟨_, key, _, _, value, _, htext, readString_escape ..,
      skipSpace_of_head (by decide), (readValue_skipSpace (skipSpace_blank _)).trans hvalue,
        .inl ⟨?_, rfl⟩⟩
    rw [prettyMembers, List.append_assoc, skipSpace_newline]
    exact skipSpace_of_head (by decide)
  | cons next members ih =>
    obtain ⟨key', value'⟩ := next
    obtain _ | fuel := fuel
    · cases hf
    rw [List.length_append, prettyMembers] at hf
    simp only [List.length_cons, List.length_append] at hf
    have hvalue := h (key, value) List.mem_cons_self (depth + 1) fuel
      (prettyMembers depth ((key', value') :: members) ++ rest) (by dsimp only; omega)
      (ends_prettyMembers _ _ _)
    have htail : readMembers fuel (newline (depth + 1) ++ (JsString.quote key' ++ 0x3A :: 0x20 ::
        (prettyFrom (depth + 1) value' ++ (prettyMembers depth members ++ rest)))) =
          some ((key', value') :: members, rest) :=
      ih (fun m hm => h m (List.mem_cons_of_mem _ hm)) (by rw [List.length_append]; omega)
        ((skipSpace_newline ..).trans (hquote ..))
    refine readMembers_eq_some.mpr ⟨_, key, _, _, value, _, htext, readString_escape ..,
      skipSpace_of_head (by decide), (readValue_skipSpace (skipSpace_blank _)).trans hvalue,
      .inr ⟨_, _, ?_, htail, rfl⟩⟩
    rw [prettyMembers]
    simp only [List.cons_append, List.append_assoc]
    exact skipSpace_of_head (by decide)

theorem prettyReads_of_plain (h : Plain j) : PrettyReads j := by
  induction h with
  | null => exact fun _ => reads_of_plain .null
  | bool b => exact fun _ => reads_of_plain (.bool b)
  | number z => exact fun _ => reads_of_plain (.number z)
  | string s => exact fun _ => reads_of_plain (.string s)
  | @array items h ih =>
    cases items with
    | nil => exact fun _ => reads_of_plain (.array h)
    | cons item items =>
      intro depth fuel rest hf _
      obtain _ | fuel := fuel
      · cases hf
      obtain ⟨u, text, htext, hspace, hclose, -⟩ :=
        prettyFrom_head (h item List.mem_cons_self) (depth + 1)
      rw [prettyFrom, List.length_cons, List.length_append] at hf
      have hfirst (more : Utf16) : skipSpace (newline (depth + 1) ++
          (prettyFrom (depth + 1) item ++ more)) = u :: (text ++ more) := by
        rw [skipSpace_newline, htext]
        exact skipSpace_of_head hspace
      have hitems : readItems fuel (skipSpace (prettyFrom (depth + 1) item ++
          (prettyItems depth items ++ rest))) = some (item :: items, rest) :=
        readItems_prettyItems ih (by omega) (skipSpace_idem _)
      rw [prettyFrom, List.cons_append, List.append_assoc, List.append_assoc, readValue_eq_some]
      refine .array (skipSpace_of_head (by decide)) ?_ ?_
      · rw [hfirst]
        simpa using hclose
      · rwa [skipSpace_newline]
  | @object members hk h ih =>
    obtain _ | ⟨⟨key, value⟩, members⟩ := members
    · exact fun _ => reads_of_plain (.object hk h)
    · intro depth fuel rest hf _
      obtain _ | fuel := fuel
      · cases hf
      rw [prettyFrom] at hf
      simp only [List.length_cons, List.length_append] at hf
      have hmembers : readMembers fuel (skipSpace (JsString.quote key ++ 0x3A :: 0x20 ::
          (prettyFrom (depth + 1) value ++ (prettyMembers depth members ++ rest)))) =
            some ((key, value) :: members, rest) :=
        readMembers_prettyMembers ih (by rw [List.length_append]; omega) (skipSpace_idem _)
      rw [prettyFrom]
      simp only [List.cons_append, List.append_assoc]
      rw [readValue_eq_some, ← ofMembers_eq hk]
      refine .object (skipSpace_of_head (by decide)) ?_ ?_
      · rw [skipSpace_newline, JsString.quote, List.cons_append, skipSpace_of_head (by decide)]
        simp
      · rwa [skipSpace_newline]

/-- What is written on several lines is read back. -/
theorem parse_pretty (h : Plain j) : parse (pretty j) = some j := by
  have hread := prettyReads_of_plain h 0 _ [] (Nat.lt_succ_self (pretty j).length) .nil
  rw [List.append_nil] at hread
  unfold parse
  rw [pretty] at hread ⊢
  rw [hread]
  rfl

/-! ## Octets -/

theorem newline_wellFormed (depth : Nat) : Utf16.WellFormed (newline depth) := by
  refine Utf16.IsAscii.wellFormed fun u hu => ?_
  rcases List.mem_cons.mp hu with rfl | hu
  · decide
  · rw [List.eq_of_mem_replicate hu]
    decide

theorem prettyItems_wellFormed {depth : Nat} {items : List Json}
    (h : ∀ item ∈ items, Utf16.WellFormed (prettyFrom (depth + 1) item)) :
    Utf16.WellFormed (prettyItems depth items) := by
  induction items with
  | nil => exact (newline_wellFormed _).append (.cons (by decide) rfl)
  | cons item items ih =>
    have htail := ih fun j hj => h j (List.mem_cons_of_mem item hj)
    exact .cons (by decide) ((newline_wellFormed _).append
      ((h item List.mem_cons_self).append htail))

theorem prettyMembers_wellFormed {depth : Nat} {members : List (Utf16 × Json)}
    (h : ∀ m ∈ members, Utf16.WellFormed (prettyFrom (depth + 1) m.2)) :
    Utf16.WellFormed (prettyMembers depth members) := by
  induction members with
  | nil => exact (newline_wellFormed _).append (.cons (by decide) rfl)
  | cons m members ih =>
    obtain ⟨key, value⟩ := m
    have hvalue := h (key, value) List.mem_cons_self
    have htail := ih fun m hm => h m (List.mem_cons_of_mem _ hm)
    exact .cons (by decide) ((newline_wellFormed _).append ((JsString.quote_wellFormed key).append
      (.cons (by decide) (.cons (by decide) (hvalue.append htail)))))

theorem prettyFrom_wellFormed (h : Plain j) (depth : Nat) :
    Utf16.WellFormed (prettyFrom depth j) := by
  induction h generalizing depth with
  | null => exact stringify_wellFormed .null
  | bool b => exact stringify_wellFormed (.bool b)
  | number z => exact stringify_wellFormed (.number z)
  | string s => exact stringify_wellFormed (.string s)
  | @array items h ih =>
    cases items with
    | nil => exact stringify_wellFormed (.array h)
    | cons item items =>
      have htail := prettyItems_wellFormed
        fun j hj => ih j (List.mem_cons_of_mem item hj) (depth + 1)
      exact .cons (by decide) ((newline_wellFormed _).append
        ((ih item List.mem_cons_self _).append htail))
  | @object members hk h ih =>
    obtain _ | ⟨⟨key, value⟩, members⟩ := members
    · exact stringify_wellFormed (.object hk h)
    · have hvalue := ih (key, value) List.mem_cons_self (depth + 1)
      have htail := prettyMembers_wellFormed
        fun m hm => ih m (List.mem_cons_of_mem _ hm) (depth + 1)
      exact .cons (by decide) ((newline_wellFormed _).append ((JsString.quote_wellFormed key).append
        (.cons (by decide) (.cons (by decide) (hvalue.append htail)))))

end WarrenSdk.Lib.Json
