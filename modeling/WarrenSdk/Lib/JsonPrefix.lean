import Mathlib.Data.List.DropRight
import WarrenSdk.Lib.JsonForm

/-!
# Prefixes of JSON texts

A reader that stops before the end of a text stops there whatever follows (`Extends`), and one that
reads an array or an object stops at its bracket also at the end of the text. So no proper prefix of
the text of an object is a text.
-/

namespace WarrenSdk.Lib.Json

/-! ## What a reader does -/

/-- What is read of a text, when it is read. -/
inductive ValueRead (fuel : Nat) (text : Utf16) : Json → Utf16 → Prop
  | null (h : skipSpace text = 0x6E :: 0x75 :: 0x6C :: 0x6C :: rest) : ValueRead fuel text
    .null rest
  | trueWord (h : skipSpace text = 0x74 :: 0x72 :: 0x75 :: 0x65 :: rest) :
    ValueRead fuel text (.bool true) rest
  | falseWord (h : skipSpace text = 0x66 :: 0x61 :: 0x6C :: 0x73 :: 0x65 :: rest) :
    ValueRead fuel text (.bool false) rest
  | string (h : skipSpace text = 0x22 :: inside) (hs : readString inside = some (s, rest)) :
    ValueRead fuel text (.string s) rest
  | emptyArray (h : skipSpace text = 0x5B :: inside) (hs : skipSpace inside = 0x5D :: rest) :
    ValueRead fuel text (.array []) rest
  | array (h : skipSpace text = 0x5B :: inside) (hne : (skipSpace inside).head? ≠ some 0x5D)
    (hs : readItems fuel (skipSpace inside) = some (items, rest)) :
    ValueRead fuel text (.array items) rest
  | emptyObject (h : skipSpace text = 0x7B :: inside) (hs : skipSpace inside = 0x7D :: rest) :
    ValueRead fuel text (.object []) rest
  | object (h : skipSpace text = 0x7B :: inside) (hne : (skipSpace inside).head? ≠ some 0x7D)
    (hs : readMembers fuel (skipSpace inside) = some (members, rest)) :
    ValueRead fuel text (ofMembers members) rest
  | number (h : skipSpace text = u :: inside) (hu : isDigit u = true ∨ u = 0x2D)
    (hs : readNumber (u :: inside) = some (j, rest)) : ValueRead fuel text j rest

theorem readDigits_head (h : readDigits text = some x) : ∃ u inside, text = u :: inside ∧
    isDigit u = true := by
  unfold readDigits at h
  cases text with
  | nil => cases h
  | cons u inside =>
    refine ⟨u, inside, rfl, ?_⟩
    by_contra hu
    rw [List.takeWhile_cons_of_neg hu] at h
    cases h

theorem readMagnitude_head (h : readMagnitude text = some x) : ∃ u inside, text = u :: inside ∧
    isDigit u = true := by
  unfold readMagnitude at h
  obtain ⟨y, hy, -⟩ := Option.bind_eq_some_iff.mp h
  exact readDigits_head hy

theorem readNumber_head (h : readNumber text = some x) : ∃ u inside, text = u :: inside ∧
    (isDigit u = true ∨ u = 0x2D) := by
  unfold readNumber at h
  split at h
  · exact ⟨_, _, rfl, .inr rfl⟩
  · obtain ⟨y, hy, -⟩ := Option.map_eq_some_iff.mp h
    obtain ⟨u, inside, heq, hu⟩ := readMagnitude_head hy
    exact ⟨u, inside, heq, .inl hu⟩

theorem readValue_skipSpace (h : skipSpace text = skipSpace text') :
    readValue fuel text = readValue fuel text' := by
  cases fuel with
  | zero => rfl
  | succ fuel => rw [readValue, readValue, h]

theorem skipSpace_idem (text : Utf16) : skipSpace (skipSpace text) = skipSpace text :=
  List.dropWhile_idempotent isSpace text

theorem readValue_eq_some :
    readValue (fuel + 1) text = some (j, rest) ↔ ValueRead fuel text j rest := by
  constructor
  · intro h
    rw [readValue] at h
    split at h
    · next heq => cases h; exact .null heq
    · next heq => cases h; exact .trueWord heq
    · next heq => cases h; exact .falseWord heq
    · next heq =>
      obtain ⟨x, hx, heq'⟩ := Option.map_eq_some_iff.mp h
      cases heq'
      exact .string heq hx
    · next heq =>
      split at h
      · next hs => cases h; exact .emptyArray heq hs
      · next hne =>
        obtain ⟨x, hx, heq'⟩ := Option.map_eq_some_iff.mp h
        cases heq'
        refine .array heq (fun hhead => ?_) hx
        obtain ⟨r, hr⟩ := List.head?_eq_some_iff.mp hhead
        exact hne r hr
    · next heq =>
      split at h
      · next hs => cases h; exact .emptyObject heq hs
      · next hne =>
        obtain ⟨x, hx, heq'⟩ := Option.map_eq_some_iff.mp h
        cases heq'
        refine .object heq (fun hhead => ?_) hx
        obtain ⟨r, hr⟩ := List.head?_eq_some_iff.mp hhead
        exact hne r hr
    · obtain ⟨u, inside, heq, hu⟩ := readNumber_head h
      rw [heq] at h
      exact .number heq hu h
  · intro h
    cases h with
    | null h | trueWord h | falseWord h =>
      rw [readValue, h]
      rfl
    | string h hs =>
      rw [readValue, h]
      simp only
      rw [hs]
      rfl
    | emptyArray h hs | emptyObject h hs =>
      rw [readValue, h]
      simp only
      rw [hs]
      rfl
    | array h hne hs | object h hne hs =>
      rw [readValue, h]
      simp only
      split
      · next heq =>
        rw [heq] at hne
        exact absurd rfl hne
      · rw [hs]
        rfl
    | number h hu hs =>
      rw [← readValue_skipSpace (skipSpace_idem text), h,
        readValue_of_sign fuel hu, hs]

theorem readItems_eq_some : readItems (fuel + 1) text = some (items, rest) ↔
    ∃ item behind, readValue fuel text = some (item, behind) ∧
      (skipSpace behind = 0x5D :: rest ∧ items = [item] ∨
        ∃ behind' items', skipSpace behind = 0x2C :: behind' ∧
          readItems fuel behind' = some (items', rest) ∧ items = item :: items') := by
  constructor
  · intro h
    rw [readItems] at h
    split at h
    · cases h
    · next item behind hitem =>
      refine ⟨item, behind, hitem, ?_⟩
      split at h
      · next heq =>
        cases h
        exact .inl ⟨heq, rfl⟩
      · next behind' heq =>
        obtain ⟨x, hx, heq'⟩ := Option.map_eq_some_iff.mp h
        cases heq'
        exact .inr ⟨behind', x.1, heq, hx, rfl⟩
      · cases h
  · rintro ⟨item, behind, hitem, ⟨heq, rfl⟩ | ⟨behind', items', heq, hx, rfl⟩⟩
    · rw [readItems, hitem]
      simp only
      rw [heq]
      rfl
    · rw [readItems, hitem]
      simp only
      rw [heq]
      simp only
      rw [hx]
      rfl

theorem readMembers_eq_some : readMembers (fuel + 1) text = some (members, rest) ↔
    ∃ inside key behind inside' value behind', skipSpace text = 0x22 :: inside ∧
      readString inside = some (key, behind) ∧ skipSpace behind = 0x3A :: inside' ∧
      readValue fuel inside' = some (value, behind') ∧
      (skipSpace behind' = 0x7D :: rest ∧ members = [(key, value)] ∨
        ∃ more members', skipSpace behind' = 0x2C :: more ∧
          readMembers fuel more = some (members', rest) ∧ members = (key, value) :: members') := by
  constructor
  · intro h
    rw [readMembers] at h
    split at h
    · next inside hinner =>
      split at h
      · cases h
      · next key behind hkey =>
        split at h
        · next inside' hcolon =>
          split at h
          · cases h
          · next value behind' hvalue =>
            refine ⟨inside, key, behind, inside', value, behind', hinner, hkey, hcolon, hvalue, ?_⟩
            split at h
            · next heq =>
              cases h
              exact .inl ⟨heq, rfl⟩
            · next more heq =>
              obtain ⟨x, hx, heq'⟩ := Option.map_eq_some_iff.mp h
              cases heq'
              exact .inr ⟨more, x.1, heq, hx, rfl⟩
            · cases h
        · cases h
    · cases h
  · rintro ⟨inside, key, behind, inside', value, behind', hinner, hkey, hcolon, hvalue, hend⟩
    rw [readMembers, hinner]
    simp only
    rw [hkey]
    simp only
    rw [hcolon]
    simp only
    rw [hvalue]
    simp only
    obtain ⟨heq, rfl⟩ | ⟨more, members', heq, hx, rfl⟩ := hend
    · rw [heq]
      rfl
    · rw [heq]
      simp only
      rw [hx]
      rfl

/-! ## Readers that do not look ahead -/

/-- What is read before the end of a text is read whatever follows. -/
def Extends {α : Type} (read : Utf16 → Option (α × Utf16)) : Prop :=
  ∀ {text x rest}, read text = some (x, rest) → rest ≠ [] → ∀ more,
    read (text ++ more) = some (x, rest ++ more)

/-- What is read is read whatever follows. -/
def Closes {α : Type} (read : Utf16 → Option (α × Utf16)) : Prop :=
  ∀ {text x rest}, read text = some (x, rest) → ∀ more, read (text ++ more) = some (x, rest ++ more)

theorem skipSpace_append (h : skipSpace text = u :: inside) (more : Utf16) :
    skipSpace (text ++ more) = u :: (inside ++ more) := by
  have hne : (List.dropWhile isSpace text).isEmpty = false := by
    have h : List.dropWhile isSpace text = u :: inside := h
    rw [h]
    rfl
  have happend : skipSpace (text ++ more) = skipSpace text ++ more := by
    rw [skipSpace, List.dropWhile_append, hne]
    rfl
  rw [happend, h]
  rfl

/-! ## Strings -/

/-- A string, up to its quote, and what is behind it. -/
inductive StringRead (rest : Utf16) : Utf16 → Utf16 → Prop
  | close : StringRead rest (0x22 :: rest) []
  | unicode (hu : JsString.unitOf a b c d = some u) : StringRead rest text s →
    StringRead rest (0x5C :: 0x75 :: a :: b :: c :: d :: text) (u :: s)
  | letter (hne : letter ≠ 0x75) (hu : letterEscapes.find? (·.2 = letter) = some (u, v)) :
    StringRead rest text s → StringRead rest (0x5C :: letter :: text) (u :: s)
  | raw (hquote : u ≠ 0x22) (hescape : u ≠ 0x5C) (hle : ¬ u < 0x20) : StringRead rest text s →
    StringRead rest (u :: text) (u :: s)

theorem readString_close (text : Utf16) : readString (0x22 :: text) = some ([], text) := by
  rw [readString.eq_def]
  rfl

theorem readString_unicode (a b c d : UInt16) (text : Utf16) :
    readString (0x5C :: 0x75 :: a :: b :: c :: d :: text) =
      (JsString.unitOf a b c d).bind fun u => (readString text).bind fun x =>
        some (u :: x.1, x.2) := by
  rw [readString.eq_def]
  simp only [show (0x5C : UInt16) ≠ 0x22 by decide, if_false, if_true]
  rfl

theorem readString_raw_eq (hquote : u ≠ 0x22) (hescape : u ≠ 0x5C) (hle : ¬ u < 0x20)
    (text : Utf16) :
    readString (u :: text) = (readString text).bind fun x => some (u :: x.1, x.2) := by
  rw [readString.eq_def]
  simp only [hquote, hescape, hle, if_false]
  rfl

theorem readString_letter_eq (letter : UInt16) (text : Utf16) (h : ∀ a b c d rest,
      letter = 0x75 → text = a :: b :: c :: d :: rest → False) :
    readString (0x5C :: letter :: text) = (letterEscapes.find? (·.2 = letter)).bind fun e =>
      (readString text).bind fun x => some (e.1 :: x.1, x.2) := by
  rw [readString.eq_def]
  simp only [show (0x5C : UInt16) ≠ 0x22 by decide, if_false, if_true]
  rfl

theorem stringRead_of_readString (h : readString text = some (s, rest)) :
    StringRead rest text s := by
  induction text using readString.induct generalizing s with
  | case1 =>
    rw [readString.eq_def] at h
    cases h
  | case2 text =>
    rw [readString_close] at h
    cases h
    exact .close
  | case3 a b c d text _ ih =>
    rw [readString_unicode] at h
    obtain ⟨u, hu, h⟩ := Option.bind_eq_some_iff.mp h
    obtain ⟨x, hx, h⟩ := Option.bind_eq_some_iff.mp h
    cases h
    exact .unicode hu (ih hx)
  | case4 letter text hshort _ ih =>
    rw [readString_letter_eq letter text hshort] at h
    obtain ⟨e, he, h⟩ := Option.bind_eq_some_iff.mp h
    obtain ⟨x, hx, h⟩ := Option.bind_eq_some_iff.mp h
    cases h
    refine .letter ?_ he (ih hx)
    rintro rfl
    have hnone : letterEscapes.find? (·.2 = 0x75) = none := by decide
    rw [hnone] at he
    cases he
  | case5 =>
    rw [readString.eq_def] at h
    cases h
  | case6 u text hquote hescape hlt =>
    rw [readString.eq_def] at h
    simp only [hquote, hescape, hlt, if_false, if_true] at h
    cases h
  | case7 u text hquote hescape hle ih =>
    rw [readString_raw_eq hquote hescape hle] at h
    obtain ⟨x, hx, h⟩ := Option.bind_eq_some_iff.mp h
    cases h
    exact .raw hquote hescape hle (ih hx)

theorem StringRead.readString (h : StringRead rest text s) :
    Json.readString text = some (s, rest) := by
  induction h with
  | close => exact readString_close rest
  | unicode hu _ ih =>
    rw [readString_unicode, hu, ih]
    rfl
  | letter hne hu _ ih =>
    rw [readString_letter_eq _ _ fun _ _ _ _ _ heq => absurd heq hne, hu, ih]
    rfl
  | raw hquote hescape hle _ ih =>
    rw [readString_raw_eq hquote hescape hle, ih]
    rfl

theorem closes_readString : Closes readString := by
  intro text s rest h more
  have hread := stringRead_of_readString h
  refine StringRead.readString ?_
  clear h
  induction hread with
  | close => exact .close
  | unicode hu _ ih => exact .unicode hu ih
  | letter hne hu _ ih => exact .letter hne hu ih
  | raw hquote hescape hle _ ih => exact .raw hquote hescape hle ih

theorem suffix_readString (h : readString text = some (s, rest)) : rest <:+ text := by
  have hcons {u : UInt16} {text : Utf16} (h : rest <:+ text) : rest <:+ u :: text :=
    h.trans (List.suffix_cons u text)
  have hread := stringRead_of_readString h
  clear h
  induction hread with
  | close => exact List.suffix_cons 0x22 rest
  | unicode _ _ ih => exact hcons (hcons (hcons (hcons (hcons (hcons ih)))))
  | letter _ _ _ ih => exact hcons (hcons ih)
  | raw _ _ _ _ ih => exact hcons ih

/-! ## Numbers -/

theorem dropWhile_append {text : Utf16} (h : text.dropWhile isDigit ≠ []) (more : Utf16) :
    (text ++ more).takeWhile isDigit = text.takeWhile isDigit ∧
      (text ++ more).dropWhile isDigit = text.dropWhile isDigit ++ more := by
  induction text with
  | nil => exact absurd rfl h
  | cons u text ih =>
    cases hu : isDigit u with
    | false => simp [hu]
    | true =>
      rw [List.dropWhile_cons_of_pos hu] at h
      obtain ⟨htake, hdrop⟩ := ih h
      rw [List.cons_append, List.takeWhile_cons_of_pos hu, List.takeWhile_cons_of_pos hu,
        List.dropWhile_cons_of_pos hu, List.dropWhile_cons_of_pos hu, htake, hdrop]
      exact ⟨rfl, rfl⟩

theorem extends_readDigits : Extends readDigits := by
  intro text ds rest h hne more
  unfold readDigits at h
  split at h
  · cases h
  · next hds =>
    cases h
    obtain ⟨htake, hdrop⟩ := dropWhile_append hne more
    unfold readDigits
    rw [htake, hdrop]
    split
    · next heq => exact absurd heq hds
    · rfl

theorem extends_map {α β : Type} {read : Utf16 → Option (α × Utf16)} (f : α → β)
    (h : Extends read) : Extends fun text => (read text).map fun x => (f x.1, x.2) := by
  intro text x rest hread hne more
  obtain ⟨y, hy, heq⟩ := Option.map_eq_some_iff.mp hread
  cases heq
  simp only [h hy hne more, Option.map_some]

theorem extends_readFraction : Extends readFraction := by
  intro text x rest h hne more
  cases text with
  | nil =>
    cases h
    exact absurd rfl hne
  | cons u text =>
    by_cases hu : u = 0x2E
    · subst hu
      exact extends_map (fun ds => (ofDigits ds : Rat) / 10 ^ ds.length) extends_readDigits h
        hne more
    · have hpass (text : Utf16) : readFraction (u :: text) = some (0, u :: text) := by
        unfold readFraction
        split
        · next heq => exact absurd (List.cons.inj heq).1 hu
        · rfl
      rw [hpass] at h
      cases h
      exact hpass _

theorem extends_readExponent : Extends readExponent := by
  intro text x rest h hne more
  cases text with
  | nil =>
    cases h
    exact absurd rfl hne
  | cons u text =>
    by_cases hu : u = 0x65 ∨ u = 0x45
    · cases text with
      | nil =>
        simp only [readExponent, hu, if_true] at h
        cases h
      | cons v text =>
        simp only [readExponent, hu, if_true, List.cons_append] at h ⊢
        by_cases hminus : v = 0x2D
        · subst hminus
          exact extends_map (fun ds => (1 : Rat) / 10 ^ ofDigits ds) extends_readDigits h hne more
        · by_cases hplus : v = 0x2B
          · subst hplus
            exact extends_map (fun ds => (10 : Rat) ^ ofDigits ds) extends_readDigits h hne more
          · split at h
            · next heq => exact absurd (List.cons.inj heq).1 hminus
            · next heq => exact absurd (List.cons.inj heq).1 hplus
            · split
              · next heq => exact absurd (List.cons.inj heq).1 hminus
              · next heq => exact absurd (List.cons.inj heq).1 hplus
              · exact extends_map (fun ds => (10 : Rat) ^ ofDigits ds) extends_readDigits h hne more
    · simp only [readExponent, hu, if_false, List.cons_append] at h ⊢
      cases h
      rfl

theorem extends_readMagnitude : Extends readMagnitude := by
  intro text x rest h hne more
  unfold readMagnitude at h ⊢
  obtain ⟨⟨ds, text₁⟩, hds, h⟩ := Option.bind_eq_some_iff.mp h
  simp only at h
  split at h
  · next hzero =>
    obtain ⟨⟨fraction, text₂⟩, hfraction, h⟩ := Option.bind_eq_some_iff.mp h
    obtain ⟨⟨power, text₃⟩, hpower, h⟩ := Option.bind_eq_some_iff.mp h
    cases h
    have hne₂ : text₂ ≠ [] := by
      rintro rfl
      cases hpower
      exact hne rfl
    have hne₁ : text₁ ≠ [] := by
      rintro rfl
      cases hfraction
      exact hne₂ rfl
    simp only [extends_readDigits hds hne₁ more, extends_readFraction hfraction hne₂ more,
      extends_readExponent hpower hne more, hzero, if_true, Option.bind_eq_bind, Option.bind_some]
    rfl
  · cases h

theorem extends_readNumber : Extends readNumber := by
  intro text x rest h hne more
  obtain ⟨u, inside, rfl, hu⟩ := readNumber_head h
  by_cases hminus : u = 0x2D
  · subst hminus
    exact extends_map (fun q => number (-q)) extends_readMagnitude h hne more
  · have hpass (text : Utf16) : readNumber (u :: text) =
        (readMagnitude (u :: text)).map fun x => (.number x.1, x.2) := by
      unfold readNumber
      split
      · next heq => exact absurd (List.cons.inj heq).1 hminus
      · rfl
    rw [hpass] at h
    rw [List.cons_append, hpass]
    exact extends_map number extends_readMagnitude h hne more

/-! ## Values -/

theorem skipSpace_suffix (text : Utf16) : skipSpace text <:+ text := List.dropWhile_suffix _

theorem readItems_head (h : readItems fuel text = some x) : skipSpace text ≠ [] := by
  intro hnil
  obtain _ | _ | fuel := fuel
  · cases h
  · cases h
  · obtain ⟨item, behind, hitem, -⟩ := readItems_eq_some.mp h
    cases readValue_eq_some.mp hitem <;> simp_all

theorem readMembers_head (h : readMembers fuel text = some x) : skipSpace text ≠ [] := by
  intro hnil
  obtain _ | fuel := fuel
  · cases h
  · obtain ⟨inside, -, -, -, -, -, hinner, -⟩ := readMembers_eq_some.mp h
    cases hnil.symm.trans hinner

theorem skipSpace_append_of_ne (hne : skipSpace text ≠ []) (more : Utf16) :
    skipSpace (text ++ more) = skipSpace text ++ more := by
  obtain ⟨u, inside, heq⟩ := List.exists_cons_of_ne_nil hne
  rw [skipSpace_append heq, heq]
  rfl

theorem head?_append_of_ne {text : Utf16} (hne : text ≠ []) (more : Utf16) :
    (text ++ more).head? = text.head? := by
  obtain ⟨u, inside, rfl⟩ := List.exists_cons_of_ne_nil hne
  rfl

/-- The three readers at one fuel. -/
structure Reading (fuel : Nat) : Prop where
  value : Extends (readValue fuel)
  items : Closes (readItems fuel)
  members : Closes (readMembers fuel)

/-- A value is read whatever follows, unless it is a number at the end of the text. -/
theorem ValueRead.append (hr : Reading fuel) (h : ValueRead fuel text j rest)
    (hopen : (∀ u inside, skipSpace text = u :: inside → ¬ (isDigit u = true ∨ u = 0x2D)) ∨
      rest ≠ [])
    (more : Utf16) : ValueRead fuel (text ++ more) j (rest ++ more) := by
  cases h with
  | null h => exact .null (skipSpace_append h more)
  | trueWord h => exact .trueWord (skipSpace_append h more)
  | falseWord h => exact .falseWord (skipSpace_append h more)
  | string h hs => exact .string (skipSpace_append h more) (closes_readString hs more)
  | emptyArray h hs => exact .emptyArray (skipSpace_append h more) (skipSpace_append hs more)
  | emptyObject h hs => exact .emptyObject (skipSpace_append h more) (skipSpace_append hs more)
  | array h hne hs =>
    have hinner := readItems_head hs
    rw [skipSpace_idem] at hinner
    refine .array (skipSpace_append h more) ?_ ?_
    · rwa [skipSpace_append_of_ne hinner, head?_append_of_ne hinner]
    · rw [skipSpace_append_of_ne hinner]
      exact hr.items hs more
  | object h hne hs =>
    have hinner := readMembers_head hs
    rw [skipSpace_idem] at hinner
    refine .object (skipSpace_append h more) ?_ ?_
    · rwa [skipSpace_append_of_ne hinner, head?_append_of_ne hinner]
    · rw [skipSpace_append_of_ne hinner]
      exact hr.members hs more
  | number h hu hs =>
    rcases hopen with hopen | hopen
    · exact absurd hu (hopen _ _ h)
    · exact .number (skipSpace_append h more) hu (extends_readNumber hs hopen more)

theorem reading (fuel : Nat) : Reading fuel := by
  induction fuel with
  | zero => exact ⟨nofun, nofun, nofun⟩
  | succ fuel ih =>
    refine ⟨?_, ?_, ?_⟩
    · intro text j rest h hne more
      exact readValue_eq_some.mpr ((readValue_eq_some.mp h).append ih (.inr hne) more)
    · intro text items rest h more
      obtain ⟨item, behind, hitem, hend⟩ := readItems_eq_some.mp h
      have hbehind : behind ≠ [] := by
        rintro rfl
        rcases hend with ⟨heq, -⟩ | ⟨_, _, heq, -⟩ <;> cases heq
      refine readItems_eq_some.mpr ⟨item, behind ++ more, ih.value hitem hbehind more, ?_⟩
      rcases hend with ⟨heq, rfl⟩ | ⟨behind', items', heq, hitems, rfl⟩
      · exact .inl ⟨skipSpace_append heq more, rfl⟩
      · exact .inr ⟨_, items', skipSpace_append heq more, ih.items hitems more, rfl⟩
    · intro text members rest h more
      obtain ⟨inside, key, behind, inside', value, behind', hinner, hkey, hcolon, hvalue, hend⟩ :=
        readMembers_eq_some.mp h
      have hbehind : behind' ≠ [] := by
        rintro rfl
        rcases hend with ⟨heq, -⟩ | ⟨_, _, heq, -⟩ <;> cases heq
      refine readMembers_eq_some.mpr ⟨_, key, _, _, value, _, skipSpace_append hinner more,
        closes_readString hkey more, skipSpace_append hcolon more, ih.value hvalue hbehind more, ?_⟩
      rcases hend with ⟨heq, rfl⟩ | ⟨more', members', heq, hmembers, rfl⟩
      · exact .inl ⟨skipSpace_append heq more, rfl⟩
      · exact .inr ⟨_, members', skipSpace_append heq more, ih.members hmembers more, rfl⟩

/-! ## More fuel -/

/-- What the three readers read with `fuel` they read with more. -/
structure Steady (fuel : Nat) : Prop where
  value : readValue fuel text = some x → readValue (fuel + 1) text = some x
  items : readItems fuel text = some y → readItems (fuel + 1) text = some y
  members : readMembers fuel text = some z → readMembers (fuel + 1) text = some z

theorem steady (fuel : Nat) : Steady fuel := by
  induction fuel with
  | zero => exact ⟨nofun, nofun, nofun⟩
  | succ fuel ih =>
    refine ⟨?_, ?_, ?_⟩
    · rintro text ⟨j, rest⟩ h
      refine readValue_eq_some.mpr ?_
      cases readValue_eq_some.mp h with
      | null ht => exact .null ht
      | trueWord ht => exact .trueWord ht
      | falseWord ht => exact .falseWord ht
      | string ht hs => exact .string ht hs
      | emptyArray ht hs => exact .emptyArray ht hs
      | emptyObject ht hs => exact .emptyObject ht hs
      | array ht hne hs => exact .array ht hne (ih.items hs)
      | object ht hne hs => exact .object ht hne (ih.members hs)
      | number ht hu hs => exact .number ht hu hs
    · rintro text ⟨items, rest⟩ h
      obtain ⟨item, behind, hitem, hend⟩ := readItems_eq_some.mp h
      refine readItems_eq_some.mpr ⟨item, behind, ih.value hitem, hend.imp_right ?_⟩
      rintro ⟨behind', items', heq, hitems, rfl⟩
      exact ⟨behind', items', heq, ih.items hitems, rfl⟩
    · rintro text ⟨members, rest⟩ h
      obtain ⟨inside, key, behind, inside', value, behind', hinner, hkey, hcolon, hvalue, hend⟩ :=
        readMembers_eq_some.mp h
      refine readMembers_eq_some.mpr ⟨inside, key, behind, inside', value, behind', hinner, hkey,
        hcolon, ih.value hvalue, hend.imp_right ?_⟩
      rintro ⟨more, members', heq, hmembers, rfl⟩
      exact ⟨more, members', heq, ih.members hmembers, rfl⟩

theorem readValue_of_le (h : readValue fuel text = some x) (hle : fuel ≤ fuel') :
    readValue fuel' text = some x := by
  induction hle with
  | refl => exact h
  | step _ ih => exact (steady _).value ih

/-! ## The text of an object -/

theorem stringify_object (members : List (Utf16 × Json)) :
    ∃ inside, stringify (.object members) = 0x7B :: inside := by
  obtain _ | ⟨⟨key, value⟩, members⟩ := members <;> exact ⟨_, rfl⟩

/-- The text of an object is no text without its end. -/
theorem parse_of_append (h : Plain (.object members))
    (heq : part ++ more = stringify (.object members)) (hmore : more ≠ []) : parse part = none := by
  unfold parse
  cases hread : readValue (part.length + 1) part with
  | none => rfl
  | some x =>
    obtain ⟨v, rest⟩ := x
    obtain ⟨inside, hinner⟩ := stringify_object members
    have hhead : ∀ u inside, skipSpace part = u :: inside → ¬ (isDigit u = true ∨ u = 0x2D) := by
      intro u behind hu
      cases part with
      | nil => cases hu
      | cons w part =>
        obtain ⟨rfl, -⟩ := List.cons.inj (heq.trans hinner)
        rw [skipSpace_of_head (by decide)] at hu
        obtain ⟨rfl, -⟩ := List.cons.inj hu
        decide
    have happend := (readValue_eq_some.mp hread).append (reading _) (.inl hhead) more
    have hle : part.length + 1 ≤ (part ++ more).length + 1 := by
      rw [List.length_append]
      omega
    have hlong := readValue_of_le (readValue_eq_some.mpr happend) hle
    have hwhole := reads_of_plain h ((part ++ more).length + 1) [] (by rw [heq]; omega) .nil
    rw [List.append_nil, ← heq, hlong] at hwhole
    have hnil : rest ++ more = [] := (Prod.mk.inj (Option.some.inj hwhole)).2
    exact absurd (List.append_eq_nil_iff.mp hnil).2 hmore

/-! ## What is left of a text -/

theorem suffix_of_skipSpace (h : skipSpace text = u :: rest) : rest <:+ text :=
  (List.suffix_cons u rest).trans (h ▸ skipSpace_suffix text)

theorem suffix_readDigits (h : readDigits text = some (ds, rest)) : rest <:+ text := by
  unfold readDigits at h
  split at h
  · cases h
  · cases h
    exact List.dropWhile_suffix _

theorem suffix_readFraction (h : readFraction text = some (q, rest)) : rest <:+ text := by
  unfold readFraction at h
  split at h
  · obtain ⟨x, hx, heq⟩ := Option.map_eq_some_iff.mp h
    cases heq
    exact (suffix_readDigits hx).trans (List.suffix_cons _ _)
  · cases h
    exact List.suffix_rfl

theorem suffix_readExponent (h : readExponent text = some (q, rest)) : rest <:+ text := by
  have hcons {u : UInt16} {text : Utf16} (h : rest <:+ text) : rest <:+ u :: text :=
    h.trans (List.suffix_cons u text)
  unfold readExponent at h
  split at h
  · split at h
    · split at h
      · obtain ⟨x, hx, heq⟩ := Option.map_eq_some_iff.mp h
        cases heq
        exact hcons (hcons (suffix_readDigits hx))
      · obtain ⟨x, hx, heq⟩ := Option.map_eq_some_iff.mp h
        cases heq
        exact hcons (hcons (suffix_readDigits hx))
      · obtain ⟨x, hx, heq⟩ := Option.map_eq_some_iff.mp h
        cases heq
        exact hcons (suffix_readDigits hx)
    · cases h
      exact List.suffix_rfl
  · cases h
    exact List.suffix_rfl

theorem suffix_readMagnitude (h : readMagnitude text = some (q, rest)) : rest <:+ text := by
  unfold readMagnitude at h
  obtain ⟨⟨ds, text₁⟩, hds, h⟩ := Option.bind_eq_some_iff.mp h
  simp only at h
  split at h
  · obtain ⟨⟨fraction, text₂⟩, hfraction, h⟩ := Option.bind_eq_some_iff.mp h
    obtain ⟨⟨power, text₃⟩, hpower, h⟩ := Option.bind_eq_some_iff.mp h
    cases h
    exact (suffix_readExponent hpower).trans
      ((suffix_readFraction hfraction).trans (suffix_readDigits hds))
  · cases h

theorem suffix_readNumber (h : readNumber text = some (j, rest)) : rest <:+ text := by
  unfold readNumber at h
  split at h
  · obtain ⟨x, hx, heq⟩ := Option.map_eq_some_iff.mp h
    cases heq
    exact (suffix_readMagnitude hx).trans (List.suffix_cons _ _)
  · obtain ⟨x, hx, heq⟩ := Option.map_eq_some_iff.mp h
    cases heq
    exact suffix_readMagnitude hx

/-- The three readers leave an end of the text; those of arrays and objects, what is behind their
bracket. -/
structure Leaving (fuel : Nat) : Prop where
  value {text : Utf16} {j : Json} {rest : Utf16} : readValue fuel text = some (j, rest) →
    rest <:+ text
  items {text : Utf16} {items : List Json} {rest : Utf16} :
    readItems fuel text = some (items, rest) → 0x5D :: rest <:+ text
  members {text : Utf16} {members : List (Utf16 × Json)} {rest : Utf16} :
    readMembers fuel text = some (members, rest) → 0x7D :: rest <:+ text

theorem leaving (fuel : Nat) : Leaving fuel := by
  induction fuel with
  | zero => exact ⟨nofun, nofun, nofun⟩
  | succ fuel ih =>
    refine ⟨?_, ?_, ?_⟩
    · intro text j rest h
      cases readValue_eq_some.mp h with
      | null ht =>
        exact (List.suffix_append [0x75, 0x6C, 0x6C] rest).trans (suffix_of_skipSpace ht)
      | trueWord ht =>
        exact (List.suffix_append [0x72, 0x75, 0x65] rest).trans (suffix_of_skipSpace ht)
      | falseWord ht =>
        exact (List.suffix_append [0x61, 0x6C, 0x73, 0x65] rest).trans (suffix_of_skipSpace ht)
      | string ht hs => exact (suffix_readString hs).trans (suffix_of_skipSpace ht)
      | emptyArray ht hs | emptyObject ht hs =>
        exact (suffix_of_skipSpace hs).trans (suffix_of_skipSpace ht)
      | array ht hne hs =>
        have hitems := (List.suffix_cons _ rest).trans (ih.items hs)
        exact hitems.trans ((skipSpace_suffix _).trans (suffix_of_skipSpace ht))
      | object ht hne hs =>
        have hmembers := (List.suffix_cons _ rest).trans (ih.members hs)
        exact hmembers.trans ((skipSpace_suffix _).trans (suffix_of_skipSpace ht))
      | number ht hu hs =>
        have hnumber := suffix_readNumber hs
        rw [← ht] at hnumber
        exact hnumber.trans (skipSpace_suffix text)
    · intro text items rest h
      obtain ⟨item, behind, hitem, hend⟩ := readItems_eq_some.mp h
      have hbehind := ih.value hitem
      rcases hend with ⟨heq, -⟩ | ⟨behind', items', heq, hitems, -⟩
      · exact (heq ▸ skipSpace_suffix behind).trans hbehind
      · exact (ih.items hitems).trans ((suffix_of_skipSpace heq).trans hbehind)
    · intro text members rest h
      obtain ⟨inside, key, behind, inside', value, behind', hinner, hkey, hcolon, hvalue, hend⟩ :=
        readMembers_eq_some.mp h
      have hbehind : behind' <:+ text := (ih.value hvalue).trans <|
        (suffix_of_skipSpace hcolon).trans <|
          (suffix_readString hkey).trans (suffix_of_skipSpace hinner)
      rcases hend with ⟨heq, -⟩ | ⟨more, members', heq, hmembers, -⟩
      · exact (heq ▸ skipSpace_suffix behind').trans hbehind
      · exact (ih.members hmembers).trans ((suffix_of_skipSpace heq).trans hbehind)

/-- The text of an object ends with its brace, or with a space. -/
theorem last_of_parse (h : parse (0x7B :: text) = some j) (hu : (0x7B :: text).getLast? = some u) :
    u = 0x7D ∨ isSpace u = true := by
  unfold parse at h
  split at h
  · next value rest hread =>
    split at h
    · next hrest =>
      have hskip : skipSpace (0x7B :: text) = 0x7B :: text := skipSpace_of_head (by decide)
      have hsuffix : 0x7D :: rest <:+ 0x7B :: text := by
        cases readValue_eq_some.mp hread with
        | emptyObject ht hs => exact (hs ▸ skipSpace_suffix _).trans (suffix_of_skipSpace ht)
        | object ht hne hs =>
          exact ((leaving _).members hs).trans ((skipSpace_suffix _).trans (suffix_of_skipSpace ht))
        | null ht | trueWord ht | falseWord ht | string ht | emptyArray ht | array ht =>
          cases hskip.symm.trans ht
        | number ht hu =>
          obtain ⟨rfl, -⟩ := List.cons.inj (hskip.symm.trans ht)
          exact absurd hu (by decide)
      obtain ⟨before, hbefore⟩ := hsuffix
      rw [← hbefore, List.getLast?_append_cons] at hu
      rcases List.mem_cons.mp (List.mem_of_getLast? hu) with rfl | hu
      · exact .inl rfl
      · exact .inr (List.dropWhile_eq_nil_iff.mp hrest u hu)
    · cases h
  · cases h

end WarrenSdk.Lib.Json
