import WarrenSdk.Lib.Utf16

/-!
# String literals of JavaScript

What `JSON.stringify` makes of strings and of arrays of strings, and how a script that holds the
text reads it back.
-/

namespace WarrenSdk.Lib.JsString

/-! ## Hexadecimal digits -/

def hexDigit (n : Nat) : UInt16 := .ofNat (if n < 10 then 0x30 + n else 0x57 + n)

def hexValue (u : UInt16) : Option Nat :=
  let n := u.toNat
  if 0x30 ≤ n ∧ n < 0x3A then some (n - 0x30)
  else if 0x41 ≤ n ∧ n < 0x47 then some (n - 0x37)
  else if 0x61 ≤ n ∧ n < 0x67 then some (n - 0x57)
  else none

theorem hexValue_hexDigit : ∀ n < 16, hexValue (hexDigit n) = some n := by
  decide

/-- The escape of a unit by its number. -/
def unicodeEscape (u : UInt16) : Utf16 :=
  let n := u.toNat
  [0x5C, 0x75, hexDigit (n / 0x1000), hexDigit (n / 0x100 % 0x10), hexDigit (n / 0x10 % 0x10),
    hexDigit (n % 0x10)]

/-- The unit of four hexadecimal digits. -/
def unitOf (a b c d : UInt16) : Option UInt16 := do
  let a ← hexValue a
  let b ← hexValue b
  let c ← hexValue c
  let d ← hexValue d
  return .ofNat (a * 0x1000 + b * 0x100 + c * 0x10 + d)

/-! ## Writing -/

/-- The units with an escape of one letter, and their letters. -/
def letterEscapes : List (UInt16 × UInt16) :=
  [(0x08, 0x62), (0x09, 0x74), (0x0A, 0x6E), (0x0C, 0x66), (0x0D, 0x72), (0x22, 0x22), (0x5C, 0x5C)]

/-- A unit that is not half of a pair. -/
def escapeUnit (u : UInt16) : Utf16 :=
  match letterEscapes.find? (·.1 = u) with
  | some (_, letter) => [0x5C, letter]
  | none => if u < 0x20 || Utf16.isHigh u || Utf16.isLow u then unicodeEscape u else [u]

def escape : Utf16 → Utf16
  | [] => []
  | [u] => escapeUnit u
  | u :: v :: rest =>
    if Utf16.isHigh u && Utf16.isLow v then u :: v :: escape rest
    else escapeUnit u ++ escape (v :: rest)

def quote (s : Utf16) : Utf16 := 0x22 :: (escape s ++ [0x22])

def stringifyItems : List Utf16 → Utf16
  | [] => []
  | [s] => quote s
  | s :: rest => quote s ++ 0x2C :: stringifyItems rest

/-- `JSON.stringify` of an array of strings. -/
def stringify (items : List Utf16) : Utf16 := 0x5B :: (stringifyItems items ++ [0x5D])

/-! ## Reading -/

/-- A string literal from after its opening quote: the string and the text that follows. Only the
escapes that `stringify` writes are read. -/
def readString : Utf16 → Option (Utf16 × Utf16)
  | [] => none
  | u :: rest =>
    if u = 0x22 then some ([], rest)
    else if u = 0x5C then
      match rest with
      | 0x75 :: a :: b :: c :: d :: rest => do
        let u ← unitOf a b c d
        let (s, rest) ← readString rest
        return (u :: s, rest)
      | letter :: rest => do
        let (u, _) ← letterEscapes.find? (·.2 = letter)
        let (s, rest) ← readString rest
        return (u :: s, rest)
      | [] => none
    else if u = 0x0A || u = 0x0D then none
    else do
      let (s, rest) ← readString rest
      return (u :: s, rest)

/-- The items of an array literal of strings, at most `fuel` of them, and the text after its
closing bracket. -/
def readItems : Nat → Utf16 → Option (List Utf16 × Utf16)
  | 0, _ => none
  | fuel + 1, text =>
    match text with
    | 0x22 :: text => do
      let (s, text) ← readString text
      match text with
      | 0x2C :: text => do
        let (items, text) ← readItems fuel text
        return (s :: items, text)
      | 0x5D :: text => return ([s], text)
      | _ => none
    | _ => none

/-- An array literal of strings, from its opening bracket. -/
def readArray : Utf16 → Option (List Utf16 × Utf16)
  | 0x5B :: 0x5D :: text => some ([], text)
  | 0x5B :: text => readItems text.length text
  | _ => none

/-! ## Reading back what was written -/

theorem unitOf_hexDigits (u : UInt16) :
    unitOf (hexDigit (u.toNat / 0x1000)) (hexDigit (u.toNat / 0x100 % 0x10))
      (hexDigit (u.toNat / 0x10 % 0x10)) (hexDigit (u.toNat % 0x10)) = some u := by
  have hu := u.toNat_lt
  have hsum : u.toNat / 0x1000 * 0x1000 + u.toNat / 0x100 % 0x10 * 0x100 +
      u.toNat / 0x10 % 0x10 * 0x10 + u.toNat % 0x10 = u.toNat := by omega
  rw [unitOf, hexValue_hexDigit _ (by omega), hexValue_hexDigit _ (by omega),
    hexValue_hexDigit _ (by omega), hexValue_hexDigit _ (by omega)]
  exact congrArg some ((congrArg UInt16.ofNat hsum).trans UInt16.ofNat_toNat)

theorem find?_letter_of_find? (h : letterEscapes.find? (·.1 = u) = some (v, letter)) :
    v = u ∧ letter ≠ 0x75 ∧ letterEscapes.find? (·.2 = letter) = some (u, letter) := by
  have hv : v = u := by simpa using List.find?_some h
  subst hv
  have hmem := List.mem_of_find?_eq_some h
  have hall : letterEscapes.all (fun e =>
      e.2 ≠ 0x75 ∧ letterEscapes.find? (·.2 = e.2) = some e) = true := by decide
  have hletter := List.all_eq_true.mp hall _ hmem
  exact ⟨rfl, of_decide_eq_true hletter⟩

theorem readString_letter (hletter : letter ≠ 0x75)
    (hback : letterEscapes.find? (·.2 = letter) = some (u, letter))
    (h : readString text = some (s, rest)) :
    readString (0x5C :: letter :: text) = some (u :: s, rest) := by
  rw [readString]
  · simp [hback, h]
  · intro _ _ _ _ _ heq
    exact absurd heq hletter

theorem readString_unicodeEscape {u : UInt16} (h : readString text = some (s, rest)) :
    readString (unicodeEscape u ++ text) = some (u :: s, rest) := by
  have hu := unitOf_hexDigits u
  rw [unicodeEscape]
  simp only [List.cons_append, List.nil_append]
  rw [readString]
  simp [hu, h]

theorem readString_raw (hu : letterEscapes.find? (·.1 = u) = none)
    (h : readString text = some (s, rest)) : readString (u :: text) = some (u :: s, rest) := by
  have hne : u ≠ 0x22 ∧ u ≠ 0x5C ∧ u ≠ 0x0A ∧ u ≠ 0x0D := by
    simp [letterEscapes, List.find?_eq_none] at hu
    grind
  obtain ⟨h₁, h₂, h₃, h₄⟩ := hne
  rw [readString.eq_def]
  simp [h₁, h₂, h₃, h₄, h]

/-- A unit read back after its escape. -/
theorem readString_escapeUnit {u : UInt16} (h : readString text = some (s, rest)) :
    readString (escapeUnit u ++ text) = some (u :: s, rest) := by
  unfold escapeUnit
  split
  next v letter hfind =>
    obtain ⟨rfl, hletter, hback⟩ := find?_letter_of_find? hfind
    exact readString_letter hletter hback h
  next hfind =>
    split
    · exact readString_unicodeEscape h
    · exact readString_raw hfind h

theorem find?_letter_of_le {u : UInt16} (hu : 0x80 ≤ u.toNat) :
    letterEscapes.find? (·.1 = u) = none := by
  rw [List.find?_eq_none]
  intro e he
  have hall : letterEscapes.all (·.1.toNat < 0x80) = true := by decide
  have hlt := of_decide_eq_true (List.all_eq_true.mp hall e he)
  rw [decide_eq_true_eq]
  rintro rfl
  omega

theorem readString_escape (s text : Utf16) :
    readString (escape s ++ 0x22 :: text) = some (s, text) := by
  have hend : readString (0x22 :: text) = some ([], text) := by
    rw [readString.eq_def]
    rfl
  induction s using escape.induct with
  | case1 => exact hend
  | case2 u => exact readString_escapeUnit hend
  | case3 u v rest hpair ih =>
    -- Both halves of a pair stand as they are.
    simp only [Utf16.isHigh, Utf16.isLow, Bool.and_eq_true, decide_eq_true_eq] at hpair
    have hv := readString_raw (find?_letter_of_le (u := v) (by omega)) ih
    have hu := readString_raw (find?_letter_of_le (u := u) (by omega)) hv
    simpa [escape, Utf16.isHigh, Utf16.isLow, hpair] using hu
  | case4 u v rest hpair ih =>
    rw [escape, if_neg hpair, List.append_assoc]
    exact readString_escapeUnit ih

/-! ## What is written -/

theorem hexDigit_ascii : ∀ n < 16, (hexDigit n).toNat < 0x80 := by
  decide

theorem unicodeEscape_wellFormed (u : UInt16) : Utf16.WellFormed (unicodeEscape u) := by
  have hu := u.toNat_lt
  have hdigit {n : Nat} (h : n < 16) := hexDigit_ascii n h
  refine .cons (by decide) (.cons (by decide) ?_)
  refine .cons (hdigit (by omega)) (.cons (hdigit (by omega)) ?_)
  exact .cons (hdigit (by omega)) (.cons (hdigit (by omega)) rfl)

theorem escapeUnit_wellFormed (u : UInt16) : Utf16.WellFormed (escapeUnit u) := by
  unfold escapeUnit
  split
  · next v letter hfind =>
    have hall : letterEscapes.all (·.2.toNat < 0x80) = true := by decide
    have hletter := List.all_eq_true.mp hall _ (List.mem_of_find?_eq_some hfind)
    exact .cons (by decide) (.cons (of_decide_eq_true hletter) rfl)
  · split
    · exact unicodeEscape_wellFormed u
    · next hraw =>
      simp only [Bool.or_eq_true, not_or, Bool.not_eq_true] at hraw
      exact Utf16.wellFormed_singleton hraw.1.2 hraw.2

theorem escape_wellFormed (s : Utf16) : Utf16.WellFormed (escape s) := by
  induction s using escape.induct with
  | case1 => rfl
  | case2 u => exact escapeUnit_wellFormed u
  | case3 u v rest hpair ih =>
    obtain ⟨hhigh, hlow⟩ := Bool.and_eq_true_iff.mp hpair
    rw [escape, if_pos hpair]
    exact (Utf16.wellFormed_pair hhigh hlow).append ih
  | case4 u v rest hpair ih =>
    rw [escape, if_neg hpair]
    exact (escapeUnit_wellFormed u).append ih

/-- A literal holds no lone surrogate, whatever the string holds. -/
theorem quote_wellFormed (s : Utf16) : Utf16.WellFormed (quote s) := by
  have hclose : Utf16.WellFormed [0x22] := .cons (by decide) rfl
  exact .cons (by decide) ((escape_wellFormed s).append hclose)

/-! ## What escapes add -/

/-- The units of escapes, and those around strings and arrays of strings. -/
def marks : Utf16 := "\\bfnrtu0123456789acde\"[,]"

theorem mem_unicodeEscape {u : UInt16} (hv : v ∈ unicodeEscape u) : v ∈ marks := by
  have hdigit : ∀ n < 16, hexDigit n ∈ marks := by decide
  have hu := u.toNat_lt
  simp only [unicodeEscape, List.mem_cons, List.not_mem_nil, or_false] at hv
  rcases hv with rfl | rfl | rfl | rfl | rfl | rfl
  · decide
  · decide
  all_goals exact hdigit _ (by omega)

theorem mem_escapeUnit {u : UInt16} (hv : v ∈ escapeUnit u) : v = u ∨ v ∈ marks := by
  unfold escapeUnit at hv
  split at hv
  · next w letter hfind =>
    have hall : letterEscapes.all (·.2 ∈ marks) = true := by decide
    have hletter := List.all_eq_true.mp hall _ (List.mem_of_find?_eq_some hfind)
    rcases List.mem_cons.mp hv with rfl | hv
    · exact .inr (by decide)
    · rw [List.mem_singleton.mp hv]
      exact .inr (of_decide_eq_true hletter)
  · split at hv
    · exact .inr (mem_unicodeEscape hv)
    · exact .inl (List.mem_singleton.mp hv)

theorem mem_escape (hv : v ∈ escape s) : v ∈ s ∨ v ∈ marks := by
  induction s using escape.induct with
  | case1 => exact .inl hv
  | case2 u => exact (mem_escapeUnit hv).imp_left List.mem_singleton.mpr
  | case3 u w rest hpair ih =>
    rw [escape, if_pos hpair, List.mem_cons, List.mem_cons] at hv
    rcases hv with rfl | rfl | hv
    · exact .inl List.mem_cons_self
    · exact .inl (List.mem_cons_of_mem _ List.mem_cons_self)
    · exact (ih hv).imp_left fun h => List.mem_cons_of_mem _ (List.mem_cons_of_mem _ h)
  | case4 u w rest hpair ih =>
    rw [escape, if_neg hpair, List.mem_append] at hv
    rcases hv with hv | hv
    · rcases mem_escapeUnit hv with rfl | hv
      · exact .inl List.mem_cons_self
      · exact .inr hv
    · exact (ih hv).imp_left (List.mem_cons_of_mem _)

theorem mem_quote (hv : v ∈ quote s) : v ∈ s ∨ v ∈ marks := by
  have hmark : (0x22 : UInt16) ∈ marks := by decide
  rw [quote, List.mem_cons, List.mem_append, List.mem_singleton] at hv
  rcases hv with rfl | hv | rfl
  · exact .inr hmark
  · exact mem_escape hv
  · exact .inr hmark

theorem mem_stringifyItems {items : List Utf16} (hv : v ∈ stringifyItems items) :
    (∃ s ∈ items, v ∈ s) ∨ v ∈ marks := by
  induction items using stringifyItems.induct with
  | case1 => cases hv
  | case2 s => exact (mem_quote hv).imp_left fun h => ⟨s, List.mem_cons_self, h⟩
  | case3 s rest hne ih =>
    rw [stringifyItems, List.mem_append, List.mem_cons] at hv
    rcases hv with hv | rfl | hv
    · exact (mem_quote hv).imp_left fun h => ⟨s, List.mem_cons_self, h⟩
    · exact .inr (by decide)
    · exact (ih hv).imp_left fun ⟨t, ht, h⟩ => ⟨t, List.mem_cons_of_mem _ ht, h⟩
    · exact hne

/-- The text of an array of strings has no unit that is neither theirs nor a mark. -/
theorem mem_stringify {items : List Utf16} (hv : v ∈ stringify items) :
    (∃ s ∈ items, v ∈ s) ∨ v ∈ marks := by
  rw [stringify, List.mem_cons, List.mem_append, List.mem_singleton] at hv
  rcases hv with rfl | hv | rfl
  · exact .inr (by decide)
  · exact mem_stringifyItems hv
  · exact .inr (by decide)

/-! ## Arrays -/

theorem readItems_stringifyItems (items : List Utf16) (hne : items ≠ []) (text : Utf16)
    (hfuel : items.length ≤ fuel) :
    readItems fuel (stringifyItems items ++ 0x5D :: text) = some (items, text) := by
  induction fuel generalizing items with
  | zero =>
    cases items with
    | nil => exact absurd rfl hne
    | cons s rest => simp at hfuel
  | succ fuel ih =>
    match items, hne with
    | [s], _ =>
      have hread := readString_escape s (0x5D :: text)
      simp [stringifyItems, quote, readItems, hread]
    | s :: t :: rest, _ =>
      have hread := readString_escape s (0x2C :: (stringifyItems (t :: rest) ++ 0x5D :: text))
      have htail := ih (t :: rest) (by simp) (by simpa using hfuel)
      simp [stringifyItems, quote, readItems, hread, htail]

theorem length_le_stringifyItems (items : List Utf16) :
    items.length ≤ (stringifyItems items).length := by
  induction items using stringifyItems.induct with
  | case1 => exact Nat.zero_le _
  | case2 s => simp [stringifyItems, quote]
  | case3 s rest hne ih =>
    simp only [stringifyItems, List.length_cons, List.length_append]
    omega

/-- A script that holds the text of an array of strings holds the array. -/
theorem readArray_stringify (items : List Utf16) (text : Utf16) :
    readArray (stringify items ++ text) = some (items, text) := by
  cases items with
  | nil => rfl
  | cons s rest =>
    have hlen := length_le_stringifyItems (s :: rest)
    have hfuel : (s :: rest).length ≤ (stringifyItems (s :: rest) ++ 0x5D :: text).length := by
      rw [List.length_append]
      exact Nat.le_add_right_of_le hlen
    have hread := readItems_stringifyItems (s :: rest) (List.cons_ne_nil s rest) text hfuel
    have hquote : ∃ tail, stringifyItems (s :: rest) ++ 0x5D :: text = 0x22 :: tail := by
      cases rest <;> exact ⟨_, rfl⟩
    obtain ⟨tail, htail⟩ := hquote
    rw [htail] at hread
    simp only [stringify, List.cons_append, List.append_assoc, List.nil_append, htail]
    exact hread

end WarrenSdk.Lib.JsString
