import Mathlib.Data.Rat.Defs
import Mathlib.Data.Rat.Lemmas
import WarrenSdk.Lib.JsString
import WarrenSdk.Lib.Utf16

/-!
# JSON values and their text

The values that JSON text denotes: what is parsed, and what is serialized. An object is the list of
its members. `JSON.stringify` and `JSON.parse`: a number is the rational that its text denotes; only
whole numbers are written here. What is written is read back, so the texts of two values differ when
the values do (`parse_stringify`, `stringify_inj`).
-/

namespace WarrenSdk.Lib

inductive Json
  | null
  | bool (value : Bool)
  | number (value : Rat)
  | string (value : Utf16)
  | array (items : List Json)
  | object (members : List (Utf16 × Json))

namespace Json

instance : Coe Nat Json := ⟨fun n => .number n⟩
instance : Coe Utf16 Json := ⟨.string⟩

/-- The member of a list of members under a key. -/
def member (members : List (Utf16 × Json)) (key : Utf16) : Option Json :=
  (members.find? (·.1 = key)).map (·.2)

/-- A number that is a natural number. -/
def nat? : Json → Option Nat
  | .number q => if q.den = 1 ∧ 0 ≤ q.num then some q.num.toNat else none
  | _ => none

@[simp] theorem nat?_natCast (n : Nat) : nat? (.number n) = some n := by
  simp [nat?]

end Json

end WarrenSdk.Lib

namespace WarrenSdk.Lib.Json

/-! ## Writing -/

def natText (n : Nat) : Utf16 := (Nat.toDigits 10 n).map fun c => .ofNat c.toNat

/-- A whole number in decimal. What is no whole number is not written: it stands as a fraction. -/
def numberText (q : Rat) : Utf16 :=
  (if q.num < 0 then [0x2D] else []) ++ natText q.num.natAbs ++
    (if q.den = 1 then [] else 0x2F :: natText q.den)

mutual

/-- `JSON.stringify` -/
def stringify : Json → Utf16
  | .null => [0x6E, 0x75, 0x6C, 0x6C]
  | .bool true => [0x74, 0x72, 0x75, 0x65]
  | .bool false => [0x66, 0x61, 0x6C, 0x73, 0x65]
  | .number q => numberText q
  | .string s => JsString.quote s
  | .array [] => [0x5B, 0x5D]
  | .array (item :: items) => 0x5B :: (stringify item ++ moreItems items)
  | .object [] => [0x7B, 0x7D]
  | .object ((key, value) :: members) =>
    0x7B :: (JsString.quote key ++ 0x3A :: (stringify value ++ moreMembers members))

/-- The items of an array after its first, and its closing bracket. -/
def moreItems : List Json → Utf16
  | [] => [0x5D]
  | item :: items => 0x2C :: (stringify item ++ moreItems items)

/-- The members of an object after its first, and its closing brace. -/
def moreMembers : List (Utf16 × Json) → Utf16
  | [] => [0x7D]
  | (key, value) :: members =>
    0x2C :: (JsString.quote key ++ 0x3A :: (stringify value ++ moreMembers members))

end

/-! ## Reading -/

def isSpace (u : UInt16) : Bool := u = 0x20 || u = 0x09 || u = 0x0A || u = 0x0D

def skipSpace (text : Utf16) : Utf16 := text.dropWhile isSpace

def isDigit (u : UInt16) : Bool := 0x30 ≤ u && u ≤ 0x39

def ofDigits (ds : Utf16) : Nat := ds.foldl (fun n u => 10 * n + (u.toNat - 0x30)) 0

/-- One digit at least. -/
def readDigits (text : Utf16) : Option (Utf16 × Utf16) :=
  match text.takeWhile isDigit with
  | [] => none
  | ds => some (ds, text.dropWhile isDigit)

def readFraction (text : Utf16) : Option (Rat × Utf16) :=
  match text with
  | 0x2E :: text => (readDigits text).map fun x => ((ofDigits x.1 : Rat) / 10 ^ x.1.length, x.2)
  | text => some (0, text)

def readExponent (text : Utf16) : Option (Rat × Utf16) :=
  match text with
  | u :: text' =>
    if u = 0x65 ∨ u = 0x45 then
      match text' with
      | 0x2D :: text => (readDigits text).map fun x => (1 / 10 ^ ofDigits x.1, x.2)
      | 0x2B :: text => (readDigits text).map fun x => (10 ^ ofDigits x.1, x.2)
      | text => (readDigits text).map fun x => (10 ^ ofDigits x.1, x.2)
    else some (1, u :: text')
  | [] => some (1, [])

/-- A number without its sign. -/
def readMagnitude (text : Utf16) : Option (Rat × Utf16) := do
  let (ds, text) ← readDigits text
  if ds.length = 1 ∨ ds.head? ≠ some 0x30 then
    let (fraction, text) ← readFraction text
    let (power, text) ← readExponent text
    return (((ofDigits ds : Rat) + fraction) * power, text)
  else none

def readNumber (text : Utf16) : Option (Json × Utf16) :=
  match text with
  | 0x2D :: text => (readMagnitude text).map fun x => (.number (-x.1), x.2)
  | text => (readMagnitude text).map fun x => (.number x.1, x.2)

/-- The units with an escape of one letter, and their letters. -/
def letterEscapes : List (UInt16 × UInt16) := JsString.letterEscapes ++ [(0x2F, 0x2F)]

/-- A string from after its opening quote. -/
def readString : Utf16 → Option (Utf16 × Utf16)
  | [] => none
  | u :: rest =>
    if u = 0x22 then some ([], rest)
    else if u = 0x5C then
      match rest with
      | 0x75 :: a :: b :: c :: d :: rest => do
        let u ← JsString.unitOf a b c d
        let (s, rest) ← readString rest
        return (u :: s, rest)
      | letter :: rest => do
        let (u, _) ← letterEscapes.find? (·.2 = letter)
        let (s, rest) ← readString rest
        return (u :: s, rest)
      | [] => none
    else if u < 0x20 then none
    else do
      let (s, rest) ← readString rest
      return (u :: s, rest)

/-- A member of an object that is read later than another under its key takes that one's place. -/
def setMember (members : List (Utf16 × Json)) (key : Utf16) (value : Json) :
    List (Utf16 × Json) :=
  if members.any (·.1 = key) then members.map fun m => if m.1 = key then (key, value) else m
  else members ++ [(key, value)]

def ofMembers (members : List (Utf16 × Json)) : Json :=
  .object (members.foldl (fun ms m => setMember ms m.1 m.2) [])

mutual

/-- A value, which nests less deep than `fuel`, and the text behind it. -/
def readValue : Nat → Utf16 → Option (Json × Utf16)
  | 0, _ => none
  | fuel + 1, text =>
    match skipSpace text with
    | 0x6E :: 0x75 :: 0x6C :: 0x6C :: rest => some (.null, rest)
    | 0x74 :: 0x72 :: 0x75 :: 0x65 :: rest => some (.bool true, rest)
    | 0x66 :: 0x61 :: 0x6C :: 0x73 :: 0x65 :: rest => some (.bool false, rest)
    | 0x22 :: rest => (readString rest).map fun x => (.string x.1, x.2)
    | 0x5B :: rest =>
      match skipSpace rest with
      | 0x5D :: rest => some (.array [], rest)
      | rest => (readItems fuel rest).map fun x => (.array x.1, x.2)
    | 0x7B :: rest =>
      match skipSpace rest with
      | 0x7D :: rest => some (.object [], rest)
      | rest => (readMembers fuel rest).map fun x => (ofMembers x.1, x.2)
    | rest => readNumber rest

/-- The items of an array, one at least, and its closing bracket. -/
def readItems : Nat → Utf16 → Option (List Json × Utf16)
  | 0, _ => none
  | fuel + 1, text =>
    match readValue fuel text with
    | none => none
    | some (item, rest) =>
      match skipSpace rest with
      | 0x5D :: rest => some ([item], rest)
      | 0x2C :: rest => (readItems fuel rest).map fun x => (item :: x.1, x.2)
      | _ => none

/-- The members of an object, one at least, and its closing brace. -/
def readMembers : Nat → Utf16 → Option (List (Utf16 × Json) × Utf16)
  | 0, _ => none
  | fuel + 1, text =>
    match skipSpace text with
    | 0x22 :: rest =>
      match readString rest with
      | none => none
      | some (key, rest) =>
        match skipSpace rest with
        | 0x3A :: rest =>
          match readValue fuel rest with
          | none => none
          | some (value, rest) =>
            match skipSpace rest with
            | 0x7D :: rest => some ([(key, value)], rest)
            | 0x2C :: rest => (readMembers fuel rest).map fun x => ((key, value) :: x.1, x.2)
            | _ => none
        | _ => none
    | _ => none

end

/-- `JSON.parse`, `none` where it throws. -/
def parse (text : Utf16) : Option Json :=
  match readValue (text.length + 1) text with
  | some (value, rest) => if skipSpace rest = [] then some value else none
  | none => none

/-! ## Numbers -/

def digitUnit (d : Nat) : UInt16 := .ofNat (0x30 + d)

theorem digitUnit_spec : ∀ d < 10, UInt16.ofNat (Nat.digitChar d).toNat = digitUnit d ∧
    isDigit (digitUnit d) = true ∧ (digitUnit d).toNat - 0x30 = d ∧
    (digitUnit d = 0x30 → d = 0) := by
  decide

theorem natText_of_lt (h : d < 10) : natText d = [digitUnit d] := by
  unfold natText
  rw [Nat.toDigits_of_lt_base h, List.map_singleton, (digitUnit_spec d h).1]

theorem natText_append (hn : 0 < n) (hd : d < 10) :
    natText (10 * n + d) = natText n ++ [digitUnit d] := by
  rw [← natText_of_lt hd]
  unfold natText
  rw [← List.map_append, Nat.toDigits_append_toDigits (by decide) hn hd]

theorem ofDigits_append (ds : Utf16) (u : UInt16) :
    ofDigits (ds ++ [u]) = 10 * ofDigits ds + (u.toNat - 0x30) := by
  unfold ofDigits
  rw [List.foldl_append]
  rfl

/-- The decimal digits of a number: they denote it, and do not begin with a zero in vain. -/
structure Decimal (n : Nat) (ds : Utf16) : Prop where
  digits : ∀ u ∈ ds, isDigit u = true
  value : ofDigits ds = n
  nonempty : ds ≠ []
  leading : ds.length = 1 ∨ ds.head? ≠ some 0x30
  zero : ds.head? = some 0x30 → n = 0

theorem natText_decimal (n : Nat) : Decimal n (natText n) := by
  induction n using Nat.base_induction 10 (by decide) with
  | single d hd =>
    obtain ⟨-, hdigit, hvalue, hzero⟩ := digitUnit_spec d hd
    rw [natText_of_lt hd]
    refine ⟨?_, ?_, List.cons_ne_nil _ _, .inl rfl, fun h => hzero (Option.some.inj h)⟩
    · intro u hu
      rw [List.mem_singleton.mp hu]
      exact hdigit
    · simpa [ofDigits] using hvalue
  | digit n d hd hn ih =>
    obtain ⟨-, hdigit, hvalue, -⟩ := digitUnit_spec d hd
    rw [natText_append hn hd]
    have hhead : (natText n ++ [digitUnit d]).head? = (natText n).head? := by
      rw [List.head?_append]
      cases hds : natText n with
      | nil => exact absurd hds ih.nonempty
      | cons u ds => rfl
    have hne : (natText n ++ [digitUnit d]).head? ≠ some 0x30 := by
      rw [hhead]
      exact fun h => hn.ne' (ih.zero h)
    refine ⟨?_, ?_, by simp, .inr hne, fun h => absurd h hne⟩
    · intro u hu
      rcases List.mem_append.mp hu with hu | hu
      · exact ih.digits u hu
      · rw [List.mem_singleton.mp hu]
        exact hdigit
    · rw [ofDigits_append, ih.value, hvalue]

theorem natText_inj {m n : Nat} (h : natText m = natText n) : m = n := by
  rw [← (Json.natText_decimal m).value, h, (Json.natText_decimal n).value]

theorem digit_bounds {u : UInt16} (h : isDigit u = true) : 0x30 ≤ u.toNat ∧ u.toNat ≤ 0x39 := by
  simpa [isDigit, UInt16.le_iff_toNat_le] using h

theorem digitUnit_sub {u : UInt16} (h : isDigit u = true) :
    digitUnit (u.toNat - 0x30) = u := by
  rw [digitUnit, Nat.add_sub_cancel' (digit_bounds h).1, UInt16.ofNat_toNat]

/-- Digits that do not begin with a zero are those of the number they denote. -/
theorem natText_ofDigits {ds : Utf16} (hu : 0x31 ≤ u) (hdigit : isDigit u = true)
    (hds : ∀ v ∈ ds, isDigit v = true) :
    0 < ofDigits (u :: ds) ∧ natText (ofDigits (u :: ds)) = u :: ds := by
  induction ds using List.reverseRecOn with
  | nil =>
    have hbounds := digit_bounds hdigit
    have hone : 0x31 ≤ u.toNat := UInt16.le_iff_toNat_le.mp hu
    have hvalue : ofDigits [u] = u.toNat - 0x30 := Nat.zero_add _
    rw [hvalue, natText_of_lt (by omega), digitUnit_sub hdigit]
    exact ⟨by omega, rfl⟩
  | append_singleton ds v ih =>
    have hv := hds v (by simp)
    have hbounds := digit_bounds hv
    obtain ⟨hpos, htext⟩ := ih fun w hw => hds w (List.mem_append_left _ hw)
    rw [← List.cons_append, ofDigits_append, natText_append hpos (by omega), htext,
      digitUnit_sub hv]
    exact ⟨by omega, rfl⟩

/-- No number goes on in `rest`. -/
def Ends (rest : Utf16) : Prop :=
  ∀ u, rest.head? = some u → isDigit u = false ∧ u ≠ 0x2E ∧ u ≠ 0x65 ∧ u ≠ 0x45

theorem Ends.nil : Ends [] := fun u h => by cases h

theorem span_digits {ds rest : Utf16} (hd : ∀ u ∈ ds, isDigit u = true) (hr : Ends rest) :
    (ds ++ rest).takeWhile isDigit = ds ∧ (ds ++ rest).dropWhile isDigit = rest := by
  rw [List.takeWhile_append_of_pos hd, List.dropWhile_append_of_pos hd]
  cases rest with
  | nil => exact ⟨List.append_nil ds, rfl⟩
  | cons u rest =>
    have hu := (hr u rfl).1
    rw [List.takeWhile_cons_of_neg (by simp [hu]), List.dropWhile_cons_of_neg (by simp [hu])]
    exact ⟨List.append_nil ds, rfl⟩

theorem Decimal.readDigits {ds : Utf16} (h : Decimal n ds) (hr : Ends rest) :
    readDigits (ds ++ rest) = some (ds, rest) := by
  obtain ⟨htake, hdrop⟩ := span_digits h.digits hr
  unfold Json.readDigits
  rw [htake, hdrop]
  cases ds with
  | nil => exact absurd rfl h.nonempty
  | cons u ds => rfl

theorem readFraction_ends (hr : Ends rest) : readFraction rest = some (0, rest) := by
  unfold readFraction
  split
  · next text => exact absurd rfl (hr 0x2E rfl).2.1
  · rfl

theorem readExponent_ends (hr : Ends rest) : readExponent rest = some (1, rest) := by
  unfold readExponent
  split
  · next u text =>
    obtain ⟨-, -, hlower, hupper⟩ := hr u rfl
    rw [if_neg (not_or.mpr ⟨hlower, hupper⟩)]
  · rfl

theorem Decimal.readMagnitude {ds : Utf16} (h : Decimal n ds) (hr : Ends rest) :
    readMagnitude (ds ++ rest) = some ((n : Rat), rest) := by
  unfold Json.readMagnitude
  rw [h.readDigits hr, Option.bind_eq_bind, Option.bind_some]
  simp only
  rw [if_pos h.leading, readFraction_ends hr, Option.bind_eq_bind, Option.bind_some]
  simp only
  rw [readExponent_ends hr, Option.bind_some, h.value]
  simp

theorem natAbs_eq_toNat {z : Int} (h : 0 ≤ z) : ((z.natAbs : Nat) : Rat) = (z : Rat) := by
  have hz : ((z.natAbs : Nat) : Int) = z := Int.natAbs_of_nonneg h
  rw [← Int.cast_natCast, hz]

/-- A whole number is read back. -/
theorem readNumber_numberText (z : Int) (hr : Ends rest) :
    readNumber (numberText z ++ rest) = some (.number z, rest) := by
  have hd := natText_decimal z.natAbs
  have htext : numberText z ++ rest =
      (if z < 0 then [0x2D] else []) ++ (natText z.natAbs ++ rest) := by
    unfold numberText
    rw [if_pos (Rat.den_intCast z), Rat.num_intCast, List.append_nil, List.append_assoc]
  rw [htext]
  split
  · next hneg =>
    have hread := hd.readMagnitude hr
    have hz : -((z.natAbs : Nat) : Rat) = (z : Rat) := by
      have hint : ((z.natAbs : Nat) : Int) = -z := by omega
      rw [← Int.cast_natCast, hint, Int.cast_neg, neg_neg]
    unfold readNumber
    simp only [List.cons_append, List.nil_append]
    rw [hread, Option.map_some, hz]
  · next hpos =>
    have hread := hd.readMagnitude hr
    have hhead : ∀ rest', natText z.natAbs ++ rest ≠ 0x2D :: rest' := by
      intro rest' heq
      cases hds : natText z.natAbs with
      | nil => exact hd.nonempty hds
      | cons u ds =>
        have hu := hd.digits u (by rw [hds]; exact List.mem_cons_self ..)
        rw [hds] at heq
        rw [(List.cons.inj heq).1] at hu
        exact absurd hu (by decide)
    unfold readNumber
    rw [List.nil_append]
    split
    · next text heq => exact absurd heq (hhead text)
    · rw [hread, Option.map_some, natAbs_eq_toNat (by omega)]

/-! ## Strings -/

theorem readString_letter (hletter : letter ≠ 0x75)
    (hback : letterEscapes.find? (·.2 = letter) = some (u, letter))
    (h : readString text = some (s, rest)) :
    readString (0x5C :: letter :: text) = some (u :: s, rest) := by
  rw [readString]
  · simp [hback, h]
  · intro _ _ _ _ _ heq
    exact absurd heq hletter

theorem readString_unicodeEscape {u : UInt16} (h : readString text = some (s, rest)) :
    readString (JsString.unicodeEscape u ++ text) = some (u :: s, rest) := by
  have hu := JsString.unitOf_hexDigits u
  rw [JsString.unicodeEscape]
  simp only [List.cons_append, List.nil_append]
  rw [readString]
  simp [hu, h]

theorem readString_raw (hu : JsString.letterEscapes.find? (·.1 = u) = none) (hle : ¬ u < 0x20)
    (h : readString text = some (s, rest)) : readString (u :: text) = some (u :: s, rest) := by
  have hne : u ≠ 0x22 ∧ u ≠ 0x5C := by
    simp [JsString.letterEscapes, List.find?_eq_none] at hu
    grind
  obtain ⟨hquote, hescape⟩ := hne
  rw [readString.eq_def]
  simp [hquote, hescape, hle, h]

theorem readString_escapeUnit {u : UInt16} (h : readString text = some (s, rest)) :
    readString (JsString.escapeUnit u ++ text) = some (u :: s, rest) := by
  unfold JsString.escapeUnit
  split
  · next v letter hfind =>
    obtain ⟨rfl, hletter, hback⟩ := JsString.find?_letter_of_find? hfind
    refine readString_letter hletter ?_ h
    unfold letterEscapes
    rw [List.find?_append, hback]
    rfl
  · next hfind =>
    split
    · exact readString_unicodeEscape h
    · next hraw =>
      simp only [Bool.or_eq_true, decide_eq_true_eq, not_or] at hraw
      exact readString_raw hfind hraw.1.1 h

theorem readString_escape (s text : Utf16) :
    readString (JsString.escape s ++ 0x22 :: text) = some (s, text) := by
  have hend : readString (0x22 :: text) = some ([], text) := by
    rw [readString.eq_def]
    rfl
  have hsurrogate {u : UInt16} (hu : 0x80 ≤ u.toNat) : ¬ u < 0x20 := by
    rw [UInt16.lt_iff_toNat_lt]
    exact Nat.not_lt.mpr (Nat.le_trans (by decide) hu)
  induction s using JsString.escape.induct with
  | case1 => exact hend
  | case2 u => exact readString_escapeUnit hend
  | case3 u v rest hpair ih =>
    -- Both halves of a pair stand as they are.
    simp only [Utf16.isHigh, Utf16.isLow, Bool.and_eq_true, decide_eq_true_eq] at hpair
    have hv : 0x80 ≤ v.toNat := by omega
    have hu : 0x80 ≤ u.toNat := by omega
    have hread := readString_raw (JsString.find?_letter_of_le hu) (hsurrogate hu)
      (readString_raw (JsString.find?_letter_of_le hv) (hsurrogate hv) ih)
    simpa [JsString.escape, Utf16.isHigh, Utf16.isLow, hpair] using hread
  | case4 u v rest hpair ih =>
    rw [JsString.escape, if_neg hpair, List.append_assoc]
    exact readString_escapeUnit ih

/-! ## Values -/

/-- The values that are written as JavaScript writes them: whole numbers, and objects without two
members of one key. -/
inductive Plain : Json → Prop
  | null : Plain .null
  | bool (b : Bool) : Plain (.bool b)
  | number (z : Int) : Plain (.number z)
  | string (s : Utf16) : Plain (.string s)
  | array (h : ∀ item ∈ items, Plain item) : Plain (.array items)
  | object (hk : (members.map Prod.fst).Nodup) (h : ∀ m ∈ members, Plain m.2) :
    Plain (.object members)

theorem foldl_setMember {members done : List (Utf16 × Json)}
    (h : ((done ++ members).map Prod.fst).Nodup) :
    members.foldl (fun ms m => setMember ms m.1 m.2) done = done ++ members := by
  induction members generalizing done with
  | nil => exact (List.append_nil done).symm
  | cons m members ih =>
    have hnew : done.any (·.1 = m.1) = false := by
      rw [List.map_append, List.nodup_append] at h
      rw [List.any_eq_false]
      intro x hx heq
      exact h.2.2 x.1 (List.mem_map_of_mem hx) m.1 (by simp) (by simpa using heq)
    have hassoc : done ++ [(m.1, m.2)] ++ members = done ++ m :: members := by simp
    rw [List.foldl_cons, setMember, hnew, if_neg Bool.false_ne_true, ih (by rwa [hassoc]), hassoc]

theorem ofMembers_eq (h : (members.map Prod.fst).Nodup) : ofMembers members = .object members :=
  congrArg Json.object (foldl_setMember h)

theorem isSpace_of_isDigit (h : isDigit u = true) : isSpace u = false := by
  have hle : 0x30 ≤ u.toNat ∧ u.toNat ≤ 0x39 := by
    simpa [isDigit, UInt16.le_iff_toNat_le] using h
  have hne {w : UInt16} (hw : w.toNat < 0x30) : u ≠ w := by
    rintro rfl
    omega
  unfold isSpace
  simp [hne (w := 0x20) (by decide), hne (w := 0x09) (by decide), hne (w := 0x0A) (by decide),
    hne (w := 0x0D) (by decide)]

theorem numberText_head (z : Int) :
    ∃ u text, numberText z = u :: text ∧ (isDigit u = true ∨ u = 0x2D) := by
  have hd := natText_decimal z.natAbs
  have htext : numberText z = (if z < 0 then [0x2D] else []) ++ natText z.natAbs := by
    rw [numberText, if_pos (Rat.den_intCast z), Rat.num_intCast, List.append_nil]
  rw [htext]
  split
  · exact ⟨0x2D, _, rfl, .inr rfl⟩
  · cases hds : natText z.natAbs with
    | nil => exact absurd hds hd.nonempty
    | cons u ds => exact ⟨u, ds, rfl, .inl (hd.digits u (by rw [hds]; exact List.mem_cons_self ..))⟩

theorem member_of_mem {members : List (Utf16 × Json)} (hk : (members.map Prod.fst).Nodup)
    (hm : (key, value) ∈ members) : member members key = some value := by
  induction members with
  | nil => cases hm
  | cons m members ih =>
    rw [List.map_cons, List.nodup_cons] at hk
    obtain rfl | hm := List.mem_cons.mp hm
    · simp [member]
    · have hne : m.1 ≠ key := by
        rintro rfl
        exact hk.1 (List.mem_map.mpr ⟨_, hm, rfl⟩)
      have htail := ih hk.2 hm
      rw [member, List.find?_cons_of_neg (by simpa using hne)]
      exact htail

/-- The first unit of a text, which no space is. -/
theorem stringify_head (h : Plain j) : ∃ u text, stringify j = u :: text ∧ isSpace u = false ∧
    u ≠ 0x5D ∧ u ≠ 0x7D := by
  cases h with
  | null => exact ⟨_, _, rfl, by decide⟩
  | bool b => cases b <;> exact ⟨_, _, rfl, by decide⟩
  | string s => exact ⟨_, _, rfl, by decide⟩
  | array h =>
    rename_i items
    cases items <;> exact ⟨_, _, rfl, by decide⟩
  | object hk h =>
    rename_i members
    cases members <;> exact ⟨_, _, rfl, by decide⟩
  | number z =>
    obtain ⟨u, text, htext, hu⟩ := numberText_head z
    refine ⟨u, text, htext, ?_⟩
    obtain hu | rfl := hu
    · refine ⟨isSpace_of_isDigit hu, ?_, ?_⟩ <;>
        · rintro rfl
          exact absurd hu (by decide)
    · decide

theorem skipSpace_of_head (h : isSpace u = false) : skipSpace (u :: text) = u :: text :=
  List.dropWhile_cons_of_neg (by simp [h])

theorem ends_of_head (h : isDigit u = false ∧ u ≠ 0x2E ∧ u ≠ 0x65 ∧ u ≠ 0x45) :
    Ends (u :: text) := by
  intro v hv
  rwa [← Option.some.inj hv]

theorem ends_moreItems (items : List Json) (rest : Utf16) : Ends (moreItems items ++ rest) := by
  cases items <;> exact ends_of_head (by decide)

theorem ends_moreMembers (members : List (Utf16 × Json)) (rest : Utf16) :
    Ends (moreMembers members ++ rest) := by
  obtain _ | ⟨⟨key, value⟩, members⟩ := members <;> exact ends_of_head (by decide)

/-- The text of `j` is read with any text behind it that no number goes on in. -/
def Reads (j : Json) : Prop :=
  ∀ fuel rest, (stringify j).length < fuel → Ends rest →
    readValue fuel (stringify j ++ rest) = some (j, rest)

theorem readItems_moreItems {items : List Json} (hp : ∀ j ∈ item :: items, Plain j)
    (h : ∀ j ∈ item :: items, Reads j)
    (hf : (stringify item ++ moreItems items).length < fuel) (rest : Utf16) :
    readItems fuel (stringify item ++ (moreItems items ++ rest)) = some (item :: items, rest) := by
  induction items generalizing item fuel with
  | nil =>
    obtain _ | fuel := fuel
    · cases hf
    · rw [List.length_append] at hf
      have hitem := h item (List.mem_cons_self ..) fuel (moreItems [] ++ rest)
        (by simp only [moreItems, List.length_singleton] at hf; omega) (ends_moreItems _ _)
      rw [readItems, hitem]
      rfl
  | cons next items ih =>
    obtain _ | fuel := fuel
    · cases hf
    · rw [List.length_append, moreItems, List.length_cons] at hf
      have hitem := h item (List.mem_cons_self ..) fuel (moreItems (next :: items) ++ rest)
        (by omega) (ends_moreItems _ _)
      have htail := ih (fun j hj => hp j (List.mem_cons_of_mem _ hj))
        (fun j hj => h j (List.mem_cons_of_mem _ hj)) (by omega : _ < fuel)
      rw [readItems, hitem, moreItems]
      simp only [List.cons_append, List.append_assoc]
      rw [skipSpace_of_head (by decide)]
      simp only
      rw [htail]
      rfl

theorem readMembers_moreMembers {members : List (Utf16 × Json)}
    (h : ∀ m ∈ (key, value) :: members, Reads m.2)
    (hf : (JsString.quote key ++ 0x3A :: (stringify value ++ moreMembers members)).length < fuel)
    (hp : ∀ m ∈ (key, value) :: members, Plain m.2) (rest : Utf16) :
    readMembers fuel (JsString.quote key ++ 0x3A :: (stringify value ++
      (moreMembers members ++ rest))) = some ((key, value) :: members, rest) := by
  induction members generalizing key value fuel with
  | nil =>
    obtain _ | fuel := fuel
    · cases hf
    · simp only [List.length_append, List.length_cons, moreMembers, List.length_nil] at hf
      have hvalue := h (key, value) (List.mem_cons_self ..) fuel (moreMembers [] ++ rest)
        (by simp only; omega) (ends_moreMembers _ _)
      have hkey := readString_escape key (0x3A :: (stringify value ++ (moreMembers [] ++ rest)))
      rw [readMembers, JsString.quote]
      simp only [List.cons_append, List.append_assoc, List.nil_append]
      rw [skipSpace_of_head (by decide)]
      simp only
      rw [hkey]
      simp only
      rw [skipSpace_of_head (by decide)]
      simp only
      rw [hvalue]
      rfl
  | cons next members ih =>
    obtain ⟨key', value'⟩ := next
    obtain _ | fuel := fuel
    · cases hf
    · simp only [List.length_append, List.length_cons, moreMembers] at hf
      have hvalue := h (key, value) (List.mem_cons_self ..) fuel
        (moreMembers ((key', value') :: members) ++ rest) (by simp only; omega)
        (ends_moreMembers _ _)
      have hkey := readString_escape key
        (0x3A :: (stringify value ++ (moreMembers ((key', value') :: members) ++ rest)))
      have htail := ih (fun m hm => h m (List.mem_cons_of_mem _ hm))
        (by simp only [List.length_append, List.length_cons]; omega : _ < fuel)
        (fun m hm => hp m (List.mem_cons_of_mem _ hm))
      rw [readMembers, JsString.quote]
      simp only [List.cons_append, List.append_assoc, List.nil_append]
      rw [skipSpace_of_head (by decide)]
      simp only
      rw [hkey]
      simp only
      rw [skipSpace_of_head (by decide)]
      simp only
      rw [hvalue, moreMembers]
      simp only [List.cons_append, List.append_assoc]
      rw [skipSpace_of_head (by decide)]
      simp only
      rw [htail]
      rfl

/-- A text that begins with a digit or a minus sign is read as a number. -/
theorem readValue_of_sign (fuel : Nat) (h : isDigit u = true ∨ u = 0x2D) :
    readValue (fuel + 1) (u :: text) = readNumber (u :: text) := by
  have hspace : isSpace u = false := by
    obtain h | rfl := h
    · exact isSpace_of_isDigit h
    · rfl
  have hne {w : UInt16} (hw : isDigit w = false) (hw' : w ≠ 0x2D) : u ≠ w := by
    rintro rfl
    obtain h | h := h
    · rw [h] at hw
      cases hw
    · exact hw' h
  rw [readValue, skipSpace_of_head hspace]
  split
  all_goals first
    | rfl
    | next heq => exact absurd (List.cons.inj heq).1 (hne (by decide) (by decide))

theorem reads_of_plain (h : Plain j) : Reads j := by
  induction h with
  | null =>
    intro fuel rest hf _
    obtain _ | fuel := fuel
    · cases hf
    · rfl
  | bool b =>
    intro fuel rest hf _
    obtain _ | fuel := fuel
    · cases hf
    · cases b <;> rfl
  | number z =>
    intro fuel rest hf hr
    obtain _ | fuel := fuel
    · cases hf
    · obtain ⟨u, text, htext, hu⟩ := numberText_head z
      have hread := readNumber_numberText z hr
      rw [htext, List.cons_append] at hread
      rw [stringify, htext, List.cons_append, readValue_of_sign fuel hu, hread]
  | string s =>
    intro fuel rest hf _
    obtain _ | fuel := fuel
    · cases hf
    · have hread := readString_escape s rest
      have htext : stringify (.string s) ++ rest =
          0x22 :: (JsString.escape s ++ 0x22 :: rest) := by
        simp [stringify, JsString.quote]
      rw [htext, readValue, skipSpace_of_head (by decide)]
      simp only
      rw [hread]
      rfl
  | array h ih =>
    rename_i items
    intro fuel rest hf _
    obtain _ | fuel := fuel
    · cases hf
    · cases items with
      | nil => rfl
      | cons item items =>
        obtain ⟨u, text, htext, hspace, hclose, -⟩ :=
          stringify_head (h item (List.mem_cons_self ..))
        rw [stringify, List.length_cons] at hf
        have hread := readItems_moreItems h ih (Nat.lt_of_succ_lt_succ hf) rest
        rw [stringify, List.cons_append, List.append_assoc, readValue,
          skipSpace_of_head (by decide)]
        simp only
        rw [htext, List.cons_append] at hread ⊢
        rw [skipSpace_of_head hspace]
        split
        · next heq => exact absurd (List.cons.inj heq).1 hclose
        · rw [hread]
          rfl
  | object hk h ih =>
    rename_i members
    intro fuel rest hf _
    obtain _ | fuel := fuel
    · cases hf
    · obtain _ | ⟨⟨key, value⟩, members⟩ := members
      · rfl
      · rw [stringify, List.length_cons] at hf
        have hread := readMembers_moreMembers ih (Nat.lt_of_succ_lt_succ hf) h rest
        rw [stringify, List.cons_append, List.append_assoc, List.cons_append, List.append_assoc,
          readValue, skipSpace_of_head (by decide)]
        simp only
        rw [JsString.quote, List.cons_append] at hread ⊢
        rw [skipSpace_of_head (by decide)]
        split
        · next heq => exact absurd (List.cons.inj heq).1 (by decide)
        · rw [hread, Option.map_some, ofMembers_eq hk]

/-- What is written is read back. -/
theorem parse_stringify (h : Plain j) : parse (stringify j) = some j := by
  have hread := reads_of_plain h _ [] (Nat.lt_succ_self (stringify j).length) .nil
  rw [List.append_nil] at hread
  unfold parse
  rw [hread]
  rfl

/-- Two values of one text are one value. -/
theorem stringify_inj (h : Plain j) (h' : Plain j') (heq : stringify j = stringify j') :
    j = j' := by
  have hparse := parse_stringify h
  rw [heq, parse_stringify h'] at hparse
  exact (Option.some.inj hparse).symm

end WarrenSdk.Lib.Json
