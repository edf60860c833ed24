import Mathlib.Data.Char
import WarrenSdk.Lib.Bytes

/-!
# Strings of UTF-16 code units

The strings of a language whose strings are arbitrary sequences of UTF-16 code units, and their
UTF-8 encoding. A surrogate that is not half of a pair stands for no character: it is encoded as the
replacement character, so the encoding tells strings apart exactly up to `toWellFormed`.
-/

namespace WarrenSdk.Lib

abbrev Utf16 := List UInt16

namespace Utf16

def isHigh (u : UInt16) : Bool := 0xD800 ≤ u.toNat && u.toNat < 0xDC00

def isLow (u : UInt16) : Bool := 0xDC00 ≤ u.toNat && u.toNat < 0xE000

def replacement : Char := Char.ofNat 0xFFFD

/-- The character of a unit that is not half of a pair. -/
def single (u : UInt16) : Char := if isHigh u || isLow u then replacement else Char.ofNat u.toNat

def pair (u v : UInt16) : Char :=
  Char.ofNat (0x10000 + (u.toNat - 0xD800) * 0x400 + (v.toNat - 0xDC00))

def codePoints : Utf16 → List Char
  | [] => []
  | [u] => [single u]
  | u :: v :: rest =>
    if isHigh u && isLow v then pair u v :: codePoints rest else single u :: codePoints (v :: rest)

/-- The code units of a character. -/
def units (c : Char) : Utf16 :=
  if c.toNat < 0x10000 then [UInt16.ofNat c.toNat]
  else [UInt16.ofNat (0xD800 + (c.toNat - 0x10000) / 0x400),
    UInt16.ofNat (0xDC00 + (c.toNat - 0x10000) % 0x400)]

def ofChars (cs : List Char) : Utf16 := cs.flatMap units

def ofString (s : String) : Utf16 := ofChars s.toList

instance : Coe String Utf16 := ⟨ofString⟩

/-- Lone surrogates replaced. -/
def toWellFormed (s : Utf16) : Utf16 := ofChars (codePoints s)

/-- No surrogate is alone. -/
def WellFormed (s : Utf16) : Prop := toWellFormed s = s

instance : DecidablePred WellFormed := fun s => inferInstanceAs (Decidable (toWellFormed s = s))

/-- The UTF-8 encoding. -/
def utf8 (s : Utf16) : Bytes := (codePoints s).flatMap String.utf8EncodeChar

/-! ## Characters -/

theorem toNat_char_cases (c : Char) :
    c.toNat < 0xD800 ∨ 0xE000 ≤ c.toNat ∧ c.toNat < 0x110000 := by
  have h : c.toNat < 0xD800 ∨ 0xDFFF < c.toNat ∧ c.toNat < 0x110000 := c.valid
  omega

theorem toNat_char_ofNat (h : n.isValidChar) : (Char.ofNat n).toNat = n := by
  have hchar : Char.ofNat n = Char.ofNatAux n h := dif_pos h
  rw [hchar]
  rfl

theorem codePoints_units (c : Char) (rest : Utf16) :
    codePoints (units c ++ rest) = c :: codePoints rest := by
  have hc := toNat_char_cases c
  unfold units
  split
  next hlt =>
    have hu : (UInt16.ofNat c.toNat).toNat = c.toNat := UInt16.toNat_ofNat_of_lt' hlt
    have hh : isHigh (UInt16.ofNat c.toNat) = false := by
      simp only [isHigh, hu]
      simp
      omega
    have hl : isLow (UInt16.ofNat c.toNat) = false := by
      simp only [isLow, hu]
      simp
      omega
    have hs : single (UInt16.ofNat c.toNat) = c := by
      simp [single, hh, hl, hu, Char.ofNat_toNat]
    cases rest with
    | nil => simp [codePoints, hs]
    | cons v rest => simp [codePoints, hh, hs]
  next hge =>
    have hhi : 0xD800 + (c.toNat - 0x10000) / 0x400 < UInt16.size := by
      change _ < 65536
      omega
    have hlo : 0xDC00 + (c.toNat - 0x10000) % 0x400 < UInt16.size := by
      change _ < 65536
      omega
    have h₁ := UInt16.toNat_ofNat_of_lt' hhi
    have h₂ := UInt16.toNat_ofNat_of_lt' hlo
    generalize UInt16.ofNat (0xD800 + (c.toNat - 0x10000) / 0x400) = u at h₁ ⊢
    generalize UInt16.ofNat (0xDC00 + (c.toNat - 0x10000) % 0x400) = v at h₂ ⊢
    have hh : isHigh u = true := by
      simp only [isHigh, h₁]
      simp
      omega
    have hl : isLow v = true := by
      simp only [isLow, h₂]
      simp
      omega
    have hsum : 0x10000 + (u.toNat - 0xD800) * 0x400 + (v.toNat - 0xDC00) = c.toNat := by omega
    have hp : pair u v = c := by rw [pair, hsum, Char.ofNat_toNat]
    simp [codePoints, hh, hl, hp]

@[simp] theorem codePoints_ofChars (cs : List Char) : codePoints (ofChars cs) = cs := by
  induction cs with
  | nil => rfl
  | cons c cs ih =>
    rw [ofChars, List.flatMap_cons, codePoints_units]
    exact congrArg (c :: ·) ih

@[simp] theorem ofString_inj {s t : String} : ofString s = ofString t ↔ s = t := by
  constructor
  · intro h
    have hchars := congrArg codePoints h
    rw [ofString, ofString, codePoints_ofChars, codePoints_ofChars] at hchars
    exact String.toList_inj.mp hchars
  · rintro rfl
    rfl

theorem ofChars_wellFormed (cs : List Char) : WellFormed (ofChars cs) := by
  rw [WellFormed, toWellFormed, codePoints_ofChars]

/-! ## Encoding -/

theorem flatMap_utf8EncodeChar_injective {cs ds : List Char}
    (h : cs.flatMap String.utf8EncodeChar = ds.flatMap String.utf8EncodeChar) : cs = ds := by
  have hbytes : cs.utf8Encode = ds.utf8Encode := congrArg List.toByteArray h
  have hdecode := congrArg ByteArray.utf8Decode? hbytes
  rw [List.utf8Decode?_utf8Encode, List.utf8Decode?_utf8Encode] at hdecode
  exact congrArg Array.toList (Option.some.inj hdecode)

/-- The encoding tells strings apart up to their lone surrogates. -/
theorem utf8_eq_iff {s t : Utf16} : utf8 s = utf8 t ↔ toWellFormed s = toWellFormed t := by
  constructor
  · intro h
    rw [toWellFormed, toWellFormed, flatMap_utf8EncodeChar_injective h]
  · intro h
    have hc := congrArg codePoints h
    rw [toWellFormed, toWellFormed, codePoints_ofChars, codePoints_ofChars] at hc
    rw [utf8, utf8, hc]

theorem utf8_inj {s t : Utf16} (hs : WellFormed s) (ht : WellFormed t) (h : utf8 s = utf8 t) :
    s = t :=
  hs.symm.trans ((utf8_eq_iff.mp h).trans ht)

/-! ## ASCII -/

def IsAscii (s : Utf16) : Prop := ∀ u ∈ s, u.toNat < 0x80

instance (s : Utf16) : Decidable (IsAscii s) := List.decidableBAll _ s

theorem codePoints_cons (h : u.toNat < 0x80) (s : Utf16) :
    codePoints (u :: s) = Char.ofNat u.toNat :: codePoints s := by
  have hhigh : isHigh u = false := by
    simp only [isHigh, Bool.and_eq_false_iff, decide_eq_false_iff_not]
    omega
  have hlow : isLow u = false := by
    simp only [isLow, Bool.and_eq_false_iff, decide_eq_false_iff_not]
    omega
  have hsingle : single u = Char.ofNat u.toNat := by
    rw [single, hhigh, hlow]
    rfl
  cases s with
  | nil => rw [codePoints, codePoints, hsingle]
  | cons v s =>
    rw [codePoints, hhigh, Bool.false_and, if_neg (by decide), hsingle]

theorem units_ascii (h : n < 0x80) : units (Char.ofNat n) = [UInt16.ofNat n] := by
  have hall : ∀ n < 0x80, units (Char.ofNat n) = [UInt16.ofNat n] := by decide
  exact hall n h

theorem IsAscii.wellFormed {s : Utf16} (h : IsAscii s) : WellFormed s := by
  unfold WellFormed toWellFormed
  induction s with
  | nil => rfl
  | cons u s ih =>
    have hu := h u List.mem_cons_self
    rw [codePoints_cons hu, ofChars, List.flatMap_cons, units_ascii hu, UInt16.ofNat_toNat]
    exact congrArg (u :: ·) (ih fun v hv => h v (List.mem_cons_of_mem u hv))

/-! ## Strings without lone surrogates -/

theorem wellFormed_iff {s : Utf16} : WellFormed s ↔ ∃ cs, s = ofChars cs := by
  constructor
  · intro h
    exact ⟨codePoints s, h.symm⟩
  · rintro ⟨cs, rfl⟩
    exact ofChars_wellFormed cs

theorem WellFormed.append {s t : Utf16} (hs : WellFormed s) (ht : WellFormed t) :
    WellFormed (s ++ t) := by
  obtain ⟨cs, rfl⟩ := wellFormed_iff.mp hs
  obtain ⟨ds, rfl⟩ := wellFormed_iff.mp ht
  exact wellFormed_iff.mpr ⟨cs ++ ds, (List.flatMap_append ..).symm⟩

theorem WellFormed.cons {s : Utf16} (hu : u.toNat < 0x80) (hs : WellFormed s) :
    WellFormed (u :: s) := by
  have hhead : WellFormed [u] := IsAscii.wellFormed fun v hv => by
    rwa [List.mem_singleton.mp hv]
  exact hhead.append hs

theorem wellFormed_singleton (hhigh : isHigh u = false) (hlow : isLow u = false) :
    WellFormed [u] := by
  have hvalid : u.toNat.isValidChar := by
    have hu := u.toNat_lt
    simp only [isHigh, isLow, Bool.and_eq_false_iff, decide_eq_false_iff_not] at hhigh hlow
    unfold Nat.isValidChar
    omega
  have hchar : (Char.ofNat u.toNat).toNat = u.toNat := toNat_char_ofNat hvalid
  have hsingle : single u = Char.ofNat u.toNat := by rw [single, hhigh, hlow]; rfl
  refine wellFormed_iff.mpr ⟨[Char.ofNat u.toNat], ?_⟩
  rw [ofChars, List.flatMap_singleton, units, hchar, if_pos u.toNat_lt, UInt16.ofNat_toNat]

theorem wellFormed_pair (hhigh : isHigh u = true) (hlow : isLow v = true) :
    WellFormed [u, v] := by
  simp only [isHigh, isLow, Bool.and_eq_true, decide_eq_true_eq] at hhigh hlow
  have hchar : (pair u v).toNat =
      0x10000 + (u.toNat - 0xD800) * 0x400 + (v.toNat - 0xDC00) :=
    toNat_char_ofNat (by unfold Nat.isValidChar; omega)
  refine wellFormed_iff.mpr ⟨[pair u v], ?_⟩
  have hu : 0xD800 + ((pair u v).toNat - 0x10000) / 0x400 = u.toNat := by omega
  have hv : 0xDC00 + ((pair u v).toNat - 0x10000) % 0x400 = v.toNat := by omega
  rw [ofChars, List.flatMap_singleton, units, if_neg (by omega), hu, hv, UInt16.ofNat_toNat,
    UInt16.ofNat_toNat]

end Utf16

end WarrenSdk.Lib
