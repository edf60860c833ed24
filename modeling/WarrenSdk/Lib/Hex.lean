import WarrenSdk.Lib.JsString
import WarrenSdk.Lib.LowerCase

/-!
# Hexadecimal texts

The texts of octet strings, in lower case, and the codecs that read them. A text of `2 * n` digits
in lower case stands for one string of `n` octets, and no other text of that kind does
(`Codec.octets_inj`).
-/

namespace WarrenSdk.Lib.Hex
open JsString Utf16

def isDigit (u : UInt16) : Bool := (hexValue u).isSome

def isLowerDigit (u : UInt16) : Bool := isDigit u && asciiLower u = u

-- the units of the text are tried, not all there are
instance (p : UInt16 → Bool) (s : Utf16) : Decidable (∀ u ∈ s, p u = true) :=
  List.decidableBAll _ s

def text (bytes : Bytes) : Utf16 :=
  bytes.flatMap fun b => [hexDigit (b.toNat / 16), hexDigit (b.toNat % 16)]

/-- The texts in lower case of some octets. -/
abbrev Text := { s : Utf16 // s.length % 2 = 0 ∧ ∀ u ∈ s, isLowerDigit u = true }

/-- The texts in lower case of `n` octets. -/
abbrev Fixed (n : Nat) := { s : Utf16 // s.length = 2 * n ∧ ∀ u ∈ s, isLowerDigit u = true }

/-- How octets are read and written. What is written in lower case is read back. -/
structure Codec where
  toBytes : Utf16 → Option Bytes
  ofBytes : Bytes → Utf16
  toBytes_text : ∀ bytes, toBytes (text bytes) = some bytes

/-! ## Digits -/

theorem toNat_lt_of_isDigit (h : isDigit u = true) : u.toNat < 0x67 := by
  unfold isDigit hexValue at h
  dsimp only at h
  split at h
  · omega
  · split at h
    · omega
    · split at h
      · omega
      · cases h

theorem digit_cases : ∀ n < 0x67, isDigit (.ofNat n) = true →
    isLowerDigit (asciiLower (.ofNat n)) = true ∧
      (isLowerDigit (.ofNat n) = true → ∃ d < 16, UInt16.ofNat n = hexDigit d) := by
  decide

theorem isLowerDigit_asciiLower (h : isDigit u = true) : isLowerDigit (asciiLower u) = true := by
  have hall := digit_cases u.toNat (toNat_lt_of_isDigit h)
  rw [UInt16.ofNat_toNat] at hall
  exact (hall h).1

theorem eq_hexDigit (h : isLowerDigit u = true) : ∃ d < 16, u = hexDigit d := by
  have hdigit : isDigit u = true := (Bool.and_eq_true_iff.mp h).1
  have hall := digit_cases u.toNat (toNat_lt_of_isDigit hdigit)
  rw [UInt16.ofNat_toNat] at hall
  exact (hall hdigit).2 h

/-- Digits in lower case. -/
theorem lower_spec (L : LowerCase) {s : Utf16} (h : ∀ u ∈ s, isDigit u = true) :
    (L s).length = s.length ∧ ∀ u ∈ L s, isLowerDigit u = true := by
  have hs : L s = s.map asciiLower := by
    refine L.ascii s fun u hu => ?_
    have hlt := toNat_lt_of_isDigit (h u hu)
    rw [UInt16.lt_iff_toNat_lt]
    exact Nat.lt_trans hlt (by decide)
  rw [hs]
  refine ⟨List.length_map .., fun u hu => ?_⟩
  obtain ⟨v, hv, rfl⟩ := List.mem_map.mp hu
  exact isLowerDigit_asciiLower (h v hv)

/-! ## Octets -/

theorem exists_octet {a b : UInt16} (ha : isLowerDigit a = true) (hb : isLowerDigit b = true) :
    ∃ o, text [o] = [a, b] := by
  obtain ⟨x, hx, rfl⟩ := eq_hexDigit ha
  obtain ⟨y, hy, rfl⟩ := eq_hexDigit hb
  have ho : (UInt8.ofNat (16 * x + y)).toNat = 16 * x + y := UInt8.toNat_ofNat_of_lt' (by
    change _ < 256
    omega)
  have hhigh : (16 * x + y) / 16 = x := by omega
  have hlow : (16 * x + y) % 16 = y := by omega
  refine ⟨.ofNat (16 * x + y), ?_⟩
  rw [text, List.flatMap_singleton, ho, hhigh, hlow]

theorem exists_text (s : Utf16) (hlen : s.length = 2 * n)
    (h : ∀ u ∈ s, isLowerDigit u = true) : ∃ bytes, bytes.length = n ∧ text bytes = s := by
  induction n generalizing s with
  | zero => exact ⟨[], rfl, (List.length_eq_zero_iff.mp hlen).symm⟩
  | succ n ih =>
    obtain ⟨a, s, rfl⟩ := List.exists_cons_of_length_pos (by omega : 0 < s.length)
    rw [List.length_cons] at hlen
    obtain ⟨b, s, rfl⟩ := List.exists_cons_of_length_pos (by omega : 0 < s.length)
    rw [List.length_cons] at hlen
    obtain ⟨o, ho⟩ := exists_octet (h a List.mem_cons_self)
      (h b (List.mem_cons_of_mem a List.mem_cons_self))
    obtain ⟨bytes, hbytes, rfl⟩ := ih s (by omega) fun u hu =>
      h u (List.mem_cons_of_mem a (List.mem_cons_of_mem b hu))
    refine ⟨o :: bytes, by rw [List.length_cons, hbytes], ?_⟩
    have hcons : text (o :: bytes) = text [o] ++ text bytes := rfl
    rw [hcons, ho]
    rfl

namespace Codec
variable (C : Codec)

theorem toBytes_fixed (h : Fixed n) :
    ∃ bytes, C.toBytes h.1 = some bytes ∧ bytes.length = n ∧ text bytes = h.1 := by
  obtain ⟨bytes, hlen, htext⟩ := exists_text h.1 h.2.1 h.2.2
  exact ⟨bytes, htext ▸ C.toBytes_text bytes, hlen, htext⟩

/-- The octets of a text that cannot fail to be read. -/
def octets (h : Fixed n) : Octets n :=
  ⟨(C.toBytes h.1).getD [], by
    obtain ⟨bytes, hbytes, hlen, -⟩ := C.toBytes_fixed h
    rw [hbytes]
    exact hlen⟩

theorem octets_spec (h : Fixed n) :
    C.toBytes h.1 = some (C.octets h).1 ∧ text (C.octets h).1 = h.1 := by
  obtain ⟨bytes, hbytes, -, htext⟩ := C.toBytes_fixed h
  have hoctets : (C.octets h).1 = bytes := congrArg (·.getD []) hbytes
  rw [hoctets]
  exact ⟨hbytes, htext⟩

theorem octets_inj {h k : Fixed n} (heq : (C.octets h).1 = (C.octets k).1) : h = k := by
  have htext := (C.octets_spec h).2
  rw [heq, (C.octets_spec k).2] at htext
  exact Subtype.ext htext.symm

end Codec

/-! ## A codec -/

def digits : Utf16 → Option Bytes
  | [] => some []
  | [_] => none
  | a :: b :: s => do
    let x ← hexValue a
    let y ← hexValue b
    let bytes ← digits s
    return .ofNat (16 * x + y) :: bytes

theorem digits_text (bytes : Bytes) : digits (text bytes) = some bytes := by
  induction bytes with
  | nil => rfl
  | cons b bytes ih =>
    have hb := b.toNat_lt
    have hsum : 16 * (b.toNat / 16) + b.toNat % 16 = b.toNat := Nat.div_add_mod ..
    have hcons : text (b :: bytes) =
        hexDigit (b.toNat / 16) :: hexDigit (b.toNat % 16) :: text bytes := rfl
    rw [hcons, digits, hexValue_hexDigit _ (by omega), hexValue_hexDigit _ (by omega), ih]
    change some (UInt8.ofNat (16 * (b.toNat / 16) + b.toNat % 16) :: bytes) = _
    rw [hsum, UInt8.ofNat_toNat]

/-- The codec that takes digits of either case. -/
def plainCodec : Codec where
  toBytes := digits
  ofBytes := text
  toBytes_text := digits_text

end WarrenSdk.Lib.Hex
