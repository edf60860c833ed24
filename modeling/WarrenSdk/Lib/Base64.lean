import WarrenSdk.Lib.Utf16

/-!
# Base64

The padded encoding of a string of octets in the standard alphabet, as `btoa` applies it to a
string: each code unit stands for an octet, and a string with another unit has no encoding. The
encoding in the alphabet for URLs has no padding, and its reader takes nothing but what the writer
writes.
-/

namespace WarrenSdk.Lib

def base64Digit (n : Nat) : UInt16 :=
  .ofNat <|
    if n < 26 then 0x41 + n
    else if n < 52 then 0x61 + (n - 26)
    else if n < 62 then 0x30 + (n - 52)
    else if n = 62 then 0x2B else 0x2F

def base64 : List Nat → Utf16
  | [] => []
  | [a] => [base64Digit (a / 4), base64Digit (a % 4 * 16), 0x3D, 0x3D]
  | [a, b] =>
    [base64Digit (a / 4), base64Digit (a % 4 * 16 + b / 16), base64Digit (b % 16 * 4), 0x3D]
  | a :: b :: c :: rest =>
    base64Digit (a / 4) :: base64Digit (a % 4 * 16 + b / 16) ::
      base64Digit (b % 16 * 4 + c / 64) :: base64Digit (c % 64) :: base64 rest

/-- Whether every unit of a string stands for an octet. -/
def isLatin1 (s : Utf16) : Bool := s.all (· < 0x100)

def btoa (s : Utf16) : Option Utf16 :=
  if isLatin1 s then some (base64 (s.map UInt16.toNat)) else none

example : btoa "warren:a" = some "d2FycmVuOmE=" := by decide

/-! ## The alphabet for URLs -/

def base64UrlDigit (n : Nat) : UInt16 :=
  .ofNat <|
    if n < 26 then 0x41 + n
    else if n < 52 then 0x61 + (n - 26)
    else if n < 62 then 0x30 + (n - 52)
    else if n = 62 then 0x2D else 0x5F

def base64UrlValue (u : UInt16) : Option Nat :=
  let n := u.toNat
  if 0x41 ≤ n ∧ n < 0x5B then some (n - 0x41)
  else if 0x61 ≤ n ∧ n < 0x7B then some (n - 0x61 + 26)
  else if 0x30 ≤ n ∧ n < 0x3A then some (n - 0x30 + 52)
  else if n = 0x2D then some 62
  else if n = 0x5F then some 63
  else none

def base64Url : Bytes → Utf16
  | [] => []
  | [a] => [base64UrlDigit (a.toNat / 4), base64UrlDigit (a.toNat % 4 * 16)]
  | [a, b] =>
    [base64UrlDigit (a.toNat / 4), base64UrlDigit (a.toNat % 4 * 16 + b.toNat / 16),
      base64UrlDigit (b.toNat % 16 * 4)]
  | a :: b :: c :: rest =>
    base64UrlDigit (a.toNat / 4) :: base64UrlDigit (a.toNat % 4 * 16 + b.toNat / 16) ::
      base64UrlDigit (b.toNat % 16 * 4 + c.toNat / 64) :: base64UrlDigit (c.toNat % 64) ::
        base64Url rest

/-- The octets of a text; the bits behind the last of them have to be zero. -/
def ofBase64Url : Utf16 → Option Bytes
  | [] => some []
  | [_] => none
  | [p, q] => do
    let p ← base64UrlValue p
    let q ← base64UrlValue q
    if q % 16 = 0 then some [.ofNat (p * 4 + q / 16)] else none
  | [p, q, r] => do
    let p ← base64UrlValue p
    let q ← base64UrlValue q
    let r ← base64UrlValue r
    if r % 4 = 0 then some [.ofNat (p * 4 + q / 16), .ofNat (q % 16 * 16 + r / 4)] else none
  | p :: q :: r :: s :: rest => do
    let p ← base64UrlValue p
    let q ← base64UrlValue q
    let r ← base64UrlValue r
    let s ← base64UrlValue s
    let bytes ← ofBase64Url rest
    return .ofNat (p * 4 + q / 16) :: .ofNat (q % 16 * 16 + r / 4) ::
      .ofNat (r % 4 * 64 + s) :: bytes

theorem base64UrlValue_digit : ∀ n < 64, base64UrlValue (base64UrlDigit n) = some n := by
  decide

theorem ofNat_eq_of_toNat {b : UInt8} (h : n = b.toNat) : UInt8.ofNat n = b := by
  rw [h, UInt8.ofNat_toNat]

theorem ofBase64Url_base64Url (bytes : Bytes) : ofBase64Url (base64Url bytes) = some bytes := by
  induction bytes using base64Url.induct with
  | case1 => rfl
  | case2 a =>
    have ha : a.toNat < 256 := a.toNat_lt
    simp only [base64Url, ofBase64Url]
    rw [base64UrlValue_digit _ (by omega), base64UrlValue_digit _ (by omega)]
    simp only [Option.bind_eq_bind, Option.bind_some]
    rw [if_pos (by omega), ofNat_eq_of_toNat (b := a) (by omega)]
  | case3 a b =>
    have ha : a.toNat < 256 := a.toNat_lt
    have hb : b.toNat < 256 := b.toNat_lt
    simp only [base64Url, ofBase64Url]
    rw [base64UrlValue_digit _ (by omega), base64UrlValue_digit _ (by omega),
      base64UrlValue_digit _ (by omega)]
    simp only [Option.bind_eq_bind, Option.bind_some]
    rw [if_pos (by omega), ofNat_eq_of_toNat (b := a) (by omega),
      ofNat_eq_of_toNat (b := b) (by omega)]
  | case4 a b c rest ih =>
    have ha : a.toNat < 256 := a.toNat_lt
    have hb : b.toNat < 256 := b.toNat_lt
    have hc : c.toNat < 256 := c.toNat_lt
    simp only [base64Url, ofBase64Url]
    rw [base64UrlValue_digit _ (by omega), base64UrlValue_digit _ (by omega),
      base64UrlValue_digit _ (by omega), base64UrlValue_digit _ (by omega), ih]
    simp only [Option.bind_eq_bind, Option.bind_some]
    rw [ofNat_eq_of_toNat (b := a) (by omega), ofNat_eq_of_toNat (b := b) (by omega),
      ofNat_eq_of_toNat (b := c) (by omega)]
    rfl

/-! ## `atob` -/

def base64Value (u : UInt16) : Option Nat :=
  let n := u.toNat
  if 0x41 ≤ n ∧ n < 0x5B then some (n - 0x41)
  else if 0x61 ≤ n ∧ n < 0x7B then some (n - 0x61 + 26)
  else if 0x30 ≤ n ∧ n < 0x3A then some (n - 0x30 + 52)
  else if n = 0x2B then some 62
  else if n = 0x2F then some 63
  else none

def isAsciiWhitespace (u : UInt16) : Bool := [0x09, 0x0A, 0x0C, 0x0D, 0x20].contains u

/-- A text without its padding, of which there is any only behind whole groups. -/
def unpad (text : Utf16) : Utf16 :=
  if text.length % 4 = 0 ∧ text.getLast? = some 0x3D then
    if text.dropLast.getLast? = some 0x3D then text.dropLast.dropLast else text.dropLast
  else text

/-- The octets of digits; the bits behind the last of them are dropped. -/
def ofBase64 : Utf16 → Option Bytes
  | [] => some []
  | [_] => none
  | [p, q] => do
    let p ← base64Value p
    let q ← base64Value q
    return [.ofNat (p * 4 + q / 16)]
  | [p, q, r] => do
    let p ← base64Value p
    let q ← base64Value q
    let r ← base64Value r
    return [.ofNat (p * 4 + q / 16), .ofNat (q % 16 * 16 + r / 4)]
  | p :: q :: r :: s :: rest => do
    let p ← base64Value p
    let q ← base64Value q
    let r ← base64Value r
    let s ← base64Value s
    let bytes ← ofBase64 rest
    return .ofNat (p * 4 + q / 16) :: .ofNat (q % 16 * 16 + r / 4) ::
      .ofNat (r % 4 * 64 + s) :: bytes

def atob (text : Utf16) : Option Bytes := ofBase64 (unpad (text.filter (!isAsciiWhitespace ·)))

theorem base64Value_digit : ∀ n < 64, base64Value (base64Digit n) = some n := by
  decide

theorem base64Digit_plain :
    ∀ n < 64, base64Digit n ≠ 0x3D ∧ isAsciiWhitespace (base64Digit n) = false := by
  decide

/-- Digits, and behind whole groups the padding. -/
structure Padded (bytes : Bytes) (digits padding : Utf16) : Prop where
  read : ofBase64 digits = some bytes
  digit : ∀ u ∈ digits, u ≠ 0x3D ∧ isAsciiWhitespace u = false
  whole : (digits ++ padding).length % 4 = 0
  padding : padding = [] ∨ padding = [0x3D] ∨ padding = [0x3D, 0x3D]

theorem exists_padded (bytes : Bytes) :
    ∃ digits padding, base64 (bytes.map UInt8.toNat) = digits ++ padding ∧
      Padded bytes digits padding := by
  induction bytes using base64Url.induct with
  | case1 => exact ⟨[], [], rfl, rfl, nofun, rfl, .inl rfl⟩
  | case2 a =>
    have ha : a.toNat < 256 := a.toNat_lt
    refine ⟨[base64Digit (a.toNat / 4), base64Digit (a.toNat % 4 * 16)], [0x3D, 0x3D], rfl, ?_,
      ?_, by simp, .inr (.inr rfl)⟩
    · rw [ofBase64, base64Value_digit _ (by omega), base64Value_digit _ (by omega)]
      simp only [Option.bind_eq_bind, Option.bind_some]
      rw [ofNat_eq_of_toNat (b := a) (by omega)]
      rfl
    · simp only [List.forall_mem_cons]
      exact ⟨base64Digit_plain _ (by omega), base64Digit_plain _ (by omega), nofun⟩
  | case3 a b =>
    have ha : a.toNat < 256 := a.toNat_lt
    have hb : b.toNat < 256 := b.toNat_lt
    refine ⟨[base64Digit (a.toNat / 4), base64Digit (a.toNat % 4 * 16 + b.toNat / 16),
      base64Digit (b.toNat % 16 * 4)], [0x3D], rfl, ?_, ?_, by simp, .inr (.inl rfl)⟩
    · rw [ofBase64, base64Value_digit _ (by omega), base64Value_digit _ (by omega),
        base64Value_digit _ (by omega)]
      simp only [Option.bind_eq_bind, Option.bind_some]
      rw [ofNat_eq_of_toNat (b := a) (by omega), ofNat_eq_of_toNat (b := b) (by omega)]
      rfl
    · simp only [List.forall_mem_cons]
      exact ⟨base64Digit_plain _ (by omega), base64Digit_plain _ (by omega),
        base64Digit_plain _ (by omega), nofun⟩
  | case4 a b c rest ih =>
    have ha : a.toNat < 256 := a.toNat_lt
    have hb : b.toNat < 256 := b.toNat_lt
    have hc : c.toNat < 256 := c.toNat_lt
    obtain ⟨digits, padding, heq, hread, hdigit, hwhole, hpadding⟩ := ih
    refine ⟨base64Digit (a.toNat / 4) :: base64Digit (a.toNat % 4 * 16 + b.toNat / 16) ::
      base64Digit (b.toNat % 16 * 4 + c.toNat / 64) :: base64Digit (c.toNat % 64) :: digits,
        padding, ?_, ?_, ?_, ?_, hpadding⟩
    · rw [List.map_cons, List.map_cons, List.map_cons, base64, heq]
      rfl
    · rw [ofBase64, base64Value_digit _ (by omega), base64Value_digit _ (by omega),
        base64Value_digit _ (by omega), base64Value_digit _ (by omega), hread]
      simp only [Option.bind_eq_bind, Option.bind_some]
      rw [ofNat_eq_of_toNat (b := a) (by omega), ofNat_eq_of_toNat (b := b) (by omega),
        ofNat_eq_of_toNat (b := c) (by omega)]
      rfl
    · simp only [List.forall_mem_cons]
      exact ⟨base64Digit_plain _ (by omega), base64Digit_plain _ (by omega),
        base64Digit_plain _ (by omega), base64Digit_plain _ (by omega), hdigit⟩
    · simp only [List.cons_append, List.length_cons]
      omega

theorem Padded.unpad_eq {bytes : Bytes} {digits padding : Utf16} (h : Padded bytes digits padding) :
    unpad (digits ++ padding) = digits := by
  unfold unpad
  have hlast : digits.getLast? ≠ some 0x3D := by
    intro hlast
    exact (h.digit _ (List.mem_of_getLast? hlast)).1 rfl
  rcases h.padding with rfl | rfl | rfl
  · rw [List.append_nil, if_neg fun hpad => hlast hpad.2]
  · rw [if_pos ⟨h.whole, List.getLast?_concat⟩, List.dropLast_concat, if_neg hlast]
  · have hsplit : digits ++ [0x3D, 0x3D] = digits ++ [0x3D] ++ [0x3D] := by
      rw [List.append_assoc]
      rfl
    rw [if_pos ⟨h.whole, by rw [hsplit, List.getLast?_concat]⟩, hsplit, List.dropLast_concat,
      List.getLast?_concat, if_pos rfl, List.dropLast_concat]

/-- What `btoa` writes of octets is read back. -/
theorem atob_base64 (bytes : Bytes) : atob (base64 (bytes.map UInt8.toNat)) = some bytes := by
  obtain ⟨digits, padding, heq, h⟩ := exists_padded bytes
  have hfilter : (digits ++ padding).filter (!isAsciiWhitespace ·) = digits ++ padding := by
    rw [List.filter_eq_self]
    intro u hu
    rcases List.mem_append.mp hu with hu | hu
    · rw [(h.digit u hu).2]
      rfl
    · rcases h.padding with rfl | rfl | rfl
      · cases hu
      · rw [List.mem_singleton.mp hu]
        rfl
      · obtain rfl : u = 0x3D := by simpa using hu
        rfl
  rw [atob, heq, hfilter, h.unpad_eq, h.read]

end WarrenSdk.Lib
