import WarrenSdk.Lib.Utf16

/-!
# UTF-8 with replacement

What decoders of text make of octets: every sequence that is no encoding, up to the first octet that
shows it, becomes one replacement character. What the encoder writes is read back (`decode_encode`).
-/

namespace WarrenSdk.Lib.Utf8

/-- A sequence that has begun: how many octets it still needs, the bits of the ones read, and the
bounds of the next. -/
structure Pending where
  needed : Nat
  codePoint : Nat
  lower : Nat := 0x80
  upper : Nat := 0xBF

/-- An octet where no sequence has begun. -/
def start (b : Nat) : List Char × Option Pending :=
  if b < 0x80 then ([Char.ofNat b], none)
  else if 0xC2 ≤ b ∧ b < 0xE0 then ([], some { needed := 1, codePoint := b % 0x20 })
  else if 0xE0 ≤ b ∧ b < 0xF0 then
    ([], some {
      needed := 2, codePoint := b % 0x10
      lower := if b = 0xE0 then 0xA0 else 0x80
      upper := if b = 0xED then 0x9F else 0xBF })
  else if 0xF0 ≤ b ∧ b < 0xF5 then
    ([], some {
      needed := 3, codePoint := b % 8
      lower := if b = 0xF0 then 0x90 else 0x80
      upper := if b = 0xF4 then 0x8F else 0xBF })
  else ([Utf16.replacement], none)

def next (p : Option Pending) (b : Nat) : List Char × Option Pending :=
  match p with
  | none => start b
  | some p =>
    if p.lower ≤ b ∧ b ≤ p.upper then
      let codePoint := p.codePoint * 0x40 + b % 0x40
      if p.needed = 1 then ([Char.ofNat codePoint], none)
      else ([], some { needed := p.needed - 1, codePoint })
    else
      let (cs, p) := start b
      (Utf16.replacement :: cs, p)

def decodeFrom : Option Pending → Bytes → List Char
  | none, [] => []
  | some _, [] => [Utf16.replacement]
  | p, b :: bs => (next p b.toNat).1 ++ decodeFrom (next p b.toNat).2 bs

/-- `Buffer.toString('utf8')`: a byte order mark stays. -/
def decode (bytes : Bytes) : Utf16 := Utf16.ofChars (decodeFrom none bytes)

def byteOrderMark : Bytes := [0xEF, 0xBB, 0xBF]

/-- `TextDecoder.decode`: a byte order mark in front is left out. -/
def decodeText (bytes : Bytes) : Utf16 :=
  decode (if byteOrderMark <+: bytes then bytes.drop 3 else bytes)

variable {p : Pending} {n : Nat}

theorem decodeFrom_octet (p : Option Pending) (hn : n < 256) (bytes : Bytes) :
    decodeFrom p (UInt8.ofNat n :: bytes) = (next p n).1 ++ decodeFrom (next p n).2 bytes := by
  have hb : (UInt8.ofNat n).toNat = n := UInt8.toNat_ofNat_of_lt' hn
  cases p <;> rw [decodeFrom, hb]

theorem decodeFrom_last (hn : n < 256) (hl : p.lower ≤ n) (hu : n ≤ p.upper)
    (hneeded : p.needed = 1)
    (bytes : Bytes) : decodeFrom (some p) (UInt8.ofNat n :: bytes) =
      Char.ofNat (p.codePoint * 0x40 + n % 0x40) :: decodeFrom none bytes := by
  rw [decodeFrom_octet _ hn, next]
  dsimp only
  rw [if_pos ⟨hl, hu⟩, if_pos hneeded]
  rfl

theorem decodeFrom_more (hn : n < 256) (hl : p.lower ≤ n) (hu : n ≤ p.upper)
    (hneeded : p.needed ≠ 1)
    (bytes : Bytes) : decodeFrom (some p) (UInt8.ofNat n :: bytes) =
      decodeFrom (some { needed := p.needed - 1, codePoint := p.codePoint * 0x40 + n % 0x40 })
        bytes := by
  rw [decodeFrom_octet _ hn, next]
  dsimp only
  rw [if_pos ⟨hl, hu⟩, if_neg hneeded]
  rfl

theorem decodeFrom_utf8EncodeChar (c : Char) (rest : Bytes) :
    decodeFrom none (String.utf8EncodeChar c ++ rest) = c :: decodeFrom none rest := by
  have hv := Utf16.toNat_char_cases c
  have hc : c.val.toNat = c.toNat := rfl
  have hback : Char.ofNat c.toNat = c := Char.ofNat_toNat c
  unfold String.utf8EncodeChar
  dsimp only
  rw [hc]
  generalize c.toNat = v at hv hback
  split
  · next h1 =>
    rw [List.cons_append, List.nil_append, decodeFrom_octet _ (by omega), next, start,
      if_pos (by omega), hback]
    rfl
  · next h1 =>
    split
    · next h2 =>
      simp only [List.cons_append, List.nil_append]
      rw [decodeFrom_octet _ (by omega), next, start, if_neg (by omega), if_pos (by omega),
        List.nil_append, decodeFrom_last (by omega) (by dsimp only; omega)
          (by dsimp only; omega) rfl]
      have hcode : (v / 64 % 32 + 192) % 0x20 * 0x40 + (v % 64 + 128) % 0x40 = v := by omega
      rw [hcode, hback]
    · next h2 =>
      split
      · next h3 =>
        simp only [List.cons_append, List.nil_append]
        rw [decodeFrom_octet _ (by omega), next, start, if_neg (by omega), if_neg (by omega),
          if_pos (by omega), List.nil_append,
          decodeFrom_more (by omega) (by dsimp only; split <;> omega)
            (by dsimp only; split <;> omega) (by dsimp only; omega),
          decodeFrom_last (by omega) (by dsimp only; omega) (by dsimp only; omega) rfl]
        have hcode : ((v / 4096 % 16 + 224) % 0x10 * 0x40 + (v / 64 % 64 + 128) % 0x40) * 0x40 +
            (v % 64 + 128) % 0x40 = v := by omega
        rw [hcode, hback]
      · next h3 =>
        simp only [List.cons_append, List.nil_append]
        rw [decodeFrom_octet _ (by omega), next, start, if_neg (by omega), if_neg (by omega),
          if_neg (by omega), if_pos (by omega), List.nil_append,
          decodeFrom_more (by omega) (by dsimp only; split <;> omega)
            (by dsimp only; split <;> omega) (by dsimp only; omega),
          decodeFrom_more (by omega) (by dsimp only; omega) (by dsimp only; omega)
            (by dsimp only; omega),
          decodeFrom_last (by omega) (by dsimp only; omega) (by dsimp only; omega) rfl]
        have hcode : (((v / 262144 % 8 + 240) % 8 * 0x40 + (v / 4096 % 64 + 128) % 0x40) * 0x40 +
            (v / 64 % 64 + 128) % 0x40) * 0x40 + (v % 64 + 128) % 0x40 = v := by omega
        rw [hcode, hback]

theorem decodeFrom_flatMap (cs : List Char) :
    decodeFrom none (cs.flatMap String.utf8EncodeChar) = cs := by
  induction cs with
  | nil => rfl
  | cons c cs ih => rw [List.flatMap_cons, decodeFrom_utf8EncodeChar, ih]

/-- What is read of the encoding of a string is the string, its lone surrogates replaced. -/
theorem decode_utf8 (s : Utf16) : decode (Utf16.utf8 s) = Utf16.toWellFormed s :=
  congrArg Utf16.ofChars (decodeFrom_flatMap _)

/-- Text is read back, unless it begins with a byte order mark. -/
theorem decodeText_utf8 {s : Utf16} (h : Utf16.WellFormed s) (hmark : s.head? ≠ some 0xFEFF) :
    decodeText (Utf16.utf8 s) = s := by
  have hback : decode (Utf16.utf8 s) = s := (decode_utf8 s).trans h
  unfold decodeText
  rw [if_neg ?_]
  · exact hback
  · rintro ⟨rest, hrest⟩
    have hencode : String.utf8EncodeChar (Char.ofNat 0xFEFF) = byteOrderMark := by decide
    have hunits : Utf16.units (Char.ofNat 0xFEFF) = [0xFEFF] := by decide
    apply hmark
    rw [← hback, ← hrest, ← hencode, decode, decodeFrom_utf8EncodeChar, Utf16.ofChars,
      List.flatMap_cons, hunits]
    rfl

/-! ## Texts that are cut -/

/-- A part of the encoding of a character is read as one replacement. -/
theorem decodeFrom_cutChar (c : Char) {part : Bytes} (h : part <+: String.utf8EncodeChar c)
    (hnil : part ≠ []) (hne : part ≠ String.utf8EncodeChar c) :
    decodeFrom none part = [Utf16.replacement] := by
  have hv := Utf16.toNat_char_cases c
  have hc : c.val.toNat = c.toNat := rfl
  unfold String.utf8EncodeChar at h hne
  dsimp only at h hne
  rw [hc] at h hne
  generalize c.toNat = v at hv h hne
  obtain rfl | ⟨b, part₁, rfl⟩ : part = [] ∨ ∃ b bs, part = b :: bs := by
    cases part with
    | nil => exact .inl rfl
    | cons b bs => exact .inr ⟨b, bs, rfl⟩
  · exact absurd rfl hnil
  split at h
  · next h1 =>
    rw [if_pos h1] at hne
    obtain ⟨rfl, h₁⟩ := List.cons_prefix_cons.mp h
    exact absurd (congrArg _ (List.prefix_nil.mp h₁)) hne
  next h1 =>
  rw [if_neg h1] at hne
  split at h
  · next h2 =>
    rw [if_pos h2] at hne
    obtain ⟨rfl, h₁⟩ := List.cons_prefix_cons.mp h
    obtain rfl | ⟨part₂, rfl, h₂⟩ := List.prefix_cons_iff.mp h₁
    · rw [decodeFrom_octet _ (by omega), next, start, if_neg (by omega), if_pos (by omega)]
      rfl
    · rw [List.prefix_nil.mp h₂] at hne
      exact absurd rfl hne
  next h2 =>
  rw [if_neg h2] at hne
  split at h
  · next h3 =>
    rw [if_pos h3] at hne
    obtain ⟨rfl, h₁⟩ := List.cons_prefix_cons.mp h
    rw [decodeFrom_octet _ (by omega), next, start, if_neg (by omega), if_neg (by omega),
      if_pos (by omega), List.nil_append]
    obtain rfl | ⟨part₂, rfl, h₂⟩ := List.prefix_cons_iff.mp h₁
    · rfl
    rw [decodeFrom_more (by omega) (by dsimp only; split <;> omega)
        (by dsimp only; split <;> omega) (by dsimp only; omega)]
    obtain rfl | ⟨part₃, rfl, h₃⟩ := List.prefix_cons_iff.mp h₂
    · rfl
    · rw [List.prefix_nil.mp h₃] at hne
      exact absurd rfl hne
  · next h3 =>
    rw [if_neg h3] at hne
    obtain ⟨rfl, h₁⟩ := List.cons_prefix_cons.mp h
    rw [decodeFrom_octet _ (by omega), next, start, if_neg (by omega), if_neg (by omega),
      if_neg (by omega), if_pos (by omega), List.nil_append]
    obtain rfl | ⟨part₂, rfl, h₂⟩ := List.prefix_cons_iff.mp h₁
    · rfl
    rw [decodeFrom_more (by omega) (by dsimp only; split <;> omega)
        (by dsimp only; split <;> omega) (by dsimp only; omega)]
    obtain rfl | ⟨part₃, rfl, h₃⟩ := List.prefix_cons_iff.mp h₂
    · rfl
    rw [decodeFrom_more (by omega) (by dsimp only; omega) (by dsimp only; omega)
        (by dsimp only; omega)]
    obtain rfl | ⟨part₄, rfl, h₄⟩ := List.prefix_cons_iff.mp h₃
    · rfl
    · rw [List.prefix_nil.mp h₄] at hne
      exact absurd rfl hne

/-- What is read of a text that is cut: characters of it, and a replacement if the last was cut. -/
theorem decodeFrom_cut {cs : List Char} {part : Bytes}
    (h : part <+: cs.flatMap String.utf8EncodeChar) :
    ∃ k, part = (cs.take k).flatMap String.utf8EncodeChar ∨
      decodeFrom none part = cs.take k ++ [Utf16.replacement] := by
  induction cs generalizing part with
  | nil => exact ⟨0, .inl (List.prefix_nil.mp h)⟩
  | cons c cs ih =>
    rw [List.flatMap_cons] at h
    rcases List.prefix_or_prefix_of_prefix h (List.prefix_append _ _) with h | ⟨part, rfl⟩
    · by_cases hnil : part = []
      · exact ⟨0, .inl hnil⟩
      · by_cases hne : part = String.utf8EncodeChar c
        · refine ⟨1, .inl ?_⟩
          rw [hne]
          simp
        · exact ⟨0, .inr (decodeFrom_cutChar c h hnil hne)⟩
    · obtain ⟨k, rfl | hk⟩ := ih ((List.prefix_append_right_inj _).mp h)
      · exact ⟨k + 1, .inl rfl⟩
      · refine ⟨k + 1, .inr ?_⟩
        rw [decodeFrom_utf8EncodeChar, hk]
        rfl

end WarrenSdk.Lib.Utf8
