import Mathlib.Data.Rat.Defs
import WarrenSdk.Core.Errors
import WarrenSdk.Lib.Leb128

/-!
# Postcard integers (`edge/varint.ts`)

The encoder writes the shortest form of every natural number. The decoder takes any form of at most
ten octets, shortest or not, of numbers of up to 70 bits.
-/

namespace WarrenSdk.Core
open Lib

/-- The loop of `encodeLeb128`. -/
def encodeGroups (v : Nat) : Bytes :=
  let byte := v &&& 0x7F
  let rest := v >>> 7
  if rest = 0 then [UInt8.ofNat byte] else UInt8.ofNat (byte ||| 0x80) :: encodeGroups rest
termination_by v
decreasing_by
  rw [Nat.shiftRight_eq_div_pow] at *
  omega

/-- `encodeLeb128` of a `bigint`. -/
def encodeLeb128 (value : Int) : Except Failure Bytes :=
  if value < 0 then .error (.range "LEB128 encodes non-negative integers only")
  else .ok (encodeGroups value.toNat)

/-- `encodeLeb128` of a `number`, which `BigInt` takes only if it is whole. -/
def encodeLeb128Number (value : Rat) : Except Failure Bytes :=
  if value.den = 1 then encodeLeb128 value.num
  else .error (.range "The number cannot be converted to a BigInt because it is not an integer")

/-- The loop of `decodeLeb128`, with its value, shift and length so far. -/
def decodeGroups (value shift length : Nat) : Bytes → Except Failure (Nat × Nat)
  | [] => .error (.range "truncated LEB128 integer")
  | byte :: rest =>
    let value := value ||| ((byte &&& 0x7F).toNat <<< shift)
    if byte &&& 0x80 = 0 then .ok (value, length + 1)
    else if 70 ≤ shift + 7 then .error (.range "LEB128 integer exceeds 64 bits")
    else decodeGroups value (shift + 7) (length + 1) rest

/-- The value at the front of `input`, and how many octets it takes. -/
def decodeLeb128 (input : Bytes) : Except Failure (Nat × Nat) := decodeGroups 0 0 0 input

/-! ## Encoding -/

theorem encodeGroups_eq (n : Nat) : encodeGroups n = toLeb n := by
  induction n using toLeb.induct with
  | case1 n hlt =>
    have hrest : n >>> 7 = 0 := by
      rw [Nat.shiftRight_eq_div_pow]
      omega
    have hbyte : n &&& 0x7F = n := (Nat.and_two_pow_sub_one_eq_mod n 7).trans (Nat.mod_eq_of_lt hlt)
    rw [encodeGroups, toLeb_of_lt hlt]
    simp only [hrest, hbyte, if_true]
  | case2 n hle ih =>
    have hrest : n >>> 7 = n / 128 := Nat.shiftRight_eq_div_pow n 7
    have hbyte : n &&& 0x7F = n % 128 := Nat.and_two_pow_sub_one_eq_mod n 7
    have hor : n % 128 ||| 0x80 = n % 128 + 128 := by
      have hlow : n % 128 < 2 ^ 7 := Nat.mod_lt n (by decide)
      have h : 2 ^ 7 * 1 + n % 128 = 0x80 ||| n % 128 := Nat.two_pow_add_eq_or_of_lt hlow 1
      rw [Nat.or_comm]
      omega
    rw [encodeGroups, toLeb_of_le (Nat.not_lt.mp hle)]
    simp only [hrest, hbyte, hor, ih]
    rw [if_neg (by omega)]

theorem encodeLeb128_natCast (n : Nat) : encodeLeb128 n = .ok (toLeb n) := by
  rw [encodeLeb128, if_neg (by omega), Int.toNat_natCast, encodeGroups_eq]

/-- The encoder takes exactly the natural numbers. -/
theorem encodeLeb128_eq_ok {value : Int} :
    encodeLeb128 value = .ok bs ↔ ∃ n : Nat, value = n ∧ bs = toLeb n := by
  constructor
  · intro h
    rcases Int.lt_or_le value 0 with hneg | hpos
    · rw [encodeLeb128, if_pos hneg] at h
      cases h
    · obtain ⟨n, rfl⟩ := Int.eq_ofNat_of_zero_le hpos
      rw [encodeLeb128_natCast] at h
      cases h
      exact ⟨n, rfl, rfl⟩
  · rintro ⟨n, rfl, rfl⟩
    exact encodeLeb128_natCast n

theorem encodeLeb128Number_eq_ok {value : Rat} :
    encodeLeb128Number value = .ok bs ↔ ∃ n : Nat, value = n ∧ bs = toLeb n := by
  constructor
  · intro h
    unfold encodeLeb128Number at h
    split at h
    · next hden =>
      obtain ⟨n, hn, rfl⟩ := encodeLeb128_eq_ok.mp h
      refine ⟨n, Rat.ext ?_ hden, rfl⟩
      exact hn
    · cases h
  · rintro ⟨n, rfl, rfl⟩
    exact (if_pos rfl).trans (encodeLeb128_natCast n)

/-! ## Decoding -/

theorem and_low (b : UInt8) : (b &&& 0x7F).toNat = b.toNat % 128 := by
  rw [UInt8.toNat_and]
  exact Nat.and_two_pow_sub_one_eq_mod b.toNat 7

theorem and_high (b : UInt8) : b &&& 0x80 = 0 ↔ b.toNat < 128 := by
  have hall : ∀ n < 256, (n &&& 128 = 0 ↔ n < 128) := by decide +kernel
  rw [← UInt8.toNat_inj, UInt8.toNat_and]
  exact hall b.toNat b.toNat_lt

theorem or_shift (h : value < 2 ^ shift) :
    value ||| (group <<< shift) = value + group * 2 ^ shift := by
  rw [Nat.shiftLeft_eq, Nat.or_comm, Nat.mul_comm group, ← Nat.two_pow_add_eq_or_of_lt h]
  omega

theorem decodeGroups_eq_ok {input : Bytes} (hvalue : value < 2 ^ shift)
    (hshift : shift = 7 * length)
    (hlength : length < 10) : decodeGroups value shift length input = .ok (v, l) ↔
      ∃ bs rest, input = bs ++ rest ∧ IsLeb bs ∧ length + bs.length ≤ 10 ∧
        v = value + ofLeb bs * 2 ^ shift ∧ l = length + bs.length := by
  induction input generalizing value shift length with
  | nil =>
    constructor
    · intro h
      cases h
    · rintro ⟨bs, rest, hinput, hleb, -⟩
      obtain ⟨rfl, rfl⟩ := List.append_eq_nil_iff.mp hinput.symm
      exact hleb.elim
  | cons b input ih =>
    have hgroup := Nat.mod_lt b.toNat (show 128 > 0 by decide)
    rw [decodeGroups, and_low, or_shift hvalue]
    by_cases hlast : b.toNat < 128
    · rw [if_pos ((and_high b).mpr hlast)]
      constructor
      · intro h
        cases h
        refine ⟨[b], input, rfl, hlast, by simp; omega, ?_, rfl⟩
        simp [ofLeb]
      · rintro ⟨bs, rest, hinput, hleb, -, hv, hl⟩
        cases bs with
        | nil => exact hleb.elim
        | cons c bs =>
          obtain ⟨rfl, rfl⟩ := List.cons.inj hinput
          cases bs with
          | nil =>
            subst hv hl
            simp [ofLeb]
          | cons d bs => exact absurd hlast (Nat.not_lt.mpr hleb.1)
    · rw [if_neg (mt (and_high b).mp hlast)]
      have hpow : (2 : Nat) ^ (shift + 7) = 2 ^ shift * 128 := Nat.pow_add 2 shift 7
      have hnext : value + b.toNat % 128 * 2 ^ shift < 2 ^ (shift + 7) := by
        rw [hpow]
        have hmul : (b.toNat % 128 + 1) * 2 ^ shift ≤ 128 * 2 ^ shift :=
          Nat.mul_le_mul_right _ hgroup
        rw [Nat.add_mul, Nat.one_mul] at hmul
        rw [Nat.mul_comm (2 ^ shift)]
        omega
      have htail (bs : Bytes) : value + ofLeb (b :: bs) * 2 ^ shift =
          value + b.toNat % 128 * 2 ^ shift + ofLeb bs * 2 ^ (shift + 7) := by
        rw [hpow, ofLeb]
        ring
      by_cases hfull : 70 ≤ shift + 7
      · rw [if_pos hfull]
        constructor
        · intro h
          cases h
        · rintro ⟨bs, rest, hinput, hleb, hle, -⟩
          cases bs with
          | nil => exact hleb.elim
          | cons c bs =>
            obtain ⟨rfl, rfl⟩ := List.cons.inj hinput
            cases bs with
            | nil => exact absurd hleb hlast
            | cons d bs =>
              simp only [List.length_cons] at hle
              omega
      · rw [if_neg hfull, ih hnext (by omega) (by omega)]
        constructor
        · rintro ⟨bs, rest, rfl, hleb, hle, rfl, rfl⟩
          refine ⟨b :: bs, rest, rfl, isLeb_cons (Nat.not_lt.mp hlast) hleb, ?_,
            (htail bs).symm, ?_⟩
          · rw [List.length_cons]
            omega
          · rw [List.length_cons]
            omega
        · rintro ⟨bs, rest, hinput, hleb, hle, rfl, rfl⟩
          cases bs with
          | nil => exact hleb.elim
          | cons c bs =>
            obtain ⟨rfl, rfl⟩ := List.cons.inj hinput
            cases bs with
            | nil => exact absurd hleb hlast
            | cons d bs =>
              refine ⟨d :: bs, rest, rfl, hleb.2, ?_, htail _, ?_⟩
              · simp only [List.length_cons] at hle ⊢
                omega
              · simp only [List.length_cons]
                omega

/-- The decoder takes any form of a number of at most ten octets. -/
theorem decodeLeb128_eq_ok {input : Bytes} : decodeLeb128 input = .ok (v, l) ↔
    ∃ bs rest, input = bs ++ rest ∧ IsLeb bs ∧ bs.length ≤ 10 ∧ v = ofLeb bs ∧ l = bs.length := by
  have h : decodeGroups 0 0 0 input = .ok (v, l) ↔ ∃ bs rest, input = bs ++ rest ∧ IsLeb bs ∧
      0 + bs.length ≤ 10 ∧ v = 0 + ofLeb bs * 2 ^ 0 ∧ l = 0 + bs.length :=
    decodeGroups_eq_ok (by decide) rfl (by decide)
  simpa [decodeLeb128] using h

/-! ## Sixty-four bits -/

/-- Nine octets that go on and a tenth that ends above one. -/
def TenthOverflows (input : Bytes) : Prop :=
  ∃ groups last rest, input = groups ++ last :: rest ∧ groups.length = 9 ∧
    (∀ b ∈ groups, 128 ≤ b.toNat) ∧ 2 ≤ last.toNat ∧ last.toNat < 128

/-- What the decoder gives back of more than 64 bits. -/
theorem exists_overflow_iff {input : Bytes} :
    (∃ v l, decodeLeb128 input = .ok (v, l) ∧ 2 ^ 64 ≤ v) ↔ TenthOverflows input := by
  have hpow : (128 : Nat) ^ 9 = 2 ^ 63 := by decide
  constructor
  · intro hover
    obtain ⟨v, l, h, hv⟩ := hover
    obtain ⟨bs, rest, rfl, hleb, hle, rfl, rfl⟩ := decodeLeb128_eq_ok.mp h
    obtain ⟨groups, last, rfl, hgroups, hlast⟩ := isLeb_iff.mp hleb
    have hlow := ofLeb_lt groups
    rw [ofLeb_append, ofLeb_singleton hlast] at hv
    rw [List.length_append, List.length_singleton] at hle
    rcases Nat.lt_or_ge groups.length 9 with hlt | hge
    · -- nine octets hold 63 bits
      have hall := ofLeb_lt (groups ++ [last])
      rw [ofLeb_append, ofLeb_singleton hlast, List.length_append, List.length_singleton] at hall
      have hmono : (128 : Nat) ^ (groups.length + 1) ≤ 128 ^ 9 :=
        Nat.pow_le_pow_right (by decide) hlt
      omega
    · have hnine : groups.length = 9 := by omega
      rw [hnine, hpow] at hlow hv
      refine ⟨groups, last, rest, by simp, hnine, hgroups, ?_, hlast⟩
      omega
  · intro htenth
    obtain ⟨groups, last, rest, hinput, hnine, hgroups, hlow, hlast⟩ := htenth
    have hleb : IsLeb (groups ++ [last]) := isLeb_iff.mpr ⟨groups, last, rfl, hgroups, hlast⟩
    have hlength : (groups ++ [last]).length = 10 := by
      rw [List.length_append, hnine, List.length_singleton]
    refine ⟨_, _, decodeLeb128_eq_ok.mpr
      ⟨groups ++ [last], rest, by simp [hinput], hleb, hlength.le, rfl, rfl⟩, ?_⟩
    rw [ofLeb_append, ofLeb_singleton hlast, hnine, hpow]
    omega

theorem decodeLeb128_encodeLeb128 (h : v < 2 ^ 64) (rest : Bytes) :
    decodeLeb128 (toLeb v ++ rest) = .ok (v, (toLeb v).length) := by
  have hlength : (toLeb v).length ≤ 9 + 1 :=
    length_toLeb_le (Nat.lt_of_lt_of_le h (by decide))
  exact decodeLeb128_eq_ok.mpr
    ⟨toLeb v, rest, rfl, isLeb_toLeb v, hlength, (ofLeb_toLeb v).symm, rfl⟩

/-- Every number of 64 bits is read back, and only what the tenth octet overflows is read as
more. -/
theorem decodeLeb128_exact_iff (input : Bytes) :
    (∀ v : Nat, v < 2 ^ 64 → ∃ bytes, encodeLeb128 v = .ok bytes ∧
      encodeLeb128Number v = .ok bytes ∧
      decodeLeb128 (bytes ++ input) = .ok (v, bytes.length)) ∧
    ((∀ v l, decodeLeb128 input = .ok (v, l) → v < 2 ^ 64 ∧ l ≤ 10) ↔ ¬ TenthOverflows input) := by
  constructor
  · intro v hv
    exact ⟨toLeb v, encodeLeb128_natCast v, encodeLeb128Number_eq_ok.mpr ⟨v, rfl, rfl⟩,
      decodeLeb128_encodeLeb128 hv input⟩
  · rw [← exists_overflow_iff]
    constructor
    · intro h ⟨v, l, hok, hv⟩
      exact absurd (h v l hok).1 (Nat.not_lt.mpr hv)
    · intro h v l hok
      obtain ⟨bs, rest, -, -, hle, -, hl⟩ := decodeLeb128_eq_ok.mp hok
      refine ⟨Nat.lt_of_not_le fun hv => h ⟨v, l, hok, hv⟩, ?_⟩
      rw [hl]
      exact hle

theorem decodeLeb128_exceeds :
    ¬ ∀ v l, decodeLeb128 (List.replicate 9 0x80 ++ [2]) = .ok (v, l) → v < 2 ^ 64 ∧ l ≤ 10 := by
  intro h
  exact absurd (h (2 ^ 64) 10 (by decide +kernel)).1 (Nat.lt_irrefl _)

end WarrenSdk.Core
