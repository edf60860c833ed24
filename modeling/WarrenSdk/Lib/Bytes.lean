import Mathlib.Data.List.Induction
import Mathlib.Data.Nat.Basic
import Mathlib.Tactic.Ring

/-!
# Octet strings

Octet strings as lists of octets, the number a big-endian octet string denotes (`ofBE`), and the
octet string of a fixed width that denotes a number modulo the width (`toBE`). The two are inverse
to each other between the strings of a length and the numbers that fit it.
-/

namespace WarrenSdk.Lib

abbrev Bytes := List UInt8

/-- The octet strings of length `n`. -/
abbrev Octets (n : Nat) := { bs : Bytes // bs.length = n }

/-- One octet string after the other. -/
def Octets.append (a : Octets m) (b : Octets n) : Octets (m + n) :=
  ⟨a.1 ++ b.1, by rw [List.length_append, a.2, b.2]⟩

def Octets.zero (n : Nat) : Octets n := ⟨List.replicate n 0, List.length_replicate⟩

/-- The number a big-endian octet string denotes. -/
def ofBE (bs : Bytes) : Nat := bs.foldl (fun n b => n * 256 + b.toNat) 0

/-- The `k` low-order octets of `n`, big-endian. -/
def toBE : Nat → Nat → Bytes
  | 0, _ => []
  | k + 1, n => toBE k (n / 256) ++ [UInt8.ofNat n]

/-! ## Numbers of octet strings -/

theorem foldl_ofBE (bs : Bytes) (n : Nat) :
    bs.foldl (fun n b => n * 256 + b.toNat) n = n * 256 ^ bs.length + ofBE bs := by
  induction bs generalizing n with
  | nil => simp [ofBE]
  | cons b bs ih =>
    simp only [ofBE, List.foldl_cons, List.length_cons]
    rw [ih, ih (0 * 256 + b.toNat)]
    ring

@[simp] theorem ofBE_nil : ofBE [] = 0 := rfl

theorem ofBE_append (bs cs : Bytes) : ofBE (bs ++ cs) = ofBE bs * 256 ^ cs.length + ofBE cs := by
  rw [ofBE, List.foldl_append]
  exact foldl_ofBE cs _

theorem ofBE_concat (bs : Bytes) (b : UInt8) : ofBE (bs ++ [b]) = ofBE bs * 256 + b.toNat := by
  rw [ofBE_append]
  simp [ofBE]

theorem ofBE_cons (b : UInt8) (bs : Bytes) :
    ofBE (b :: bs) = b.toNat * 256 ^ bs.length + ofBE bs := by
  rw [← List.singleton_append, ofBE_append]
  simp [ofBE]

theorem ofBE_lt (bs : Bytes) : ofBE bs < 256 ^ bs.length := by
  induction bs using List.reverseRecOn with
  | nil => simp
  | append_singleton bs b ih =>
    have hb : b.toNat < 256 := b.toNat_lt
    rw [ofBE_concat, List.length_append, List.length_singleton, Nat.pow_succ]
    omega

/-! ## Fixed width -/

@[simp] theorem length_toBE (k n : Nat) : (toBE k n).length = k := by
  induction k generalizing n with
  | zero => rfl
  | succ k ih => simp [toBE, ih]

theorem ofBE_toBE (k n : Nat) : ofBE (toBE k n) = n % 256 ^ k := by
  induction k generalizing n with
  | zero => simp [toBE, Nat.mod_one]
  | succ k ih =>
    have hb : (UInt8.ofNat n).toNat = n % 256 := UInt8.toNat_ofNat'
    rw [toBE, ofBE_concat, ih, hb, Nat.pow_succ, Nat.mul_comm (256 ^ k), Nat.mod_mul]
    ring

theorem ofBE_toBE_of_lt (h : n < 256 ^ k) : ofBE (toBE k n) = n := by
  rw [ofBE_toBE, Nat.mod_eq_of_lt h]

theorem toBE_ofBE (bs : Bytes) : toBE bs.length (ofBE bs) = bs := by
  induction bs using List.reverseRecOn with
  | nil => rfl
  | append_singleton bs b ih =>
    have hb : b.toNat < 256 := b.toNat_lt
    have hdiv : ofBE (bs ++ [b]) / 256 = ofBE bs := by rw [ofBE_concat]; omega
    have hlow : UInt8.ofNat (ofBE (bs ++ [b])) = b := by
      apply UInt8.toNat_inj.mp
      rw [UInt8.toNat_ofNat', ofBE_concat]
      omega
    rw [List.length_append, List.length_singleton, toBE, hdiv, hlow, ih]

/-- Octet strings of one length are told apart by their numbers. -/
theorem eq_of_ofBE {bs cs : Bytes} (hl : bs.length = cs.length) (h : ofBE bs = ofBE cs) :
    bs = cs := by
  rw [← toBE_ofBE bs, ← toBE_ofBE cs, hl, h]

theorem toBE_eq_iff {k m n : Nat} : toBE k m = toBE k n ↔ m % 256 ^ k = n % 256 ^ k := by
  constructor
  · intro h
    rw [← ofBE_toBE, ← ofBE_toBE, h]
  · intro h
    exact eq_of_ofBE (by simp) (by rw [ofBE_toBE, ofBE_toBE, h])

theorem toBE_inj {k m n : Nat} (hm : m < 256 ^ k) (hn : n < 256 ^ k) (h : toBE k m = toBE k n) :
    m = n := by
  rw [← ofBE_toBE_of_lt hm, h, ofBE_toBE_of_lt hn]

end WarrenSdk.Lib

/-! ## Distinguished encoding rules

Values behind a tag and a length, the length in one octet or in up to four that are counted, and the
positive integers and public keys that are built of them. -/

namespace WarrenSdk.Lib.Der

/-- The octets of a length: one below 128, or up to four of a length that an `int32` holds, behind
their number. -/
inductive IsLength : Nat → Bytes → Prop
  | short : n < 128 → IsLength n [UInt8.ofNat n]
  | long : 1 ≤ k → k ≤ 4 → n < 256 ^ k → n < 2 ^ 31 →
    IsLength n (UInt8.ofNat (128 + k) :: toBE k n)

/-- A value behind its tag and its length. -/
inductive IsTlv (tag : UInt8) (content : Bytes) : Bytes → Prop
  | mk : IsLength content.length length → IsTlv tag content (tag :: (length ++ content))

/-- The content of a positive integer: its sign bit is clear. -/
structure IsPositive (n : Nat) (content : Bytes) : Prop where
  value : ofBE content = n
  pos : 0 < n
  sign : ∀ b ∈ content.head?, b.toNat < 128

/-- A public key of RSA with whatever identifier of its algorithm: two integers in a bit string
without unused bits. -/
structure IsSpki (n e : Nat) (spki : Bytes) : Prop where
  parts : ∃ algorithm algId modulus exponent nTlv eTlv rsaSeq bitString,
    IsPositive n modulus ∧ IsPositive e exponent ∧
    IsTlv 0x02 modulus nTlv ∧ IsTlv 0x02 exponent eTlv ∧
    IsTlv 0x30 (nTlv ++ eTlv) rsaSeq ∧ IsTlv 0x03 (0x00 :: rsaSeq) bitString ∧
    IsTlv 0x30 algorithm algId ∧ IsTlv 0x30 (algId ++ bitString) spki

theorem ofBE_drop_zero {content : Bytes} (h : content.getD 0 0 = 0) :
    ofBE (content.drop 1) = ofBE content := by
  cases content with
  | nil => rfl
  | cons b content =>
    have hb : b = 0 := h
    rw [List.drop_succ_cons, List.drop_zero, ofBE_cons, hb]
    simp

end WarrenSdk.Lib.Der
