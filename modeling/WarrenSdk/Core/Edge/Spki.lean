import WarrenSdk.Core.Edge.TokenArithmetic
import WarrenSdk.Core.Edge.Varint
import WarrenSdk.Lib.Bytes

/-!
# The issuer's key in its encoding (`edge/token.ts`)

`readTlv` finds the content of every value whose length an `int32` holds, so that the key of an
issuer is read whatever its size and whatever identifies its algorithm.
-/

namespace WarrenSdk.Core
open Lib Der

@[simp] theorem byteAt_append (pre suf : Bytes) (b : UInt8) :
    byteAt (pre ++ b :: suf) pre.length = b := by
  rw [byteAt, if_neg (by omega), Int.toNat_natCast, List.getD_eq_getElem?_getD,
    List.getElem?_append_right (Nat.le_refl _), Nat.sub_self]
  rfl

/-- One round of `readLength`, without a carry out of 32 bits. -/
theorem shiftLeft_or_byte (len : BitVec 32) (b : UInt8) :
    (len <<< 8) ||| b.toBitVec.setWidth 32 = BitVec.ofNat 32 (len.toNat * 256 + b.toNat) := by
  have hb : b.toNat < 2 ^ 8 := b.toNat_lt
  apply BitVec.eq_of_toNat_eq
  have hlow : (b.toBitVec.setWidth 32).toNat = b.toNat := by
    rw [BitVec.toNat_setWidth]
    exact Nat.mod_eq_of_lt (by have := b.toNat_lt; omega)
  have hhigh : (len <<< 8).toNat = 2 ^ 8 * (len.toNat % 2 ^ 24) := by
    rw [BitVec.toNat_shiftLeft, Nat.shiftLeft_eq]
    omega
  rw [BitVec.toNat_or, hlow, hhigh, ← Nat.two_pow_add_eq_or_of_lt hb, BitVec.toNat_ofNat]
  omega

theorem readLength_eq (pre octets suf : Bytes) (len : BitVec 32) :
    readLength (pre ++ octets ++ suf) octets.length len pre.length =
      (BitVec.ofNat 32 (len.toNat * 256 ^ octets.length + ofBE octets),
        ((pre ++ octets).length : Int)) := by
  induction octets generalizing pre len with
  | nil =>
    rw [List.length_nil, readLength, Nat.pow_zero, Nat.mul_one, ofBE_nil, Nat.add_zero,
      List.append_nil, BitVec.ofNat_toNat, BitVec.setWidth_eq]
  | cons b octets ih =>
    have hder : pre ++ b :: octets ++ suf = (pre ++ [b]) ++ octets ++ suf := by simp
    have hat : byteAt (pre ++ [b] ++ octets ++ suf) pre.length = b := by
      rw [List.append_assoc, List.append_assoc]
      exact byteAt_append pre (octets ++ suf) b
    have hnext : (pre.length : Int) + 1 = (pre ++ [b]).length := by simp
    rw [hder, List.length_cons, readLength, hat, hnext, ih, shiftLeft_or_byte]
    refine Prod.ext ?_ (by simp)
    apply BitVec.eq_of_toNat_eq
    rw [BitVec.toNat_ofNat, BitVec.toNat_ofNat, BitVec.toNat_ofNat, ofBE_cons]
    rw [Nat.add_mod, Nat.mod_mul_mod, ← Nat.add_mod]
    congr 1
    ring

/-- A value is found behind its tag and its length. -/
theorem readTlv_eq (h : IsTlv tag content tlv) (pre suf : Bytes) : ∃ head,
    tlv = head ++ content ∧ readTlv (pre ++ tlv ++ suf) pre.length =
      { tag, start := ((pre ++ head).length : Nat), stop := ((pre ++ tlv).length : Nat) } := by
  obtain @⟨length, hlength⟩ := h
  refine ⟨tag :: length, by simp, ?_⟩
  have htag : byteAt (pre ++ (tag :: (length ++ content)) ++ suf) pre.length = tag := by
    rw [List.append_assoc]
    exact byteAt_append pre (length ++ content ++ suf) tag
  cases hlength with
  | short hn =>
    have hlen : byteAt (pre ++ (tag :: ([UInt8.ofNat content.length] ++ content)) ++ suf)
        (pre.length + 1) = UInt8.ofNat content.length := by
      have h := byteAt_append (pre ++ [tag]) (content ++ suf) (UInt8.ofNat content.length)
      simpa using h
    have hvalue : (UInt8.ofNat content.length).toNat = content.length := by
      rw [UInt8.toNat_ofNat']
      omega
    have hclear : UInt8.ofNat content.length &&& 0x80 = 0 := (and_high _).mpr (by omega)
    unfold readTlv
    simp only [htag, hlen, hclear, hvalue, not_true, if_false, ne_eq]
    simp
    omega
  | @long k _ hk1 hk4 hn hn31 =>
    have hcount : (UInt8.ofNat (128 + k)).toNat = 128 + k := by
      rw [UInt8.toNat_ofNat']
      omega
    have hlen : byteAt (pre ++
      (tag :: (UInt8.ofNat (128 + k) :: toBE k content.length ++ content)) ++
        suf) (pre.length + 1) = UInt8.ofNat (128 + k) := by
      have h := byteAt_append (pre ++ [tag]) (toBE k content.length ++ content ++ suf)
        (UInt8.ofNat (128 + k))
      simpa using h
    have hset : UInt8.ofNat (128 + k) &&& 0x80 ≠ 0 := mt (and_high _).mp (by omega)
    have hlow : (UInt8.ofNat (128 + k) &&& 0x7f).toNat = k := by
      rw [and_low, hcount]
      omega
    have hread := readLength_eq (pre ++ [tag, UInt8.ofNat (128 + k)]) (toBE k content.length)
      (content ++ suf) 0
    have hder : pre ++ [tag, UInt8.ofNat (128 + k)] ++ toBE k content.length ++ (content ++ suf) =
        pre ++ (tag :: (UInt8.ofNat (128 + k) :: toBE k content.length ++ content)) ++ suf := by
      simp
    have hat : (((pre ++ [tag, UInt8.ofNat (128 + k)]).length : Nat) : Int) =
        pre.length + 1 + 1 := by
      simp
      omega
    rw [hder, length_toBE, ofBE_toBE_of_lt hn, hat] at hread
    have hint : (BitVec.ofNat 32 ((0 : BitVec 32).toNat * 256 ^ k + content.length)).toInt =
        content.length := by
      have hnat : (BitVec.ofNat 32 ((0 : BitVec 32).toNat * 256 ^ k + content.length)).toNat =
          content.length := by
        have hzero : (0 : BitVec 32).toNat = 0 := rfl
        rw [BitVec.toNat_ofNat, hzero, Nat.zero_mul, Nat.zero_add]
        exact Nat.mod_eq_of_lt (by omega)
      rw [BitVec.toInt_eq_toNat_of_lt (by rw [hnat]; omega), hnat]
    unfold readTlv
    simp only [htag, hlen, hset, hlow, hread, hint, ne_eq, not_false_iff, if_true]
    simp
    omega

/-! ## The key -/

theorem subarray_append (pre content suf : Bytes) :
    subarray (pre ++ content ++ suf) pre.length ((pre ++ content).length : Nat) = content := by
  have hstart : ¬ ((pre.length : Nat) : Int) < 0 := by omega
  have hstop : ¬ (((pre ++ content).length : Nat) : Int) < 0 := by omega
  unfold subarray
  simp only [hstart, hstop, if_false, Int.toNat_natCast]
  rw [Nat.min_eq_left (by simp), Nat.min_eq_left (by simp), List.take_left, List.drop_left]

theorem os2ip_strip (content : Bytes) : os2ip (strip content) = ofBE content := by
  rw [os2ip_eq]
  unfold strip
  split
  · next h => exact ofBE_drop_zero h.2
  · rfl

/-- The key of an issuer is read from every encoding of it. -/
theorem issuerPublicKeyFromSpki_exact (H : Hashes) (n e : Nat) (spki : Bytes)
    (h : IsSpki n e spki) :
    issuerPublicKeyFromSpki H spki = .ok { n, e, keyId := H.sha256 spki } := by
  obtain ⟨algorithm, algId, modulus, exponent, nTlv, eTlv, rsaSeq, bitString, hn, he, hnTlv, heTlv,
    hrsa, hbits, halg, hspki⟩ := h
  -- what stands before each value in turn
  obtain ⟨head, hhead, houter⟩ := readTlv_eq hspki [] []
  obtain ⟨_, -, halgId⟩ := readTlv_eq halg ([] ++ head) bitString
  obtain ⟨bitsHead, hbitsHead, hbitString⟩ := readTlv_eq hbits ([] ++ head ++ algId) []
  obtain ⟨rsaHead, hrsaHead, hrsaSeq⟩ := readTlv_eq hrsa ([] ++ head ++ algId ++ bitsHead ++ [0]) []
  obtain ⟨nHead, hnHead, hnRead⟩ :=
    readTlv_eq hnTlv ([] ++ head ++ algId ++ bitsHead ++ [0] ++ rsaHead) eTlv
  obtain ⟨eHead, heHead, heRead⟩ :=
    readTlv_eq heTlv ([] ++ head ++ algId ++ bitsHead ++ [0] ++ rsaHead ++ nTlv) []
  have hspki0 : [] ++ spki ++ [] = spki := by simp
  have hspki1 : [] ++ head ++ algId ++ bitString = spki := by simp [hhead]
  have hspki2 : [] ++ head ++ algId ++ bitString ++ [] = spki := by simp [hhead]
  have hspki3 : [] ++ head ++ algId ++ bitsHead ++ [0] ++ rsaSeq ++ [] = spki := by
    simp [hhead, hbitsHead]
  have hspki4 : [] ++ head ++ algId ++ bitsHead ++ [0] ++ rsaHead ++ nTlv ++ eTlv = spki := by
    simp [hhead, hbitsHead, hrsaHead]
  have hspki5 : [] ++ head ++ algId ++ bitsHead ++ [0] ++ rsaHead ++ nTlv ++ eTlv ++ [] = spki := by
    rw [List.append_nil, hspki4]
  rw [hspki0] at houter
  rw [hspki1] at halgId
  rw [hspki2] at hbitString
  rw [hspki3] at hrsaSeq
  rw [hspki4] at hnRead
  rw [hspki5] at heRead
  have hzero : ((([] : Bytes).length : Nat) : Int) = 0 := rfl
  have hunused (front : Bytes) : ((front.length : Nat) : Int) + 1 =
      ((front ++ [0]).length : Nat) := by
    rw [List.length_append]
    rfl
  have hmodulus : subarray spki
      (([] ++ head ++ algId ++ bitsHead ++ [0] ++ rsaHead ++ nHead).length : Nat)
      (([] ++ head ++ algId ++ bitsHead ++ [0] ++ rsaHead ++ nTlv).length : Nat) = modulus := by
    have h := subarray_append ([] ++ head ++ algId ++ bitsHead ++ [0] ++ rsaHead ++ nHead)
      modulus eTlv
    rw [List.append_assoc _ nHead modulus, ← hnHead, hspki4] at h
    exact h
  have hexponent : subarray spki
      (([] ++ head ++ algId ++ bitsHead ++ [0] ++ rsaHead ++ nTlv ++ eHead).length : Nat)
      (([] ++ head ++ algId ++ bitsHead ++ [0] ++ rsaHead ++ nTlv ++ eTlv).length : Nat) =
        exponent := by
    have h := subarray_append ([] ++ head ++ algId ++ bitsHead ++ [0] ++ rsaHead ++ nTlv ++ eHead)
      exponent []
    rw [List.append_assoc _ eHead exponent, ← heHead, hspki5] at h
    exact h
  rw [hzero] at houter
  unfold issuerPublicKeyFromSpki
  simp only [houter, halgId, hbitString, hunused, hrsaSeq, hnRead, heRead, ne_eq, not_true,
    if_false, hmodulus, hexponent, issuerPublicKey, os2ip_strip, hn.value, he.value]

/-- A modulus whose top bit is set, the outermost length in two octets. -/
def smallSpki : Bytes := [0x30, 0x82, 0, 18, 0x30, 2, 5, 0, 0x03, 12, 0, 0x30, 9,
  0x02, 3, 0, 0xC1, 0xA1, 0x02, 2, 1, 1]

/-- The hash functions as far as this one key goes. -/
def smallSpkiHashes : Hashes where
  sha256 _ :=
    ⟨toBE 32 0xb1efce62cdf81b1dc155d276609f30f3cf98eaea4e5e96556ae18df3620361d9, length_toBE _ _⟩
  sha384 _ := .zero 48
  hkdf _ _ _ := .zero 32

theorem smallSpki_isSpki : IsSpki 0xC1A1 257 smallSpki := by
  have hn : IsPositive 0xC1A1 [0, 0xC1, 0xA1] :=
    ⟨by decide, by decide, fun b hb => by cases Option.some.inj hb; decide⟩
  have he : IsPositive 257 [1, 1] :=
    ⟨by decide, by decide, fun b hb => by cases Option.some.inj hb; decide⟩
  refine ⟨[5, 0], [0x30, 2, 5, 0], [0, 0xC1, 0xA1], [1, 1],
    [0x02, 3, 0, 0xC1, 0xA1], [0x02, 2, 1, 1], [0x30, 9, 0x02, 3, 0, 0xC1, 0xA1, 0x02, 2, 1, 1],
    [0x03, 12, 0, 0x30, 9, 0x02, 3, 0, 0xC1, 0xA1, 0x02, 2, 1, 1], hn, he,
    .mk (.short (by decide)), .mk (.short (by decide)), .mk (.short (by decide)),
    .mk (.short (by decide)), .mk (.short (by decide)), ?_⟩
  exact @IsTlv.mk _ _ [0x82, 0, 18]
    (.long (k := 2) (by decide) (by decide) (by decide) (by decide))

theorem issuerPublicKeyFromSpki_exact_small :
    issuerPublicKeyFromSpki smallSpkiHashes smallSpki =
      .ok { n := 0xC1A1, e := 257, keyId := smallSpkiHashes.sha256 smallSpki } :=
  issuerPublicKeyFromSpki_exact smallSpkiHashes _ _ _ smallSpki_isSpki

end WarrenSdk.Core
