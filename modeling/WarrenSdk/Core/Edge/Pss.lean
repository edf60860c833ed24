import Mathlib.Data.List.GetD
import Mathlib.Data.Nat.Bitwise
import WarrenSdk.Core.Edge.TokenArithmetic

/-!
# EMSA-PSS accepts what it encodes

With 2047 bits and a salt of 48 octets an encoded message is a masked data block of 207 octets whose
top bit is clear, the hash it is masked under, and a trailer. Masking is its own inverse on such
blocks, so that the verifier recovers the block the encoder padded, and accepts nothing else.
-/

namespace WarrenSdk.Core
open Lib

/-! ## Masking -/

/-- Masks a data block, and unmasks it. -/
def maskBlock (mask block : Bytes) : Bytes := clearLeft 1 (xorBytes 207 block mask)

@[simp] theorem length_xorBytes (n : Nat) (a b : Bytes) : (xorBytes n a b).length = n := by
  simp [xorBytes]

theorem getElem_xorBytes {n i : Nat} {a b : Bytes} (hi : i < (xorBytes n a b).length) :
    (xorBytes n a b)[i] = a.getD i 0 ^^^ b.getD i 0 := by
  simp [xorBytes]

@[simp] theorem length_clearLeft (k : Nat) (bs : Bytes) : (clearLeft k bs).length = bs.length := by
  simp [clearLeft]

@[simp] theorem length_maskBlock (mask block : Bytes) : (maskBlock mask block).length = 207 := by
  rw [maskBlock, length_clearLeft, length_xorBytes]

/-- The top bit is clear. -/
def TopClear (bs : Bytes) : Prop := bs.getD 0 0 &&& 0x7f = bs.getD 0 0

theorem getD_maskBlock (mask block : Bytes) (hi : i < 207) :
    (maskBlock mask block).getD i 0 =
      (block.getD i 0 ^^^ mask.getD i 0) &&& (if i = 0 then 0x7f else 0xff) := by
  have hlen : i < (maskBlock mask block).length := by simpa using hi
  rw [List.getD_eq_getElem _ _ hlen]
  simp only [maskBlock, clearLeft, List.getElem_modify, getElem_xorBytes]
  split
  next h0 =>
    rw [if_pos h0.symm]
    rfl
  next hne =>
    rw [if_neg (fun h => hne h.symm)]
    exact (UInt8.and_neg_one).symm

theorem maskBlock_topClear (mask block : Bytes) : TopClear (maskBlock mask block) := by
  rw [TopClear, getD_maskBlock mask block (by decide), if_pos rfl, UInt8.and_assoc, UInt8.and_self]

theorem xor_and_distrib (x m k : UInt8) : (x ^^^ m) &&& k = (x &&& k) ^^^ (m &&& k) := by
  apply UInt8.toBitVec_inj.mp
  ext i
  simp [Bool.and_xor_distrib_right]

/-- Masking twice under one mask gives the block back. -/
theorem maskBlock_maskBlock {mask block : Bytes} (hlen : block.length = 207)
    (hclear : TopClear block) : maskBlock mask (maskBlock mask block) = block := by
  apply List.ext_getElem
  · rw [length_maskBlock, hlen]
  · intro i hi hi'
    have h207 : i < 207 := hlen ▸ hi'
    rw [← List.getD_eq_getElem _ 0 hi, ← List.getD_eq_getElem _ 0 hi', getD_maskBlock _ _ h207,
      getD_maskBlock _ _ h207]
    split
    next h0 =>
      subst h0
      rw [xor_and_distrib, UInt8.and_assoc, UInt8.and_self, xor_and_distrib, UInt8.xor_assoc,
        UInt8.xor_self, UInt8.xor_zero]
      exact hclear
    next =>
      have hff (x : UInt8) : x &&& 0xff = x := UInt8.and_neg_one
      rw [hff, hff, UInt8.xor_assoc, UInt8.xor_self, UInt8.xor_zero]

/-- The bit that the verifier tests. -/
theorem topClear_iff (bs : Bytes) : (bs.getD 0 0).toNat &&& 0x80 = 0 ↔ TopClear bs := by
  have hlt : (bs.getD 0 0).toNat < 256 := (bs.getD 0 0).toNat_lt
  have hbit : (bs.getD 0 0).toNat &&& 0x80 = 0 ↔ (bs.getD 0 0).toNat < 128 := by
    rw [show 0x80 = 2 ^ 7 from rfl, Nat.and_two_pow, Nat.testBit_eq_decide_div_mod_eq]
    by_cases hd : (bs.getD 0 0).toNat / 2 ^ 7 % 2 = 1
    · simp only [hd, decide_true, Bool.toNat_true]
      omega
    · simp only [hd, decide_false, Bool.toNat_false]
      omega
  have hlow : (bs.getD 0 0).toNat &&& 0x7f = (bs.getD 0 0).toNat % 128 :=
    Nat.and_two_pow_sub_one_eq_mod _ 7
  rw [hbit, TopClear, ← UInt8.toNat_inj, UInt8.toNat_and]
  change _ ↔ (bs.getD 0 0).toNat &&& 0x7f = (bs.getD 0 0).toNat
  rw [hlow]
  omega

/-! ## Padding -/

/-- `DB` of a salt of 48 octets. -/
def padSalt (salt : Bytes) : Bytes := List.replicate 158 0 ++ [0x01] ++ salt

@[simp] theorem length_padSalt (salt : Octets 48) : (padSalt salt.1).length = 207 := by
  simp [padSalt, salt.2]

theorem padSalt_topClear (salt : Bytes) : TopClear (padSalt salt) := by
  simp [TopClear, padSalt]

/-- What the verifier tests of a data block. -/
theorem eq_padSalt_iff {db : Bytes} (hlen : db.length = 207) :
    ((∀ b ∈ db.take 158, b = 0) ∧ db[158]? = some 0x01) ↔ db = padSalt (db.drop 159) := by
  constructor
  · rintro ⟨hzero, hone⟩
    have htake : db.take 158 = List.replicate 158 0 :=
      List.eq_replicate_iff.mpr ⟨by simp [hlen], hzero⟩
    have h158 : 158 < db.length := by omega
    have hget : db[158] = 0x01 := by
      rw [List.getElem?_eq_getElem h158] at hone
      exact Option.some.inj hone
    calc db = db.take 158 ++ db.drop 158 := (List.take_append_drop _ _).symm
      _ = db.take 158 ++ (db[158] :: db.drop 159) := by rw [← List.drop_eq_getElem_cons h158]
      _ = padSalt (db.drop 159) := by rw [htake, hget, padSalt, List.append_assoc]; rfl
  · intro h
    rw [h]
    constructor
    · intro b hb
      rw [padSalt, List.append_assoc, List.take_left' List.length_replicate] at hb
      exact List.eq_of_mem_replicate hb
    · rw [padSalt, List.append_assoc, List.getElem?_append_right (by rw [List.length_replicate]),
        List.length_replicate]
      rfl

/-! ## Encoder and verifier -/

variable (H : Hashes)

/-- The hash a message is encoded under with a salt. -/
def saltedHash (message salt : Bytes) : Octets 48 :=
  H.sha384 (mPrime (H.sha384 message).1 salt)

theorem emsaPssEncode_eq (message : Bytes) (salt : Octets 48) :
    emsaPssEncode H message 2047 salt.1 =
      .ok (maskBlock (mgf1Sha384 H (saltedHash H message salt.1).1 207) (padSalt salt.1) ++
        (saltedHash H message salt.1).1 ++ [0xbc]) := by
  simp only [emsaPssEncode, salt.2]
  rfl

/-- Comparing octet by octet compares strings of one length. -/
theorem all_zipIdx_iff {xs ys : Bytes} (hlen : xs.length = ys.length) :
    (xs.zipIdx.all fun (b, i) => decide (some b = ys[i]?)) = true ↔ xs = ys := by
  rw [List.all_eq_true]
  constructor
  · intro h
    apply List.ext_getElem hlen
    intro i hi hi'
    have hb := of_decide_eq_true <|
      h (xs[i], i) (List.mk_mem_zipIdx_iff_getElem?.mpr (List.getElem?_eq_getElem hi))
    rw [List.getElem?_eq_getElem hi'] at hb
    exact Option.some.inj hb
  · rintro rfl ⟨b, i⟩ hb
    exact decide_eq_true (List.mk_mem_zipIdx_iff_getElem?.mp hb).symm

/-- What the verifier tests, one test after the other. -/
theorem emsaPssVerify_iff_tests (message : Bytes) (em : Octets 256) :
    let h := (em.1.drop 207).take 48
    let db := maskBlock (mgf1Sha384 H h 207) (em.1.take 207)
    emsaPssVerify H message em.1 2047 = true ↔
      em.1[255]? = some 0xbc ∧ TopClear (em.1.take 207) ∧
        ((∀ b ∈ db.take 158, b = 0) ∧ db[158]? = some 0x01) ∧
          (saltedHash H message (db.drop 159)).1 = h := by
  intro h db
  have hh : h.length = 48 := by simp [h, em.2]
  have hcmp := all_zipIdx_iff ((saltedHash H message (db.drop 159)).2.trans hh.symm)
  have htop := topClear_iff (em.1.take 207)
  have hzero : ((db.take 158).any fun b => decide (b ≠ 0)) = true ↔ ¬ ∀ b ∈ db.take 158, b = 0 := by
    simp
  have hverify : emsaPssVerify H message em.1 2047 =
      if em.1[255]? ≠ some 0xbc then false
      else if ((em.1.take 207).getD 0 0).toNat &&& 0x80 ≠ 0 then false
      else if (db.take 158).any (· ≠ 0) then false
      else if db[158]? ≠ some 0x01 then false
      else (saltedHash H message (db.drop 159)).1.zipIdx.all fun (b, i) => some b = h[i]? := rfl
  rw [hverify]
  split
  next hbc => simp [hbc]
  next hbc =>
    split
    next ht => exact ⟨nofun, fun hs => (ht (htop.mpr hs.2.1)).elim⟩
    next ht =>
      split
      next hz => simp [hzero.mp hz]
      next hz =>
        split
        next h1 => simp [h1]
        next h1 =>
          rw [hcmp]
          rw [hzero, not_not] at hz
          rw [not_not] at hbc ht h1
          exact ⟨fun hs => ⟨hbc, htop.mp ht, ⟨hz, h1⟩, hs⟩, fun hs => hs.2.2.2⟩

theorem drop_padSalt (salt : Bytes) : (padSalt salt).drop 159 = salt :=
  List.drop_left' (by rw [List.length_append, List.length_replicate]; rfl)

/-- An encoded message is its data block, its hash and its trailer. -/
theorem eq_append_iff {em : Octets 256} {block : Bytes} {h : Octets 48}
    (hblock : block.length = 207) :
    em.1 = block ++ h.1 ++ [0xbc] ↔
      em.1.take 207 = block ∧ (em.1.drop 207).take 48 = h.1 ∧ em.1[255]? = some 0xbc := by
  constructor
  · intro he
    rw [he, List.append_assoc]
    refine ⟨List.take_left' hblock, ?_, ?_⟩
    · rw [List.drop_left' hblock, List.take_left' h.2]
    · rw [List.getElem?_append_right (by omega), hblock,
        List.getElem?_append_right (by rw [h.2]), h.2]
      rfl
  · rintro ⟨hb, hh, hbc⟩
    have hlen : 255 < em.1.length := by rw [em.2]; decide
    have hlast : em.1.drop 255 = [0xbc] := by
      rw [List.getElem?_eq_getElem hlen] at hbc
      rw [List.drop_eq_getElem_cons hlen, Option.some.inj hbc,
        List.drop_of_length_le (by rw [em.2])]
    calc em.1 = em.1.take 207 ++ em.1.drop 207 := (List.take_append_drop _ _).symm
      _ = em.1.take 207 ++ ((em.1.drop 207).take 48 ++ (em.1.drop 207).drop 48) := by
        rw [List.take_append_drop 48, List.take_append_drop]
      _ = block ++ h.1 ++ [0xbc] := by rw [hb, hh, List.drop_drop, hlast, List.append_assoc]

/-- The verifier accepts exactly the encodings of the message. -/
theorem emsaPssVerify_eq_true_iff (message : Bytes) (em : Octets 256) :
    emsaPssVerify H message em.1 2047 = true ↔
      ∃ salt : Octets 48, emsaPssEncode H message 2047 salt.1 = .ok em.1 := by
  have htests := emsaPssVerify_iff_tests H message em
  dsimp only at htests
  rw [htests]
  have hblock : (em.1.take 207).length = 207 := by
    rw [List.length_take, em.2]
    rfl
  constructor
  · rintro ⟨hbc, htop, hpad, hhash⟩
    generalize hM : mgf1Sha384 H ((em.1.drop 207).take 48) 207 = mask at hpad hhash
    let db := maskBlock mask (em.1.take 207)
    have hdb : db.length = 207 := length_maskBlock _ _
    have hsalt : (db.drop 159).length = 48 := by rw [List.length_drop, hdb]
    refine ⟨⟨db.drop 159, hsalt⟩, ?_⟩
    rw [emsaPssEncode_eq]
    have hmask : maskBlock mask (padSalt (db.drop 159)) = em.1.take 207 := by
      rw [← (eq_padSalt_iff hdb).mp hpad]
      exact maskBlock_maskBlock hblock htop
    refine congrArg Except.ok
      ((eq_append_iff (length_maskBlock _ _)).mpr ⟨?_, hhash.symm, hbc⟩).symm
    rw [hhash, hM, hmask]
  · rintro ⟨salt, hsalt⟩
    rw [emsaPssEncode_eq] at hsalt
    obtain ⟨hb, hh, hbc⟩ := (eq_append_iff (length_maskBlock _ _)).mp (Except.ok.inj hsalt).symm
    rw [hh, hb, maskBlock_maskBlock (length_padSalt salt) (padSalt_topClear _), drop_padSalt]
    refine ⟨hbc, maskBlock_topClear _ _, ?_, rfl⟩
    rw [eq_padSalt_iff (length_padSalt salt), drop_padSalt]

end WarrenSdk.Core
