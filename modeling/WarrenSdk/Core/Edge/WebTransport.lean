import Mathlib.Data.Rat.Defs
import WarrenSdk.Core.Errors
import WarrenSdk.Lib.Bytes

/-!
# WebTransport framing (`edge/webtransport.ts`)

QUIC integers of 1, 2, 4 or 8 octets, the upper two bits of the first saying which, and the
datagrams of a session behind the quarter of its id. The encoder writes the shortest form; the
decoder takes any.
-/

namespace WarrenSdk.Core
open Lib

def WEBTRANSPORT_STREAM_BIDI : Int := 0x41

def WEBTRANSPORT_STREAM_UNI : Int := 0x54

/-- An `int32` as an element of a `Uint8Array`. -/
def toOctet (n : BitVec 32) : UInt8 := UInt8.ofNat n.toNat

/-- `encodeQuicVarint` of a `bigint`. -/
def encodeQuicVarint (v : Int) : Except Failure Bytes :=
  if v < 0 then .error (.range "QUIC varint encodes non-negative integers only")
  else if v < 2 ^ 6 then .ok [UInt8.ofNat v.toNat]
  else if v < 2 ^ 14 then
    let n := BitVec.ofInt 32 v
    .ok [toOctet (0x40#32 ||| n.sshiftRight 8), toOctet (n &&& 0xff#32)]
  else if v < 2 ^ 30 then
    let n := BitVec.ofInt 32 v
    .ok [toOctet (0x80#32 ||| n >>> 24), toOctet (n.sshiftRight 16 &&& 0xff#32),
      toOctet (n.sshiftRight 8 &&& 0xff#32), toOctet (n &&& 0xff#32)]
  else if v < 2 ^ 62 then .ok ((toBE 8 v.toNat).modifyHead (· ||| 0xc0))
  else .error (.range "value exceeds the 62-bit QUIC varint maximum")

/-- `BigInt` of a `number`, which it takes only if it is whole. -/
def toBigInt (value : Rat) : Except Failure Int :=
  if value.den = 1 then .ok value.num
  else .error (.range "The number cannot be converted to a BigInt because it is not an integer")

/-- `encodeQuicVarint` of a `number`. -/
def encodeQuicVarintNumber (value : Rat) : Except Failure Bytes := do
  encodeQuicVarint (← toBigInt value)

/-- The value at the front of `input`, and how many octets it takes. -/
def decodeQuicVarint (input : Bytes) : Option (Nat × Nat) :=
  match input[0]? with
  | none => none
  | some first =>
    let length := 1 <<< (first >>> 6).toNat
    if input.length < length then none
    else
      let value := (List.range' 1 (length - 1)).foldl
        (fun value i => value <<< 8 ||| (input[i]?.getD 0).toNat) (first &&& 0x3f).toNat
      some (value, length)

/-- What a stream of a session begins with: its signal, then the id of the session. -/
def streamHeader (signal sessionId : Int) : Except Failure Bytes := do
  return (← encodeQuicVarint signal) ++ (← encodeQuicVarint sessionId)

def encodeBidiStreamHeader (sessionId : Int) : Except Failure Bytes :=
  streamHeader WEBTRANSPORT_STREAM_BIDI sessionId

def encodeUniStreamHeader (sessionId : Int) : Except Failure Bytes :=
  streamHeader WEBTRANSPORT_STREAM_UNI sessionId

def quarterStreamId (sessionId : Int) : Int := sessionId >>> (2 : Nat)

def encodeWtDatagram (sessionId : Int) (payload : Bytes) : Except Failure Bytes := do
  return (← encodeQuicVarint (quarterStreamId sessionId)) ++ payload

/-- `encodeWtDatagram` of a `number`. -/
def encodeWtDatagramNumber (sessionId : Rat) (payload : Bytes) : Except Failure Bytes := do
  encodeWtDatagram (← toBigInt sessionId) payload

def decodeWtDatagram (input : Bytes) : Option (Nat × Bytes) := do
  let (value, length) ← decodeQuicVarint input
  return (value, input.drop length)

/-! ## Forms -/

/-- How many numbers the form of `2 ^ k` octets holds. -/
def formBound (k : Nat) : Nat := 2 ^ (8 * 2 ^ k - 2)

/-- `bytes` are the form of `2 ^ k` octets of `v`: the number behind the two bits that say `k`. -/
structure IsForm (k v : Nat) (bytes : Bytes) : Prop where
  kind : k < 4
  length : bytes.length = 2 ^ k
  fits : v < formBound k
  value : ofBE bytes = k * formBound k + v

theorem formBound_eq (hk : k < 4) : formBound k = 64 * 256 ^ (2 ^ k - 1) := by
  have hall : ∀ k < 4, formBound k = 64 * 256 ^ (2 ^ k - 1) := by decide
  exact hall k hk

theorem formBound_zero : formBound 0 = 64 := by decide

theorem formBound_one : formBound 1 = 16384 := by decide

theorem formBound_two : formBound 2 = 1073741824 := by decide

theorem formBound_three : formBound 3 = 4611686018427387904 := by decide

theorem formBound_mono (h : j ≤ k) : formBound j ≤ formBound k := by
  have hlength : 2 ^ j ≤ 2 ^ k := Nat.pow_le_pow_right Nat.two_pos h
  exact Nat.pow_le_pow_right Nat.two_pos (by omega)

theorem shiftRight_six (b : UInt8) : (b >>> 6).toNat = b.toNat / 64 := by
  rw [UInt8.toNat_shiftRight]
  exact Nat.shiftRight_eq_div_pow b.toNat 6

theorem and_sixBits (b : UInt8) : (b &&& 0x3f).toNat = b.toNat % 64 := by
  rw [UInt8.toNat_and]
  exact Nat.and_two_pow_sub_one_eq_mod b.toNat 6

theorem shiftLeft_or_octet (value : Nat) (b : UInt8) :
    value <<< 8 ||| b.toNat = value * 256 + b.toNat := by
  rw [Nat.shiftLeft_eq, Nat.mul_comm]
  exact (Nat.two_pow_add_eq_or_of_lt b.toNat_lt value).symm

/-! ## Decoding -/

/-- The loop of `decodeQuicVarint` reads the octets as one number. -/
theorem foldl_octets (input : Bytes) (start count value : Nat) (h : start + count ≤ input.length) :
    (List.range' start count).foldl
      (fun value i => value <<< 8 ||| (input[i]?.getD 0).toNat) value =
      value * 256 ^ count + ofBE ((input.drop start).take count) := by
  induction count generalizing start value with
  | zero => simp
  | succ count ih =>
    have hlt : start < input.length := by omega
    rw [List.range'_succ, List.foldl_cons, ih (start + 1) _ (by omega),
      List.getElem?_eq_getElem hlt,
      Option.getD_some, shiftLeft_or_octet, List.drop_eq_getElem_cons hlt, List.take_succ_cons,
      ofBE_cons, List.length_take, List.length_drop, Nat.min_eq_left (by omega), Nat.pow_succ]
    ring

@[simp] theorem decodeQuicVarint_nil : decodeQuicVarint [] = none := rfl

theorem decodeQuicVarint_cons (first : UInt8) (tail : Bytes) :
    decodeQuicVarint (first :: tail) =
      if tail.length + 1 < 2 ^ (first.toNat / 64) then none
      else some (first.toNat % 64 * 256 ^ (2 ^ (first.toNat / 64) - 1) +
        ofBE (tail.take (2 ^ (first.toNat / 64) - 1)), 2 ^ (first.toNat / 64)) := by
  unfold decodeQuicVarint
  simp only [List.getElem?_cons_zero, shiftRight_six, Nat.one_shiftLeft, List.length_cons]
  split
  · rfl
  · next hlength =>
    have hpos := Nat.two_pow_pos (first.toNat / 64)
    rw [foldl_octets _ _ _ _ (by rw [List.length_cons]; omega), and_sixBits, List.drop_succ_cons,
      List.drop_zero]

theorem decodeQuicVarint_of_isForm {bytes : Bytes} (h : IsForm k v bytes) (rest : Bytes) :
    decodeQuicVarint (bytes ++ rest) = some (v, 2 ^ k) := by
  obtain ⟨hk, hlength, hfits, hvalue⟩ := h
  have hpos := Nat.two_pow_pos k
  cases bytes with
  | nil => exact absurd hlength (Nat.ne_of_lt hpos)
  | cons first tail =>
    have htail : tail.length = 2 ^ k - 1 := by
      rw [List.length_cons] at hlength
      omega
    have hlow := ofBE_lt tail
    rw [ofBE_cons, htail, formBound_eq hk] at hvalue
    rw [formBound_eq hk] at hfits
    rw [htail] at hlow
    -- the upper two bits of the first octet, and the lower six
    have hdiv : first.toNat = 64 * k + v / 256 ^ (2 ^ k - 1) := by
      have hq := congrArg (· / 256 ^ (2 ^ k - 1)) hvalue
      rw [Nat.mul_comm, Nat.mul_add_div (Nat.pow_pos (by decide)), Nat.div_eq_of_lt hlow,
        Nat.add_zero, ← Nat.mul_assoc, Nat.mul_comm _ (256 ^ (2 ^ k - 1)),
        Nat.mul_add_div (Nat.pow_pos (by decide))] at hq
      omega
    have hsix : v / 256 ^ (2 ^ k - 1) < 64 := Nat.div_lt_of_lt_mul (by rwa [Nat.mul_comm])
    have hkind : first.toNat / 64 = k := by
      rw [hdiv, Nat.mul_add_div (by decide), Nat.div_eq_of_lt hsix, Nat.add_zero]
    have hbits : first.toNat % 64 = v / 256 ^ (2 ^ k - 1) := by
      rw [hdiv, Nat.mul_add_mod, Nat.mod_eq_of_lt hsix]
    have hread : first.toNat % 64 * 256 ^ (2 ^ k - 1) + ofBE tail = v := by
      rw [hdiv, Nat.add_mul] at hvalue
      rw [hbits]
      have hassoc : 64 * k * 256 ^ (2 ^ k - 1) = k * (64 * 256 ^ (2 ^ k - 1)) := by ring
      omega
    have htake : (tail ++ rest).take (2 ^ k - 1) = tail := by
      rw [← htail, List.take_left]
    rw [List.cons_append, decodeQuicVarint_cons, hkind, if_neg (by rw [List.length_append]; omega),
      htake, hread]

theorem fits_of_decodeQuicVarint {input : Bytes} (h : decodeQuicVarint input = some (v, l)) :
    ∃ k < 4, l = 2 ^ k ∧ v < formBound k := by
  cases input with
  | nil => cases h
  | cons first tail =>
    have hfirst := first.toNat_lt
    have hk : first.toNat / 64 < 4 := by omega
    rw [decodeQuicVarint_cons] at h
    split at h
    · cases h
    · next hlength =>
      obtain ⟨rfl, rfl⟩ := Prod.mk.inj (Option.some.inj h)
      refine ⟨first.toNat / 64, hk, rfl, ?_⟩
      have hlow := ofBE_lt (tail.take (2 ^ (first.toNat / 64) - 1))
      rw [List.length_take, Nat.min_eq_left (by omega)] at hlow
      rw [formBound_eq hk]
      have hbits : first.toNat % 64 + 1 ≤ 64 := Nat.mod_lt _ (by decide)
      have hmul := Nat.mul_le_mul_right (256 ^ (2 ^ (first.toNat / 64) - 1)) hbits
      rw [Nat.add_mul, Nat.one_mul] at hmul
      omega

/-- Nothing is read exactly where the form that the first octet says is not all there. -/
theorem decodeQuicVarint_eq_none {input : Bytes} : decodeQuicVarint input = none ↔
    ∀ first ∈ input.head?, input.length < 2 ^ (first.toNat / 64) := by
  cases input with
  | nil =>
    constructor
    · intro _ first h
      cases h
    · exact fun _ => decodeQuicVarint_nil
  | cons first tail =>
    rw [decodeQuicVarint_cons, List.head?_cons, List.length_cons]
    constructor
    · intro h _ hfirst
      cases hfirst
      split at h
      · next hlt => exact hlt
      · cases h
    · exact fun h => if_pos (h first rfl)

/-! ## Encoding -/

theorem ofInt_natCast (v : Nat) : BitVec.ofInt 32 v = BitVec.ofNat 32 v :=
  BitVec.ofInt_natCast 32 v

theorem sshiftRight_of_lt (h : v < 2 ^ 30) (s : Nat) :
    ((BitVec.ofNat 32 v).sshiftRight s).toNat = v / 2 ^ s := by
  have hmod : (BitVec.ofNat 32 v).toNat = v := by
    rw [BitVec.toNat_ofNat]
    omega
  have hmsb : (BitVec.ofNat 32 v).msb = false := by
    rw [BitVec.msb_eq_false_iff_two_mul_lt, hmod]
    omega
  rw [BitVec.sshiftRight_eq_of_msb_false hmsb, BitVec.toNat_ushiftRight, hmod,
    Nat.shiftRight_eq_div_pow]

theorem toOctet_and (n : BitVec 32) : (toOctet (n &&& 0xff#32)).toNat = n.toNat % 256 := by
  have hand : (n &&& 0xff#32).toNat = n.toNat % 256 := by
    rw [BitVec.toNat_and]
    exact Nat.and_two_pow_sub_one_eq_mod n.toNat 8
  rw [toOctet, UInt8.toNat_ofNat', hand]
  omega

/-- The upper two bits are put before six. -/
theorem or_kind (hk : kind = 64 * k) (h : n < 64) : kind ||| n = kind + n := by
  have hsix : n < 2 ^ 6 := h
  rw [hk]
  exact (Nat.two_pow_add_eq_or_of_lt hsix k).symm

theorem toOctet_or {kind n : BitVec 32} (hk : kind.toNat = 64 * k) (hlt : k < 4)
    (h : n.toNat < 64) : (toOctet (kind ||| n)).toNat = kind.toNat + n.toNat := by
  rw [toOctet, UInt8.toNat_ofNat', BitVec.toNat_or, or_kind hk h]
  omega

theorem encodeQuicVarint_one (h : v < formBound 0) :
    ∃ bytes, encodeQuicVarint v = .ok bytes ∧ IsForm 0 v bytes := by
  have hlt : v < 64 := by rwa [formBound_zero] at h
  refine ⟨[UInt8.ofNat v], ?_, ⟨by decide, rfl, h, ?_⟩⟩
  · rw [encodeQuicVarint, if_neg (by omega), if_pos (by omega), Int.toNat_natCast]
  · rw [ofBE_cons, UInt8.toNat_ofNat']
    simp
    omega

theorem encodeQuicVarint_two (hge : formBound 0 ≤ v) (h : v < formBound 1) :
    ∃ bytes, encodeQuicVarint v = .ok bytes ∧ IsForm 1 v bytes := by
  have hle : 64 ≤ v := by rwa [formBound_zero] at hge
  have hlt : v < 2 ^ 14 := by rwa [formBound_one] at h
  rw [encodeQuicVarint, if_neg (by omega), if_neg (by omega), if_pos (by omega), ofInt_natCast]
  refine ⟨_, rfl, ⟨by decide, ?_, h, ?_⟩⟩
  · rfl
  · have hshift := sshiftRight_of_lt (v := v) (by omega) 8
    have hkind : (0x40#32).toNat = 64 * 1 := rfl
    rw [ofBE_cons, ofBE_cons, toOctet_or hkind (by decide) (by omega), hkind, hshift, toOctet_and,
      BitVec.toNat_ofNat, formBound_one, ofBE_nil]
    simp only [List.length_cons, List.length_nil]
    omega

theorem encodeQuicVarint_four (hge : formBound 1 ≤ v) (h : v < formBound 2) :
    ∃ bytes, encodeQuicVarint v = .ok bytes ∧ IsForm 2 v bytes := by
  have hle : 2 ^ 14 ≤ v := by rwa [formBound_one] at hge
  have hlt : v < 2 ^ 30 := by rwa [formBound_two] at h
  rw [encodeQuicVarint, if_neg (by omega), if_neg (by omega), if_neg (by omega),
    if_pos (by omega), ofInt_natCast]
  refine ⟨_, rfl, ⟨by decide, ?_, h, ?_⟩⟩
  · rfl
  · have hmod : (BitVec.ofNat 32 v).toNat = v := by
      rw [BitVec.toNat_ofNat]
      omega
    have hshift : (BitVec.ofNat 32 v >>> 24).toNat = v / 2 ^ 24 := by
      rw [BitVec.toNat_ushiftRight, hmod, Nat.shiftRight_eq_div_pow]
    have hkind : (0x80#32).toNat = 64 * 2 := rfl
    rw [ofBE_cons, ofBE_cons, ofBE_cons, ofBE_cons, toOctet_or hkind (by decide) (by omega), hkind,
      hshift, toOctet_and, toOctet_and, toOctet_and, sshiftRight_of_lt hlt, sshiftRight_of_lt hlt,
      hmod, formBound_two, ofBE_nil]
    simp only [List.length_cons, List.length_nil]
    omega

theorem encodeQuicVarint_eight (hge : formBound 2 ≤ v) (h : v < formBound 3) :
    ∃ bytes, encodeQuicVarint v = .ok bytes ∧ IsForm 3 v bytes := by
  have hle : 2 ^ 30 ≤ v := by rwa [formBound_two] at hge
  have hlt : v < 2 ^ 62 := by rwa [formBound_three] at h
  rw [encodeQuicVarint, if_neg (by omega), if_neg (by omega), if_neg (by omega),
    if_neg (by omega), if_pos (by omega), Int.toNat_natCast]
  refine ⟨_, rfl, ⟨by decide, ?_, h, ?_⟩⟩
  · rw [List.length_modifyHead, length_toBE]
    rfl
  · have hnumber : ofBE (toBE 8 v) = v := ofBE_toBE_of_lt (Nat.lt_trans hlt (by decide))
    have hlength : (toBE 8 v).length = 8 := length_toBE 8 v
    cases hbytes : toBE 8 v with
    | nil =>
      rw [hbytes] at hlength
      cases hlength
    | cons first tail =>
      rw [hbytes, List.length_cons] at hlength
      have htail : tail.length = 7 := by omega
      have hpow : (256 : Nat) ^ 7 = 72057594037927936 := by decide
      rw [hbytes, ofBE_cons, htail, hpow] at hnumber
      have hsix : first.toNat < 64 := by omega
      have hkind : (0xc0 : UInt8).toNat = 64 * 3 := rfl
      have hhigh : (first ||| 0xc0).toNat = 64 * 3 + first.toNat := by
        rw [UInt8.toNat_or, Nat.or_comm, or_kind hkind hsix, hkind]
      rw [List.modifyHead_cons, ofBE_cons, hhigh, htail, hpow, formBound_three, Nat.add_mul,
        Nat.add_assoc, hnumber]

/-- A number is written in the shortest form that holds it. -/
theorem encodeQuicVarint_natCast {v : Nat} (h : v < 2 ^ 62) :
    ∃ k bytes, encodeQuicVarint v = .ok bytes ∧ IsForm k v bytes ∧ ∀ j < k, formBound j ≤ v := by
  by_cases h0 : v < formBound 0
  · obtain ⟨bytes, hok, hform⟩ := encodeQuicVarint_one h0
    exact ⟨0, bytes, hok, hform, fun j hj => absurd hj (Nat.not_lt_zero j)⟩
  · have hge0 := Nat.not_lt.mp h0
    by_cases h1 : v < formBound 1
    · obtain ⟨bytes, hok, hform⟩ := encodeQuicVarint_two hge0 h1
      exact ⟨1, bytes, hok, hform, fun j hj => (formBound_mono (Nat.le_of_lt_succ hj)).trans hge0⟩
    · have hge1 := Nat.not_lt.mp h1
      by_cases h2 : v < formBound 2
      · obtain ⟨bytes, hok, hform⟩ := encodeQuicVarint_four hge1 h2
        exact ⟨2, bytes, hok, hform, fun j hj => (formBound_mono (Nat.le_of_lt_succ hj)).trans hge1⟩
      · have hge2 := Nat.not_lt.mp h2
        obtain ⟨bytes, hok, hform⟩ := encodeQuicVarint_eight hge2 (by rwa [formBound_three])
        exact ⟨3, bytes, hok, hform, fun j hj => (formBound_mono (Nat.le_of_lt_succ hj)).trans hge2⟩

theorem encodeQuicVarintNumber_natCast (v : Nat) :
    encodeQuicVarintNumber (v : Rat) = encodeQuicVarint v := by
  rw [encodeQuicVarintNumber, toBigInt, if_pos (Rat.den_natCast v), Rat.num_natCast]
  rfl

theorem quarterStreamId_natCast (id : Nat) : quarterStreamId id = ((id / 4 : Nat) : Int) := by
  rw [quarterStreamId, Int.shiftRight_eq_div_pow]
  rfl

theorem decodeWtDatagram_of_isForm {bytes : Bytes} (h : IsForm k v bytes) (payload : Bytes) :
    decodeWtDatagram (bytes ++ payload) = some (v, payload) := by
  unfold decodeWtDatagram
  rw [decodeQuicVarint_of_isForm h, ← h.length]
  exact congrArg (fun rest => some (v, rest)) List.drop_left

/-- The signal of a stream is read back, and the id of its session after it. -/
theorem decodeQuicVarint_streamHeader {signal id : Nat} (hsignal : signal < 2 ^ 62)
    (hid : id < 2 ^ 62) :
    ∃ first second, streamHeader signal id = .ok (first ++ second) ∧ ∀ rest,
      decodeQuicVarint (first ++ second ++ rest) = some (signal, first.length) ∧
      decodeQuicVarint (second ++ rest) = some (id, second.length) := by
  obtain ⟨j, first, hfirst, hform, -⟩ := encodeQuicVarint_natCast hsignal
  obtain ⟨k, second, hsecond, hform', -⟩ := encodeQuicVarint_natCast hid
  refine ⟨first, second, ?_, fun rest => ⟨?_, ?_⟩⟩
  · rw [streamHeader, hfirst, hsecond]
    rfl
  · rw [List.append_assoc, hform.length]
    exact decodeQuicVarint_of_isForm hform _
  · rw [hform'.length]
    exact decodeQuicVarint_of_isForm hform' rest

/-- Numbers of 62 bits are read back from their shortest form, nothing is read exactly where a form
is cut short, and datagrams are read back with the quarter of their session's id. -/
theorem quicVarint_exact :
    (∀ v : Nat, v < 2 ^ 62 → ∃ bytes, encodeQuicVarint v = .ok bytes ∧
      encodeQuicVarintNumber v = .ok bytes ∧
      (∀ rest, decodeQuicVarint (bytes ++ rest) = some (v, bytes.length)) ∧
      ∀ input l, decodeQuicVarint input = some (v, l) → bytes.length ≤ l) ∧
    (∀ input, decodeQuicVarint input = none ↔
      ∀ first ∈ input.head?, input.length < 2 ^ (first.toNat / 64)) ∧
    ∀ (id : Nat) (payload : Bytes), id < 2 ^ 62 →
      ∃ datagram, encodeWtDatagram id payload = .ok datagram ∧
        encodeWtDatagramNumber id payload = .ok datagram ∧
        decodeWtDatagram datagram = some (id / 4, payload) := by
  refine ⟨fun v hv => ?_, fun input => decodeQuicVarint_eq_none, fun id payload hid => ?_⟩
  · obtain ⟨k, bytes, hok, hform, hleast⟩ := encodeQuicVarint_natCast hv
    refine ⟨bytes, hok, (encodeQuicVarintNumber_natCast v).trans hok, fun rest => ?_,
      fun input l h => ?_⟩
    · rw [hform.length]
      exact decodeQuicVarint_of_isForm hform rest
    · obtain ⟨j, -, rfl, hfits⟩ := fits_of_decodeQuicVarint h
      rw [hform.length]
      apply Nat.pow_le_pow_right Nat.two_pos
      exact Nat.le_of_not_lt fun hlt => absurd (hleast j hlt) (Nat.not_le.mpr hfits)
  · have hquarter : id / 4 < 2 ^ 62 := by omega
    obtain ⟨k, bytes, hok, hform, -⟩ := encodeQuicVarint_natCast hquarter
    have hdatagram : encodeWtDatagram id payload = .ok (bytes ++ payload) := by
      rw [encodeWtDatagram, quarterStreamId_natCast, hok]
      rfl
    have hnumber : encodeWtDatagramNumber id payload = .ok (bytes ++ payload) := by
      rw [encodeWtDatagramNumber, toBigInt, if_pos (Rat.den_natCast id), Rat.num_natCast]
      exact hdatagram
    exact ⟨bytes ++ payload, hdatagram, hnumber, decodeWtDatagram_of_isForm hform payload⟩

end WarrenSdk.Core
