import WarrenSdk.Core.Edge.Varint
import WarrenSdk.Lib.Cursor
import WarrenSdk.Lib.Number

/-!
# Multihop frames (`edge/frame.ts`, `edge/frame-v2.ts`)

The postcard form of the frames of both versions. The decoders of a version are told by what they
take: a header, and then sections of a length that stands before them, with nothing behind the last.
-/

namespace WarrenSdk.Core
open Lib

def WARREN_HPKE_VERSION : Nat := 1
def WARREN_HPKE_VERSION_V2 : Nat := 2
def EXIT_ID_LEN : Nat := 16
def ENCAPSULATED_KEY_LEN : Nat := 32
def AEAD_TAG_LEN : Nat := 16
/-- The longest frame the decoder of `/v2` takes. -/
def MAX_FRAME_SIZE : Nat := 65536

structure WarrenMultihopFrame where
  version : Nat
  exitId : Bytes
  epoch : Rat
  seq : Int
  encapsulatedKey : Bytes
  aeadTag : Bytes
  ciphertext : Bytes
deriving DecidableEq

structure WarrenMultihopFrameV2 where
  version : Nat
  exitId : Bytes
  epoch : Rat
  seq : Int
  encapsulatedKey : Bytes
  pqCt : Bytes
  aeadTag : Bytes
  ciphertext : Bytes
deriving DecidableEq

/-! ## Encoding -/

/-- A `Uint8Array`: its length is an exact number. -/
abbrev Uint8Array := { bytes : Bytes // bytes.length < MAX_EXACT }

/-- `new Uint8Array` of the length of `bytes`, filled with them. -/
def newUint8Array (bytes : Bytes) : Except Failure Uint8Array :=
  if h : bytes.length < MAX_EXACT then .ok ⟨bytes, h⟩
  else .error (.range s!"Invalid typed array length: {bytes.length}")

def expectLen (bytes : Bytes) (len : Nat) (field : String) : Except Failure Unit :=
  if bytes.length = len then .ok ()
  else .error (.range s!"{field} must be {len} bytes, got {bytes.length}")

def encodeMultihopFrame (frame : WarrenMultihopFrame) : Except Failure Uint8Array := do
  expectLen frame.exitId EXIT_ID_LEN "exitId"
  expectLen frame.encapsulatedKey ENCAPSULATED_KEY_LEN "encapsulatedKey"
  expectLen frame.aeadTag AEAD_TAG_LEN "aeadTag"
  let epoch ← encodeLeb128Number frame.epoch
  let seq ← encodeLeb128 frame.seq
  let ctLen ← encodeLeb128 frame.ciphertext.length
  newUint8Array (UInt8.ofNat frame.version :: (frame.exitId ++ (epoch ++ (seq ++
    (frame.encapsulatedKey ++ (frame.aeadTag ++ (ctLen ++ frame.ciphertext)))))))

def encodeMultihopFrameV2 (frame : WarrenMultihopFrameV2) : Except Failure Uint8Array := do
  expectLen frame.exitId EXIT_ID_LEN "exitId"
  expectLen frame.encapsulatedKey ENCAPSULATED_KEY_LEN "encapsulatedKey"
  expectLen frame.aeadTag AEAD_TAG_LEN "aeadTag"
  let epoch ← encodeLeb128Number frame.epoch
  let seq ← encodeLeb128 frame.seq
  let pqCtLen ← encodeLeb128 frame.pqCt.length
  let ctLen ← encodeLeb128 frame.ciphertext.length
  newUint8Array (UInt8.ofNat frame.version :: (frame.exitId ++ (epoch ++ (seq ++
    (frame.encapsulatedKey ++ (pqCtLen ++ (frame.pqCt ++ (frame.aeadTag ++ (ctLen ++
      frame.ciphertext)))))))))

/-! ## Decoding -/

/-- `need` and the slice that follows it. -/
def takeField (n : Nat) (what : String) : Cursor Failure Bytes :=
  .slice n (.range s!"truncated frame: need {n} more bytes for {what}")

/-- `decodeLeb128` at the cursor. -/
def takeLeb128 : Cursor Failure Nat := fun bytes =>
  (decodeLeb128 bytes).map fun (value, length) => (value, bytes.drop length)

/-- A length, and a field of it. -/
def takeSized (what : String) : Cursor Failure Bytes := do
  let length ← takeLeb128
  takeField (toNumber length) what

/-- The version is taken, if it is `version`. -/
def takeVersion (version : Nat) (unsupported : String) : Cursor Failure Nat := do
  let field ← takeField 1 "version"
  let got := (field.headD 0).toNat
  if got = version then pure got
  else throw (.range s!"{unsupported} {got}")

def noTrailing : Cursor Failure Unit := .finish (.range "trailing bytes after frame")

def decodeMultihopFrame (bytes : Uint8Array) : Except Failure WarrenMultihopFrame :=
  Cursor.all (do
    let version ← takeVersion WARREN_HPKE_VERSION "unsupported frame version"
    let exitId ← takeField EXIT_ID_LEN "exit_id"
    let epoch ← takeLeb128
    let seq ← takeLeb128
    let encapsulatedKey ← takeField ENCAPSULATED_KEY_LEN "encapsulated_key"
    let aeadTag ← takeField AEAD_TAG_LEN "aead_tag"
    let ciphertext ← takeSized "ciphertext"
    noTrailing
    return { version, exitId, epoch := (toNumber epoch : Nat), seq := (seq : Nat), encapsulatedKey,
             aeadTag, ciphertext }) bytes.1

def decodeMultihopFrameV2 (bytes : Uint8Array) : Except Failure WarrenMultihopFrameV2 :=
  if MAX_FRAME_SIZE < bytes.1.length then .error (.range "frame exceeds the maximum size")
  else
    Cursor.all (do
      let version ← takeVersion WARREN_HPKE_VERSION_V2 "unsupported /v2 frame version"
      let exitId ← takeField EXIT_ID_LEN "exit_id"
      let epoch ← takeLeb128
      let seq ← takeLeb128
      let encapsulatedKey ← takeField ENCAPSULATED_KEY_LEN "encapsulated_key"
      let pqCt ← takeSized "pq_ct"
      let aeadTag ← takeField AEAD_TAG_LEN "aead_tag"
      let ciphertext ← takeSized "ciphertext"
      noTrailing
      return { version, exitId, epoch := (toNumber epoch : Nat), seq := (seq : Nat),
               encapsulatedKey, pqCt, aeadTag, ciphertext }) bytes.1

/-! ## What is on the wire -/

/-- The octets of one integer that the decoder takes. -/
def IsVarint (bs : Bytes) : Prop := IsLeb bs ∧ bs.length ≤ 10

instance : DecidablePred IsVarint := fun bs =>
  inferInstanceAs (Decidable (IsLeb bs ∧ bs.length ≤ 10))

/-- `len` stands for the length of `field`. -/
def Sizes (len field : Bytes) : Prop := IsVarint len ∧ toNumber (ofLeb len) = field.length

/-- The parts of a frame of `/v1`, the integers as they stand. -/
structure Wire where
  exitId : Bytes
  epoch : Bytes
  seq : Bytes
  encapsulatedKey : Bytes
  aeadTag : Bytes
  ctLen : Bytes
  ciphertext : Bytes

/-- The parts of a frame of `/v2`. -/
structure WireV2 where
  exitId : Bytes
  epoch : Bytes
  seq : Bytes
  encapsulatedKey : Bytes
  pqCtLen : Bytes
  pqCt : Bytes
  aeadTag : Bytes
  ctLen : Bytes
  ciphertext : Bytes

namespace Wire

structure Valid (w : Wire) : Prop where
  exitId : w.exitId.length = EXIT_ID_LEN
  epoch : IsVarint w.epoch
  seq : IsVarint w.seq
  encapsulatedKey : w.encapsulatedKey.length = ENCAPSULATED_KEY_LEN
  aeadTag : w.aeadTag.length = AEAD_TAG_LEN
  ciphertext : Sizes w.ctLen w.ciphertext

/-- All but the version. -/
def body (w : Wire) : Bytes :=
  w.exitId ++ (w.epoch ++ (w.seq ++
    (w.encapsulatedKey ++ (w.aeadTag ++ (w.ctLen ++ w.ciphertext)))))

def bytes (w : Wire) : Bytes := UInt8.ofNat WARREN_HPKE_VERSION :: w.body

def frame (w : Wire) : WarrenMultihopFrame where
  version := WARREN_HPKE_VERSION
  exitId := w.exitId
  epoch := (toNumber (ofLeb w.epoch) : Nat)
  seq := (ofLeb w.seq : Nat)
  encapsulatedKey := w.encapsulatedKey
  aeadTag := w.aeadTag
  ciphertext := w.ciphertext

/-- Every integer is in its shortest form, and the epoch is exact as a number. -/
structure Canonical (w : Wire) : Prop where
  epoch : Shortest w.epoch
  epochNumber : toNumber (ofLeb w.epoch) = ofLeb w.epoch
  seq : Shortest w.seq
  ctLen : Shortest w.ctLen

end Wire

namespace WireV2

structure Valid (w : WireV2) : Prop where
  exitId : w.exitId.length = EXIT_ID_LEN
  epoch : IsVarint w.epoch
  seq : IsVarint w.seq
  encapsulatedKey : w.encapsulatedKey.length = ENCAPSULATED_KEY_LEN
  pqCt : Sizes w.pqCtLen w.pqCt
  aeadTag : w.aeadTag.length = AEAD_TAG_LEN
  ciphertext : Sizes w.ctLen w.ciphertext

/-- All but the version. -/
def body (w : WireV2) : Bytes :=
  w.exitId ++ (w.epoch ++ (w.seq ++ (w.encapsulatedKey ++ (w.pqCtLen ++ (w.pqCt ++ (w.aeadTag ++
    (w.ctLen ++ w.ciphertext)))))))

def bytes (w : WireV2) : Bytes := UInt8.ofNat WARREN_HPKE_VERSION_V2 :: w.body

def frame (w : WireV2) : WarrenMultihopFrameV2 where
  version := WARREN_HPKE_VERSION_V2
  exitId := w.exitId
  epoch := (toNumber (ofLeb w.epoch) : Nat)
  seq := (ofLeb w.seq : Nat)
  encapsulatedKey := w.encapsulatedKey
  pqCt := w.pqCt
  aeadTag := w.aeadTag
  ciphertext := w.ciphertext

/-- Every integer is in its shortest form, and the epoch is exact as a number. -/
structure Canonical (w : WireV2) : Prop where
  epoch : Shortest w.epoch
  epochNumber : toNumber (ofLeb w.epoch) = ofLeb w.epoch
  seq : Shortest w.seq
  pqCtLen : Shortest w.pqCtLen
  ctLen : Shortest w.ctLen

end WireV2

/-! ## What the readers take -/

@[simp] theorem expectLen_eq_ok : expectLen bytes len field = .ok u ↔ bytes.length = len := by
  unfold expectLen
  split
  · next h => exact ⟨fun _ => h, fun _ => rfl⟩
  · next h => exact ⟨nofun, fun hl => absurd hl h⟩

@[simp] theorem takeField_eq_ok {bs rest x : Bytes} :
    takeField n what bs = .ok (x, rest) ↔ bs = x ++ rest ∧ x.length = n := Cursor.slice_eq_ok

theorem takeLeb128_eq_ok {bs rest : Bytes} :
    takeLeb128 bs = .ok (v, rest) ↔ ∃ w, bs = w ++ rest ∧ IsVarint w ∧ v = ofLeb w := by
  unfold takeLeb128
  constructor
  · intro h
    cases hd : decodeLeb128 bs with
    | error e =>
      rw [hd] at h
      cases h
    | ok x =>
      obtain ⟨value, length⟩ := x
      rw [hd] at h
      cases h
      obtain ⟨w, rest, rfl, hleb, hlen, rfl, rfl⟩ := decodeLeb128_eq_ok.mp hd
      exact ⟨w, by rw [List.drop_left], ⟨hleb, hlen⟩, rfl⟩
  · rintro ⟨w, rfl, ⟨hleb, hlen⟩, rfl⟩
    rw [decodeLeb128_eq_ok.mpr ⟨w, rest, rfl, hleb, hlen, rfl, rfl⟩]
    simp [Except.map]

theorem takeSized_eq_ok {bs rest x : Bytes} :
    takeSized what bs = .ok (x, rest) ↔ ∃ len, bs = len ++ (x ++ rest) ∧ Sizes len x := by
  unfold takeSized
  rw [Cursor.bind_eq_ok]
  constructor
  · rintro ⟨length, behind, hlen, hfield⟩
    obtain ⟨len, rfl, hvarint, rfl⟩ := takeLeb128_eq_ok.mp hlen
    obtain ⟨rfl, hx⟩ := takeField_eq_ok.mp hfield
    exact ⟨len, rfl, hvarint, hx.symm⟩
  · rintro ⟨len, rfl, hvarint, hx⟩
    exact ⟨ofLeb len, x ++ rest, takeLeb128_eq_ok.mpr ⟨len, rfl, hvarint, rfl⟩,
      takeField_eq_ok.mpr ⟨rfl, hx.symm⟩⟩

theorem takeVersion_eq_ok {bs rest : Bytes} (hlt : version < 256) :
    takeVersion version unsupported bs = .ok (got, rest) ↔
      got = version ∧ bs = UInt8.ofNat version :: rest := by
  have hback : (UInt8.ofNat version).toNat = version := UInt8.toNat_ofNat_of_lt' hlt
  unfold takeVersion
  rw [Cursor.bind_eq_ok]
  constructor
  · rintro ⟨field, behind, hfield, hgot⟩
    obtain ⟨rfl, hlen⟩ := takeField_eq_ok.mp hfield
    obtain ⟨b, rfl⟩ := List.length_eq_one_iff.mp hlen
    change (if b.toNat = version then pure b.toNat else throw _ : Cursor Failure Nat) behind = _
      at hgot
    by_cases hb : b.toNat = version
    · rw [if_pos hb] at hgot
      obtain ⟨rfl, rfl⟩ := Cursor.pure_eq_ok.mp hgot
      refine ⟨hb, ?_⟩
      rw [← hb, UInt8.ofNat_toNat]
      rfl
    · rw [if_neg hb] at hgot
      cases hgot
  · rintro ⟨rfl, rfl⟩
    refine ⟨[UInt8.ofNat got], rest, takeField_eq_ok.mpr ⟨rfl, rfl⟩, ?_⟩
    simp only [List.headD_cons, hback, if_true]
    rfl

/-- The decoder of `/v1` takes the parts of a frame, and nothing else. -/
theorem decodeMultihopFrame_eq_ok {bytes : Uint8Array} : decodeMultihopFrame bytes = .ok frame ↔
    ∃ w : Wire, w.Valid ∧ w.bytes = bytes.1 ∧ w.frame = frame := by
  have hversion : WARREN_HPKE_VERSION < 256 := by decide
  obtain ⟨bytes, hexact⟩ := bytes
  unfold decodeMultihopFrame
  rw [Cursor.all_eq_ok]
  constructor
  · rintro ⟨rest, h₀⟩
    obtain ⟨_, _, r₁, h₁⟩ := Cursor.bind_eq_ok.mp h₀
    obtain ⟨rfl, rfl⟩ := (takeVersion_eq_ok hversion).mp r₁
    obtain ⟨exitId, _, r₂, h₂⟩ := Cursor.bind_eq_ok.mp h₁
    obtain ⟨rfl, hexit⟩ := takeField_eq_ok.mp r₂
    obtain ⟨_, _, r₃, h₃⟩ := Cursor.bind_eq_ok.mp h₂
    obtain ⟨epoch, rfl, hepoch, rfl⟩ := takeLeb128_eq_ok.mp r₃
    obtain ⟨_, _, r₄, h₄⟩ := Cursor.bind_eq_ok.mp h₃
    obtain ⟨seq, rfl, hseq, rfl⟩ := takeLeb128_eq_ok.mp r₄
    obtain ⟨key, _, r₅, h₅⟩ := Cursor.bind_eq_ok.mp h₄
    obtain ⟨rfl, hkey⟩ := takeField_eq_ok.mp r₅
    obtain ⟨tag, _, r₆, h₆⟩ := Cursor.bind_eq_ok.mp h₅
    obtain ⟨rfl, htag⟩ := takeField_eq_ok.mp r₆
    obtain ⟨ct, _, r₇, h₇⟩ := Cursor.bind_eq_ok.mp h₆
    obtain ⟨ctLen, rfl, hct⟩ := takeSized_eq_ok.mp r₇
    obtain ⟨_, _, r₈, h₈⟩ := Cursor.bind_eq_ok.mp h₇
    obtain ⟨rfl, rfl⟩ := Cursor.finish_eq_ok.mp r₈
    obtain ⟨rfl, rfl⟩ := Cursor.pure_eq_ok.mp h₈
    refine ⟨⟨exitId, epoch, seq, key, tag, ctLen, ct⟩, ⟨hexit, hepoch, hseq, hkey, htag, hct⟩,
      ?_, rfl⟩
    simp only [Wire.bytes, Wire.body, List.append_nil]
  · rintro ⟨w, h, rfl, rfl⟩
    refine ⟨[], Cursor.bind_eq_ok.mpr ⟨_, _, (takeVersion_eq_ok hversion).mpr ⟨rfl, rfl⟩, ?_⟩⟩
    refine Cursor.bind_eq_ok.mpr ⟨_, _, takeField_eq_ok.mpr ⟨rfl, h.exitId⟩, ?_⟩
    refine Cursor.bind_eq_ok.mpr ⟨_, _, takeLeb128_eq_ok.mpr ⟨_, rfl, h.epoch, rfl⟩, ?_⟩
    refine Cursor.bind_eq_ok.mpr ⟨_, _, takeLeb128_eq_ok.mpr ⟨_, rfl, h.seq, rfl⟩, ?_⟩
    refine Cursor.bind_eq_ok.mpr ⟨_, _, takeField_eq_ok.mpr ⟨rfl, h.encapsulatedKey⟩, ?_⟩
    refine Cursor.bind_eq_ok.mpr ⟨_, _, takeField_eq_ok.mpr ⟨rfl, h.aeadTag⟩, ?_⟩
    have hct : w.ctLen ++ w.ciphertext = w.ctLen ++ (w.ciphertext ++ []) := by rw [List.append_nil]
    refine Cursor.bind_eq_ok.mpr ⟨_, [], takeSized_eq_ok.mpr ⟨_, hct, h.ciphertext⟩, ?_⟩
    exact Cursor.bind_eq_ok.mpr ⟨(), [], Cursor.finish_eq_ok.mpr ⟨rfl, rfl⟩, rfl⟩

/-- The decoder of `/v2` takes the parts of a frame that is not too long. -/
theorem decodeMultihopFrameV2_eq_ok {bytes : Uint8Array} : decodeMultihopFrameV2 bytes = .ok frame ↔
    bytes.1.length ≤ MAX_FRAME_SIZE ∧
      ∃ w : WireV2, w.Valid ∧ w.bytes = bytes.1 ∧ w.frame = frame := by
  have hversion : WARREN_HPKE_VERSION_V2 < 256 := by decide
  obtain ⟨bytes, hexact⟩ := bytes
  unfold decodeMultihopFrameV2
  split
  · next hlong =>
    constructor
    · intro h
      cases h
    · exact fun h => absurd h.1 (Nat.not_le.mpr hlong)
  · next hlen =>
    rw [Cursor.all_eq_ok]
    constructor
    · rintro ⟨rest, h₀⟩
      obtain ⟨_, _, r₁, h₁⟩ := Cursor.bind_eq_ok.mp h₀
      obtain ⟨rfl, rfl⟩ := (takeVersion_eq_ok hversion).mp r₁
      obtain ⟨exitId, _, r₂, h₂⟩ := Cursor.bind_eq_ok.mp h₁
      obtain ⟨rfl, hexit⟩ := takeField_eq_ok.mp r₂
      obtain ⟨_, _, r₃, h₃⟩ := Cursor.bind_eq_ok.mp h₂
      obtain ⟨epoch, rfl, hepoch, rfl⟩ := takeLeb128_eq_ok.mp r₃
      obtain ⟨_, _, r₄, h₄⟩ := Cursor.bind_eq_ok.mp h₃
      obtain ⟨seq, rfl, hseq, rfl⟩ := takeLeb128_eq_ok.mp r₄
      obtain ⟨key, _, r₅, h₅⟩ := Cursor.bind_eq_ok.mp h₄
      obtain ⟨rfl, hkey⟩ := takeField_eq_ok.mp r₅
      obtain ⟨pq, _, r₆, h₆⟩ := Cursor.bind_eq_ok.mp h₅
      obtain ⟨pqLen, rfl, hpq⟩ := takeSized_eq_ok.mp r₆
      obtain ⟨tag, _, r₇, h₇⟩ := Cursor.bind_eq_ok.mp h₆
      obtain ⟨rfl, htag⟩ := takeField_eq_ok.mp r₇
      obtain ⟨ct, _, r₈, h₈⟩ := Cursor.bind_eq_ok.mp h₇
      obtain ⟨ctLen, rfl, hct⟩ := takeSized_eq_ok.mp r₈
      obtain ⟨_, _, r₉, h₉⟩ := Cursor.bind_eq_ok.mp h₈
      obtain ⟨rfl, rfl⟩ := Cursor.finish_eq_ok.mp r₉
      obtain ⟨rfl, rfl⟩ := Cursor.pure_eq_ok.mp h₉
      refine ⟨Nat.not_lt.mp hlen, ⟨exitId, epoch, seq, key, pqLen, pq, tag, ctLen, ct⟩,
        ⟨hexit, hepoch, hseq, hkey, hpq, htag, hct⟩, ?_, rfl⟩
      simp only [WireV2.bytes, WireV2.body, List.append_nil]
    · rintro ⟨-, w, h, rfl, rfl⟩
      refine ⟨[], Cursor.bind_eq_ok.mpr ⟨_, _, (takeVersion_eq_ok hversion).mpr ⟨rfl, rfl⟩, ?_⟩⟩
      refine Cursor.bind_eq_ok.mpr ⟨_, _, takeField_eq_ok.mpr ⟨rfl, h.exitId⟩, ?_⟩
      refine Cursor.bind_eq_ok.mpr ⟨_, _, takeLeb128_eq_ok.mpr ⟨_, rfl, h.epoch, rfl⟩, ?_⟩
      refine Cursor.bind_eq_ok.mpr ⟨_, _, takeLeb128_eq_ok.mpr ⟨_, rfl, h.seq, rfl⟩, ?_⟩
      refine Cursor.bind_eq_ok.mpr ⟨_, _, takeField_eq_ok.mpr ⟨rfl, h.encapsulatedKey⟩, ?_⟩
      refine Cursor.bind_eq_ok.mpr ⟨_, _, takeSized_eq_ok.mpr ⟨_, rfl, h.pqCt⟩, ?_⟩
      refine Cursor.bind_eq_ok.mpr ⟨_, _, takeField_eq_ok.mpr ⟨rfl, h.aeadTag⟩, ?_⟩
      have hct : w.ctLen ++ w.ciphertext = w.ctLen ++ (w.ciphertext ++ []) := by
        rw [List.append_nil]
      refine Cursor.bind_eq_ok.mpr ⟨_, [], takeSized_eq_ok.mpr ⟨_, hct, h.ciphertext⟩, ?_⟩
      exact Cursor.bind_eq_ok.mpr ⟨(), [], Cursor.finish_eq_ok.mpr ⟨rfl, rfl⟩, rfl⟩

end WarrenSdk.Core
