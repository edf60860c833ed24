import WarrenSdk.Core.Edge.Frame
import WarrenSdk.Lib.Ideal
import WarrenSdk.Lib.Utf16

/-!
# The seal of multihop packets (`edge/seal.ts`, `edge/hpke.ts`)

The slot of a packet, which is its epoch and its number in the widths they are packed in, the export
info and the associated data that are composed of it, and the sender session of `/v1`. Both versions
compose them in the same way, each behind a prefix of its own.
-/

namespace WarrenSdk.Core
open Lib

/-- `x25519` -/
structure Curve where
  getPublicKey (secret : Bytes) : Bytes
  /-- The shared secret, unless it throws. -/
  getSharedSecret (secret publicKey : Bytes) : Option Bytes

def PER_PACKET_KEY_LEN : Nat := 32
def NONCE_ZERO_12 : Bytes := List.replicate 12 0
def DIRECTION_TAG_REVERSE : UInt8 := 0x02

/-! ## Slots -/

/-- `n >>> 0` -/
def toUint32 (n : Rat) : Nat := (n.num.tdiv n.den % 2 ^ 32).toNat

/-- `BigInt.asUintN(64, n)` -/
def asUint64 (n : Int) : Nat := (n % 2 ^ 64).toNat

def beU32 (n : Rat) : Bytes := toBE 4 (toUint32 n)

def beU64 (n : Int) : Bytes := toBE 8 (asUint64 n)

/-- The epoch and the number of a packet, as they are packed. -/
def slot (epoch : Rat) (seq : Int) : Nat × Nat := (toUint32 epoch, asUint64 seq)

/-- `composeExportInfo`, behind the prefix `aad`. -/
def exportInfo (aad : Bytes) (epoch : Rat) (seq : Int) : Bytes := aad ++ (beU32 epoch ++ beU64 seq)

/-- `composeExportInfoReverse`, behind the prefix `aad`. -/
def exportInfoReverse (aad : Bytes) (epoch : Rat) (seq : Int) : Bytes :=
  exportInfo aad epoch seq ++ [DIRECTION_TAG_REVERSE]

/-- `composeAad`, behind the prefix `aad`. -/
def slotAad (aad : Bytes) (exitId : Octets EXIT_ID_LEN) (epoch : Rat) (seq : Int) : Bytes :=
  aad ++ (exitId.1 ++ (beU32 epoch ++ beU64 seq))

/-- Of what a decoder reads, the residues modulo the widths. -/
@[simp] theorem slot_natCast (epoch seq : Nat) :
    slot epoch seq = (epoch % 2 ^ 32, seq % 2 ^ 64) := by
  have hepoch : toUint32 epoch = epoch % 2 ^ 32 := by
    simp only [toUint32, Rat.num_natCast, Rat.den_natCast, Nat.cast_one, Int.tdiv_one]
    omega
  have hseq : asUint64 seq = seq % 2 ^ 64 := by
    unfold asUint64
    omega
  rw [slot, hepoch, hseq]

theorem slot_eq_iff {epoch epoch' : Rat} {seq seq' : Int} :
    beU32 epoch ++ beU64 seq = beU32 epoch' ++ beU64 seq' ↔ slot epoch seq = slot epoch' seq' := by
  have hlen : (beU32 epoch).length = (beU32 epoch').length := by simp [beU32]
  have h32 (n : Rat) : toUint32 n < 256 ^ 4 := by
    unfold toUint32
    omega
  have h64 (n : Int) : asUint64 n < 256 ^ 8 := by
    unfold asUint64
    omega
  constructor
  · intro h
    obtain ⟨hepoch, hseq⟩ := List.append_inj h hlen
    exact Prod.ext (toBE_inj (h32 _) (h32 _) hepoch) (toBE_inj (h64 _) (h64 _) hseq)
  · intro h
    obtain ⟨hepoch, hseq⟩ := Prod.mk.inj h
    rw [beU32, beU64, hepoch, hseq]
    rfl

/-- The export infos of two packets tell their slots apart, and nothing more. -/
theorem exportInfo_eq_iff {epoch epoch' : Rat} {seq seq' : Int} :
    exportInfo aad epoch seq = exportInfo aad epoch' seq' ↔ slot epoch seq = slot epoch' seq' := by
  rw [exportInfo, exportInfo, List.append_cancel_left_eq, slot_eq_iff]

theorem exportInfoReverse_eq_iff {epoch epoch' : Rat} {seq seq' : Int} :
    exportInfoReverse aad epoch seq = exportInfoReverse aad epoch' seq' ↔
      slot epoch seq = slot epoch' seq' := by
  rw [exportInfoReverse, exportInfoReverse, List.append_cancel_right_eq, exportInfo_eq_iff]

theorem slotAad_eq_iff {exitId exitId' : Octets EXIT_ID_LEN} {epoch epoch' : Rat} {seq seq' : Int} :
    slotAad aad exitId epoch seq = slotAad aad exitId' epoch' seq' ↔
      exitId = exitId' ∧ slot epoch seq = slot epoch' seq' := by
  have hlen : exitId.1.length = exitId'.1.length := exitId.2.trans exitId'.2.symm
  rw [slotAad, slotAad, List.append_cancel_left_eq]
  constructor
  · intro h
    obtain ⟨hexit, hslot⟩ := List.append_inj h hlen
    exact ⟨Subtype.ext hexit, slot_eq_iff.mp hslot⟩
  · rintro ⟨rfl, hslot⟩
    rw [slot_eq_iff.mpr hslot]

theorem length_exportInfo (aad : Bytes) (epoch : Rat) (seq : Int) :
    (exportInfo aad epoch seq).length = aad.length + 12 := by
  simp [exportInfo, beU32, beU64]

/-- The directions are told apart by the lengths of their infos. -/
theorem exportInfo_ne_reverse (aad : Bytes) (epoch epoch' : Rat) (seq seq' : Int) :
    exportInfo aad epoch seq ≠ exportInfoReverse aad epoch' seq' := by
  intro h
  have hlen := congrArg List.length h
  rw [exportInfoReverse, List.length_append, length_exportInfo, length_exportInfo] at hlen
  simp at hlen

/-! ## Sealed packets -/

/-- What is sealed, as its ciphertext and its tag. -/
def sealDetached (A : Aead) (key aad payload : Bytes) : Bytes × Bytes :=
  let sealed := A.encrypt key NONCE_ZERO_12 aad payload
  sealed.splitAt (sealed.length - AEAD_TAG_LEN)

/-- The ciphertext with its tag behind it, in an array of their lengths. -/
def attach (ciphertext aeadTag : Bytes) : Bytes :=
  ciphertext ++ (aeadTag ++ List.replicate (AEAD_TAG_LEN - aeadTag.length) 0)

def openDetached (A : Aead) (key aad ciphertext aeadTag : Bytes) : Except Failure Bytes :=
  if AEAD_TAG_LEN < aeadTag.length then .error (.range "offset is out of bounds")
  else
    match A.decrypt key NONCE_ZERO_12 aad (attach ciphertext aeadTag) with
    | some payload => .ok payload
    | none => .error (.error "invalid tag")

theorem openDetached_eq_ok {A : Aead} {key aad ciphertext aeadTag payload : Bytes} :
    openDetached A key aad ciphertext aeadTag = .ok payload ↔ aeadTag.length ≤ AEAD_TAG_LEN ∧
      A.decrypt key NONCE_ZERO_12 aad (attach ciphertext aeadTag) = some payload := by
  unfold openDetached
  split
  · next hlong =>
    constructor
    · intro h
      cases h
    · exact fun h => absurd h.1 (Nat.not_le.mpr hlong)
  · next hlen =>
    cases A.decrypt key NONCE_ZERO_12 aad (attach ciphertext aeadTag) with
    | none => simp
    | some p => simp [Nat.not_lt.mp hlen]

/-- Octets that were sealed, put together again. -/
theorem attach_sealDetached {A : Aead} (h : A.Ideal AEAD_TAG_LEN) (key aad payload : Bytes) :
    (sealDetached A key aad payload).2.length = AEAD_TAG_LEN ∧
      attach (sealDetached A key aad payload).1 (sealDetached A key aad payload).2 =
        A.encrypt key NONCE_ZERO_12 aad payload := by
  have htag := h.tag_le key NONCE_ZERO_12 aad payload
  have hlen : (sealDetached A key aad payload).2.length = AEAD_TAG_LEN := by
    simp only [sealDetached, List.splitAt_eq, List.length_drop]
    omega
  refine ⟨hlen, ?_⟩
  rw [attach, hlen, Nat.sub_self, List.replicate_zero, List.append_nil, sealDetached,
    List.splitAt_eq]
  exact List.take_append_drop _ _

/-- What was sealed opens to its payload. -/
theorem openDetached_sealDetached {A : Aead} (h : A.Ideal AEAD_TAG_LEN) (key aad payload : Bytes) :
    openDetached A key aad (sealDetached A key aad payload).1 (sealDetached A key aad payload).2 =
      .ok payload := by
  obtain ⟨hlen, hattach⟩ := attach_sealDetached h key aad payload
  refine openDetached_eq_ok.mpr ⟨Nat.le_of_eq hlen, ?_⟩
  rw [hattach, h.decrypt_encrypt]

/-- What was sealed is refused with any other key. -/
theorem openDetached_of_key_ne {A : Aead} (h : A.Ideal AEAD_TAG_LEN) (hne : key ≠ key')
    (aad aad' payload : Bytes) : ∃ e, openDetached A key aad (sealDetached A key' aad' payload).1
      (sealDetached A key' aad' payload).2 = .error e := by
  obtain ⟨hlen, hattach⟩ := attach_sealDetached h key' aad' payload
  refine ⟨.error "invalid tag", ?_⟩
  rw [openDetached, hlen, if_neg (Nat.lt_irrefl _), hattach, h.decrypt_of_key_ne hne]

/-! ## HPKE -/

def i2osp2 (n : Nat) : Bytes := toBE 2 n

def HPKE_V1 : Bytes := Utf16.utf8 "HPKE-v1"

def KEM_SUITE_ID : Bytes := Utf16.utf8 "KEM" ++ i2osp2 0x0020

def HPKE_SUITE_ID : Bytes :=
  Utf16.utf8 "HPKE" ++ (i2osp2 0x0020 ++ (i2osp2 0x0001 ++ i2osp2 0x0003))

def labeledExtract (K : Hkdf) (salt : Bytes) (label : Utf16) (ikm suiteId : Bytes) : Bytes :=
  K.extract (HPKE_V1 ++ (suiteId ++ (label.utf8 ++ ikm))) salt

def labeledExpand (K : Hkdf) (prk : Bytes) (label : Utf16) (info : Bytes) (length : Nat)
    (suiteId : Bytes) : Bytes :=
  K.expand prk (i2osp2 length ++ (HPKE_V1 ++ (suiteId ++ (label.utf8 ++ info)))) length

structure HpkeSender where
  enc : Bytes
  exporterSecret : Bytes

def setupBaseSender (K : Hkdf) (C : Curve) (pkR info skE : Bytes) : Except Failure HpkeSender :=
  let pkE := C.getPublicKey skE
  match C.getSharedSecret skE pkR with
  | none => .error (.error "invalid private or public key received")
  | some dh =>
    let eaePrk := labeledExtract K [] "eae_prk" dh KEM_SUITE_ID
    let sharedSecret := labeledExpand K eaePrk "shared_secret" (pkE ++ pkR) 32 KEM_SUITE_ID
    let pskIdHash := labeledExtract K [] "psk_id_hash" [] HPKE_SUITE_ID
    let infoHash := labeledExtract K [] "info_hash" info HPKE_SUITE_ID
    let keyScheduleContext := 0x00 :: (pskIdHash ++ infoHash)
    let secret := labeledExtract K sharedSecret "secret" [] HPKE_SUITE_ID
    .ok { enc := pkE,
          exporterSecret := labeledExpand K secret "exp" keyScheduleContext 32 HPKE_SUITE_ID }

def exportSecret (K : Hkdf) (exporterSecret exporterContext : Bytes) (length : Nat) : Bytes :=
  labeledExpand K exporterSecret "sec" exporterContext length HPKE_SUITE_ID

/-- The exported secrets of an ideal key schedule tell their contexts apart. -/
theorem exportSecret_eq_iff {K : Hkdf} (h : K.Ideal) {secret context context' : Bytes} :
    exportSecret K secret context n = exportSecret K secret context' n ↔ context = context' := by
  constructor
  · intro he
    have hinfo := (h.expand_inj he).2
    simpa only [List.append_cancel_left_eq] using hinfo
  · rintro rfl
    rfl

/-! ## The session of `/v1` -/

namespace Seal

def WARREN_HPKE_INFO_V1 : Bytes := Utf16.utf8 "warren/multihop/v1/hpke-info"
def WARREN_HPKE_AAD_V1 : Bytes := Utf16.utf8 "warren/multihop/v1/aad"

def composeExportInfo (epoch : Rat) (seq : Int) : Bytes := exportInfo WARREN_HPKE_AAD_V1 epoch seq

def composeExportInfoReverse (epoch : Rat) (seq : Int) : Bytes :=
  exportInfoReverse WARREN_HPKE_AAD_V1 epoch seq

def composeAad (exitId : Octets EXIT_ID_LEN) (epoch : Rat) (seq : Int) : Bytes :=
  slotAad WARREN_HPKE_AAD_V1 exitId epoch seq

end Seal

structure WarrenClientSession where
  sender : HpkeSender
  exitId : Octets EXIT_ID_LEN

namespace WarrenClientSession

def create (K : Hkdf) (C : Curve) (exitX25519Pubkey exitId ephemeralPriv : Bytes) :
    Except Failure WarrenClientSession := do
  let sender ← setupBaseSender K C exitX25519Pubkey Seal.WARREN_HPKE_INFO_V1 ephemeralPriv
  if h : exitId.length = EXIT_ID_LEN then return { sender, exitId := ⟨exitId, h⟩ }
  else throw (.range s!"exitId must be {EXIT_ID_LEN} bytes")

/-- `seal`, which is a command here. -/
def sealFrame (K : Hkdf) (A : Aead) (s : WarrenClientSession) (payload : Bytes) (epoch : Rat)
    (seq : Int) : WarrenMultihopFrame :=
  let key := exportSecret K s.sender.exporterSecret (Seal.composeExportInfo epoch seq)
    PER_PACKET_KEY_LEN
  let sealed := sealDetached A key (Seal.composeAad s.exitId epoch seq) payload
  { version := WARREN_HPKE_VERSION, exitId := s.exitId.1, epoch, seq,
    encapsulatedKey := s.sender.enc, aeadTag := sealed.2, ciphertext := sealed.1 }

def openResponse (K : Hkdf) (A : Aead) (s : WarrenClientSession) (frame : WarrenMultihopFrame) :
    Except Failure Bytes :=
  if frame.exitId ≠ s.exitId.1 then .error (.error "reverse frame targets a different exit")
  else
    let key := exportSecret K s.sender.exporterSecret
      (Seal.composeExportInfoReverse frame.epoch frame.seq) PER_PACKET_KEY_LEN
    openDetached A key (Seal.composeAad s.exitId frame.epoch frame.seq) frame.ciphertext
      frame.aeadTag

end WarrenClientSession

end WarrenSdk.Core
