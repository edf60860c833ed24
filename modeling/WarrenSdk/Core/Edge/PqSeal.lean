import WarrenSdk.Core.Edge.XWing

/-!
# The post-quantum seal (`edge/pq-seal.ts`)

The sessions of `/v2`. The client holds the secret of its epoch, and after a rekey also that of the
epoch before it, until it is pruned. The exit holds the one secret it was created from.
-/

namespace WarrenSdk.Core
open Lib

namespace PqSeal

def WARREN_PQ_HPKE_SALT_V2 : Bytes := Utf16.utf8 "warren/multihop/v2/pq-hkdf-salt"
def WARREN_PQ_HPKE_AAD_V2 : Bytes := Utf16.utf8 "warren/multihop/v2/pq-aad"

def composeExportInfo (epoch : Rat) (seq : Int) : Bytes :=
  exportInfo WARREN_PQ_HPKE_AAD_V2 epoch seq

def composeExportInfoReverse (epoch : Rat) (seq : Int) : Bytes :=
  exportInfoReverse WARREN_PQ_HPKE_AAD_V2 epoch seq

def composeAad (exitId : Octets EXIT_ID_LEN) (epoch : Rat) (seq : Int) : Bytes :=
  slotAad WARREN_PQ_HPKE_AAD_V2 exitId epoch seq

def derivePerPacketKey (K : Hkdf) (sharedSecret info : Bytes) : Bytes :=
  K.expand (K.extract sharedSecret WARREN_PQ_HPKE_SALT_V2) info PER_PACKET_KEY_LEN

theorem derivePerPacketKey_eq_iff {K : Hkdf} (h : K.Ideal) {secret secret' info info' : Bytes} :
    derivePerPacketKey K secret info = derivePerPacketKey K secret' info' ↔
      secret = secret' ∧ info = info' := by
  constructor
  · intro he
    obtain ⟨hprk, hinfo⟩ := h.expand_inj he
    exact ⟨h.extract_inj hprk, hinfo⟩
  · rintro ⟨rfl, rfl⟩
    rfl

/-- The info of a packet of a direction. -/
def packetInfo (reverse : Bool) (epoch : Rat) (seq : Int) : Bytes :=
  if reverse then composeExportInfoReverse epoch seq else composeExportInfo epoch seq

/-- What both sessions seal: the frame of a payload under a secret. -/
def sealWithSecret (K : Hkdf) (A : Aead) (sharedSecret : Bytes) (exitId : Octets EXIT_ID_LEN)
    (encapsulatedKey pqCt payload : Bytes) (epoch : Rat) (seq : Int) (reverse : Bool) :
    WarrenMultihopFrameV2 :=
  let key := derivePerPacketKey K sharedSecret (packetInfo reverse epoch seq)
  let sealed := sealDetached A key (composeAad exitId epoch seq) payload
  { version := WARREN_HPKE_VERSION_V2, exitId := exitId.1, epoch, seq, encapsulatedKey, pqCt,
    aeadTag := sealed.2, ciphertext := sealed.1 }

def openWithSecret (K : Hkdf) (A : Aead) (sharedSecret : Bytes) (exitId : Octets EXIT_ID_LEN)
    (frame : WarrenMultihopFrameV2) (reverse : Bool) : Except Failure Bytes :=
  let key := derivePerPacketKey K sharedSecret (packetInfo reverse frame.epoch frame.seq)
  openDetached A key (composeAad exitId frame.epoch frame.seq) frame.ciphertext frame.aeadTag

section
variable {K : Hkdf} {A : Aead} {secret secret' : Bytes} {exitId exitId' : Octets EXIT_ID_LEN}
  {encapsulatedKey pqCt payload : Bytes} {epoch : Rat} {seq : Int} {reverse reverse' : Bool}

theorem openWithSecret_sealWithSecret (hA : A.Ideal AEAD_TAG_LEN) :
    openWithSecret K A secret exitId (sealWithSecret K A secret exitId encapsulatedKey pqCt payload
      epoch seq reverse) reverse = .ok payload :=
  openDetached_sealDetached hA _ _ _

theorem packetInfo_ne (h : reverse ≠ reverse') :
    packetInfo reverse epoch seq ≠ packetInfo reverse' epoch seq := by
  cases reverse with
  | false =>
    obtain rfl : reverse' = true := Bool.eq_true_of_not_eq_false h.symm
    exact exportInfo_ne_reverse _ _ _ _ _
  | true =>
    obtain rfl : reverse' = false := Bool.eq_false_of_not_eq_true h.symm
    exact (exportInfo_ne_reverse _ _ _ _ _).symm

/-- What was sealed with another secret, or in the other direction, is refused. -/
theorem openWithSecret_refused (hK : K.Ideal) (hA : A.Ideal AEAD_TAG_LEN)
    (h : secret ≠ secret' ∨ reverse ≠ reverse') :
    ∃ e, openWithSecret K A secret exitId (sealWithSecret K A secret' exitId' encapsulatedKey pqCt
      payload epoch seq reverse') reverse = .error e := by
  refine openDetached_of_key_ne hA (fun hkey => ?_) _ _ _
  obtain ⟨hsecret, hinfo⟩ := (derivePerPacketKey_eq_iff hK).mp hkey
  rcases h with h | h
  · exact h hsecret
  · exact packetInfo_ne h hinfo

end

end PqSeal

open PqSeal

/-! ## The client -/

structure PqPendingOldEpoch where
  sharedSecret : Bytes
  epoch : Nat

structure WarrenPqClientSession where
  recipient : XWingRecipientPublicKey
  sharedSecret : Bytes
  exitId : Octets EXIT_ID_LEN
  currentEncapsulatedKey : Bytes
  currentPqCt : Bytes
  currentEpoch : Nat
  pendingOldEpoch : Option PqPendingOldEpoch := none

namespace WarrenPqClientSession

/-- `create`, with what it draws. -/
def create (P : XWingPackages) (recipient : XWingRecipientPublicKey) (exitId : Bytes)
    (draw : Draw) :
    Except Failure WarrenPqClientSession := do
  let enc ← xwingEncapsulate P recipient draw.mSeed.1 draw.ephXSeed.1
  if h : exitId.length = EXIT_ID_LEN then
    return { recipient, sharedSecret := enc.sharedSecret, exitId := ⟨exitId, h⟩,
             currentEncapsulatedKey := enc.ciphertext.x25519Ct,
             currentPqCt := enc.ciphertext.mlkemCt, currentEpoch := 0 }
  else throw (.range s!"exitId must be {EXIT_ID_LEN} bytes")

/-- The session of the epoch that follows, with its encapsulation. -/
def next (s : WarrenPqClientSession) (enc : XWingEncapsulation) : WarrenPqClientSession :=
  { s with
    pendingOldEpoch := some { sharedSecret := s.sharedSecret, epoch := s.currentEpoch }
    sharedSecret := enc.sharedSecret
    currentEncapsulatedKey := enc.ciphertext.x25519Ct
    currentPqCt := enc.ciphertext.mlkemCt
    currentEpoch := toNumber (s.currentEpoch + 1) }

def rekey (P : XWingPackages) (draw : Draw) (s : WarrenPqClientSession) :
    Except Failure WarrenPqClientSession := do
  let enc ← xwingEncapsulate P s.recipient draw.mSeed.1 draw.ephXSeed.1
  return s.next enc

def prunePendingOldEpoch (s : WarrenPqClientSession) : WarrenPqClientSession :=
  { s with pendingOldEpoch := none }

def sealInner (K : Hkdf) (A : Aead) (s : WarrenPqClientSession) (payload : Bytes) (epoch : Rat)
    (seq : Int) (pqCt : Bytes) : WarrenMultihopFrameV2 :=
  sealWithSecret K A s.sharedSecret s.exitId s.currentEncapsulatedKey pqCt payload epoch seq false

def sealSetup (K : Hkdf) (A : Aead) (s : WarrenPqClientSession) (payload : Bytes) (epoch : Rat)
    (seq : Int) : WarrenMultihopFrameV2 :=
  s.sealInner K A payload epoch seq s.currentPqCt

/-- `seal`, which is a command here. -/
def sealData (K : Hkdf) (A : Aead) (s : WarrenPqClientSession) (payload : Bytes) (epoch : Rat)
    (seq : Int) : WarrenMultihopFrameV2 :=
  s.sealInner K A payload epoch seq []

/-- The secret for the frames of `epoch`, if there is one. -/
def secretFor (s : WarrenPqClientSession) (epoch : Rat) : Option Bytes :=
  if epoch = s.currentEpoch then some s.sharedSecret
  else
    match s.pendingOldEpoch with
    | some old => if (old.epoch : Rat) = epoch then some old.sharedSecret else none
    | none => none

def openResponse (K : Hkdf) (A : Aead) (s : WarrenPqClientSession) (frame : WarrenMultihopFrameV2) :
    Except Failure Bytes :=
  if frame.exitId ≠ s.exitId.1 then .error (.error "reverse frame targets a different exit")
  else if frame.version ≠ WARREN_HPKE_VERSION_V2 then
    .error (.error s!"unsupported /v2 frame version {frame.version}")
  else
    match s.secretFor frame.epoch with
    | some sharedSecret => openWithSecret K A sharedSecret s.exitId frame true
    | none => .error (.error "no session key for the frame epoch")

theorem openResponse_of_secretFor {s : WarrenPqClientSession} {frame : WarrenMultihopFrameV2}
    (hexit : frame.exitId = s.exitId.1) (hversion : frame.version = WARREN_HPKE_VERSION_V2)
    (h : s.secretFor frame.epoch = some secret) :
    s.openResponse K A frame = openWithSecret K A secret s.exitId frame true := by
  rw [openResponse, if_neg (not_not.mpr hexit), if_neg (not_not.mpr hversion), h]

theorem openResponse_eq_ok {s : WarrenPqClientSession} {frame : WarrenMultihopFrameV2} :
    s.openResponse K A frame = .ok payload ↔ frame.exitId = s.exitId.1 ∧
      frame.version = WARREN_HPKE_VERSION_V2 ∧ ∃ secret, s.secretFor frame.epoch = some secret ∧
        openWithSecret K A secret s.exitId frame true = .ok payload := by
  constructor
  · intro h
    unfold openResponse at h
    split at h
    · cases h
    · next hexit =>
      split at h
      · cases h
      · next hversion =>
        split at h
        · next secret hsecret => exact ⟨not_not.mp hexit, not_not.mp hversion, secret, hsecret, h⟩
        · cases h
  · rintro ⟨hexit, hversion, secret, hsecret, h⟩
    rw [openResponse_of_secretFor hexit hversion hsecret, h]

end WarrenPqClientSession

/-! ## The exit -/

structure WarrenPqExitSession where
  sharedSecret : Bytes
  exitId : Octets EXIT_ID_LEN
  encapsulatedKey : Bytes

namespace WarrenPqExitSession

def create (P : XWingPackages) (secret : XWingRecipientSecretKey) (encapsulatedKey pqCt : Bytes)
    (exitId : Octets EXIT_ID_LEN) : Except Failure WarrenPqExitSession := do
  let sharedSecret ← xwingDecapsulate P secret { mlkemCt := pqCt, x25519Ct := encapsulatedKey }
  return { sharedSecret, exitId, encapsulatedKey }

/-- `open`, which is a command here. -/
def openFrame (K : Hkdf) (A : Aead) (s : WarrenPqExitSession) (frame : WarrenMultihopFrameV2) :
    Except Failure Bytes :=
  if frame.exitId ≠ s.exitId.1 then .error (.error "frame targets a different exit")
  else if frame.version ≠ WARREN_HPKE_VERSION_V2 then
    .error (.error s!"unsupported /v2 frame version {frame.version}")
  else openWithSecret K A s.sharedSecret s.exitId frame false

def sealResponse (K : Hkdf) (A : Aead) (s : WarrenPqExitSession) (payload : Bytes) (epoch : Rat)
    (seq : Int) : WarrenMultihopFrameV2 :=
  sealWithSecret K A s.sharedSecret s.exitId s.encapsulatedKey [] payload epoch seq true

end WarrenPqExitSession

end WarrenSdk.Core
