import WarrenSdk.Core.Errors
import WarrenSdk.Lib.Bytes

/-!
# Post-quantum exit descriptors (`edge/pq-descriptor.ts`)

The operational key signs the ML-KEM key of an exit together with what the classical descriptors
sign. `verify` stands for Ed25519: a signature, a message and a public key, `none` where it throws.
-/

namespace WarrenSdk.Core.PqDescriptor
open Lib

def WARREN_PKI_OPERATIONAL_EXIT_PQ_V1 : Bytes :=
  Utf16.utf8 "warren/multihop/v2/operational-signs-exit-pq"

def MLKEM768_ENCAPS_KEY_LEN : Nat := 1184

def EXIT_ID_LEN : Nat := 16
def X25519_PUBKEY_LEN : Nat := 32
def ED25519_PUBKEY_LEN : Nat := 32
def ED25519_SIG_LEN : Nat := 64

inductive WarrenPqErrorCode
  | missingPqKey
  | badPqKeyLength
  | badSignature
deriving DecidableEq

structure WarrenPqError where
  code : WarrenPqErrorCode
  message : String
deriving DecidableEq

structure ExitDescriptorPq where
  exitId : Bytes
  exitX25519MultihopPubkey : Bytes
  dnsDisabled : Bool
  exitMlkem768Pubkey : Option Bytes
  signature : Bytes

def badSignature (message : String) : WarrenPqError where
  code := .badSignature
  message := message

def exitDescriptorSigningPayloadPq (exitId exitX25519MultihopPubkey : Bytes) (dnsDisabled : Bool)
    (exitMlkem768Pubkey : Bytes) : Except WarrenPqError Bytes := do
  ensure (exitId.length = EXIT_ID_LEN) (badSignature "exit_id must be 16 bytes")
  ensure (exitX25519MultihopPubkey.length = X25519_PUBKEY_LEN)
    (badSignature "x25519 pubkey must be 32 bytes")
  return WARREN_PKI_OPERATIONAL_EXIT_PQ_V1 ++ exitId ++ exitX25519MultihopPubkey ++
    [if dnsDisabled then 1 else 0] ++ exitMlkem768Pubkey

section
variable (verify : Bytes → Bytes → Bytes → Option Bool)

def verifyExitDescriptorPq (operationalPubkey : Bytes) (descriptor : ExitDescriptorPq) :
    Except WarrenPqError Unit :=
  match descriptor.exitMlkem768Pubkey with
  | none => .error { code := .missingPqKey, message := "descriptor advertises no ML-KEM key" }
  | some ek => do
    ensure (ek.length = MLKEM768_ENCAPS_KEY_LEN)
      { code := .badPqKeyLength, message := "ML-KEM key has the wrong length" }
    ensure (operationalPubkey.length = ED25519_PUBKEY_LEN ∧
        descriptor.signature.length = ED25519_SIG_LEN)
      (badSignature "operational pubkey or signature has the wrong length")
    let payload ← exitDescriptorSigningPayloadPq descriptor.exitId
      descriptor.exitX25519MultihopPubkey descriptor.dnsDisabled ek
    match verify descriptor.signature payload operationalPubkey with
    | none => throw (badSignature "operational pubkey is not a valid Ed25519 point")
    | some ok => ensure (ok = true) (badSignature "PQ descriptor signature did not verify")

end

variable {verify : Bytes → Bytes → Bytes → Option Bool} {x exitId payload mlkem : Bytes}
  {descriptor : ExitDescriptorPq} {operationalPubkey : Bytes}

theorem exitDescriptorSigningPayloadPq_eq_ok :
    exitDescriptorSigningPayloadPq exitId x dns mlkem = .ok payload ↔
      exitId.length = EXIT_ID_LEN ∧ x.length = X25519_PUBKEY_LEN ∧
        WARREN_PKI_OPERATIONAL_EXIT_PQ_V1 ++ exitId ++ x ++ [if dns then 1 else 0] ++ mlkem =
          payload := by
  unfold exitDescriptorSigningPayloadPq
  rw [bind_eq_ok]
  constructor
  · rintro ⟨u, hid, h⟩
    obtain ⟨v, hx, h⟩ := bind_eq_ok.mp h
    exact ⟨ensure_eq_ok.mp hid, ensure_eq_ok.mp hx, Except.ok.inj h⟩
  · rintro ⟨hid, hx, rfl⟩
    exact ⟨(), ensure_eq_ok.mpr hid, bind_eq_ok.mpr ⟨(), ensure_eq_ok.mpr hx, rfl⟩⟩

/-- A descriptor is taken for one signature: the one over its key. -/
theorem verifyExitDescriptorPq_eq_ok
    (h : verifyExitDescriptorPq verify operationalPubkey descriptor = .ok ()) :
    ∃ ek payload, descriptor.exitMlkem768Pubkey = some ek ∧ ek.length = MLKEM768_ENCAPS_KEY_LEN ∧
      descriptor.signature.length = ED25519_SIG_LEN ∧
      exitDescriptorSigningPayloadPq descriptor.exitId descriptor.exitX25519MultihopPubkey
        descriptor.dnsDisabled ek = .ok payload ∧
      verify descriptor.signature payload operationalPubkey = some true := by
  unfold verifyExitDescriptorPq at h
  split at h
  · cases h
  · next ek hek =>
    obtain ⟨u, hlen, h⟩ := bind_eq_ok.mp h
    obtain ⟨v, hsig, h⟩ := bind_eq_ok.mp h
    obtain ⟨payload, hpayload, h⟩ := bind_eq_ok.mp h
    refine ⟨ek, payload, hek, ensure_eq_ok.mp hlen, (ensure_eq_ok.mp hsig).2, hpayload, ?_⟩
    split at h
    · cases h
    · next ok hok =>
      rw [hok, ensure_eq_ok.mp h]

end WarrenSdk.Core.PqDescriptor
