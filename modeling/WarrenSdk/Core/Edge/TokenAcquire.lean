import WarrenSdk.Core.Edge.TokenBlinding

/-!
# Minting an epoch (`edge/token-acquire.ts`)

`mintEpoch` awaits the issuer once: `mintRequest` is what it does before, and `mintTokens` what it
makes of the answer.
-/

namespace WarrenSdk.Core
open Lib

structure TokenIssuerKey where
  epoch : Nat
  tokenKeyId : Utf16
  spkiB64 : Utf16
deriving DecidableEq

structure TokenIssuerDirectory where
  issuerName : Utf16
  epochSecs : Nat
  contextLabel : Utf16
  quotaPerEpoch : Nat
  keys : List TokenIssuerKey
deriving DecidableEq

structure EpochRequest where
  epoch : Nat
  blinded : List Utf16
deriving DecidableEq

structure TokenIssueRequest where
  epochs : List EpochRequest
  /-- Omitted when the client names no device. -/
  deviceId : Option Utf16 := none
deriving DecidableEq

structure EpochResponse where
  epoch : Nat
  issued : Bool
  blindSignatures : Option (List Utf16) := none
  rejectReason : Option Utf16 := none
deriving DecidableEq

structure TokenIssueResponse where
  epochs : List EpochResponse
deriving DecidableEq

variable (H : Hashes) (E : Encodings)

def issuerKeyForEpoch (directory : TokenIssuerDirectory) (epoch : Nat) :
    Except Failure IssuerPublicKey :=
  match directory.keys.find? (·.epoch = epoch) with
  | none => .error (tokenIssuerError ("no issuer key for epoch " ++ toString epoch))
  | some entry =>
    match E.unbase64 entry.spkiB64 with
    | none => .error (.error "invalid base64url")
    | some spki => do
      let pk ← issuerPublicKeyFromSpki H spki
      if E.bytesToHex pk.keyId.1 ≠ entry.tokenKeyId then
        throw (tokenIssuerError "issuer key id does not match the derived SHA-256(spki)")
      return pk

def currentEpoch (directory : TokenIssuerDirectory) (nowUnixSecs : Nat) : Except Failure Nat :=
  if directory.epochSecs ≤ 0 then
    .error (tokenIssuerError "directory epoch_secs must be positive")
  else .ok (nowUnixSecs / directory.epochSecs)

/-- An array holds fewer than this many elements. -/
def ARRAY_LIMIT : Nat := 2 ^ 32

/-- The blinded requests of the slots `i`, …, `i + left - 1`, and what finalizes them; `none` when a
search for a blinding factor runs out of fuel. -/
def blindSlots (pk : IssuerPublicKey) (challengeDigest : Octets 32) (blindingKey : Bytes)
    (epoch fuel : Nat) : Nat → Nat → Option (Except Failure (List (Utf16 × TokenClientState)))
  | 0, _ => some (.ok [])
  | left + 1, i =>
    match blindToken H pk challengeDigest
        { random := deterministicTokenRandom H blindingKey epoch i } fuel with
    | none => none
    | some (.error e) => some (.error e)
    | some (.ok (blindedRequest, state)) =>
      if ARRAY_LIMIT ≤ i + 1 then some (.error (.range "Invalid array length"))
      else
        match blindSlots pk challengeDigest blindingKey epoch fuel left (i + 1) with
        | none => none
        | some (.error e) => some (.error e)
        | some (.ok slots) => some (.ok ((E.base64 blindedRequest.1, state) :: slots))

/-- A batch that was sent to the issuer. -/
structure Minting where
  pk : IssuerPublicKey
  states : List TokenClientState
  request : TokenIssueRequest
deriving DecidableEq

/-- `mintEpoch` up to the issuer. -/
def mintRequest (directory : TokenIssuerDirectory) (epoch count : Nat) (blindingKey : Bytes)
    (deviceId : Option Utf16) (fuel : Nat) : Option (Except Failure Minting) :=
  match issuerKeyForEpoch H E directory epoch with
  | .error e => some (.error e)
  | .ok pk =>
    let wanted := min count directory.quotaPerEpoch
    match challengeDigestForEpoch H directory.issuerName directory.contextLabel epoch with
    | .error e => some (.error e)
    | .ok challengeDigest =>
      match blindSlots H E pk challengeDigest blindingKey epoch fuel wanted 0 with
      | none => none
      | some (.error e) => some (.error e)
      | some (.ok slots) =>
        some (.ok
          { pk
            states := slots.map (·.2)
            request := { epochs := [{ epoch, blinded := slots.map (·.1) }], deviceId } })

def finalizeTokens (pk : IssuerPublicKey) :
    List Utf16 → List TokenClientState → Except Failure (List Token)
  | [], _ => .ok []
  | _ :: _, [] =>
    .error (tokenIssuerError "issuer returned more blind signatures than requested")
  | sigB64 :: sigs, state :: states =>
    match E.unbase64 sigB64 with
    | none => .error (.error "invalid base64url")
    | some sig => do
      let token ← finalizeToken H pk sig state
      let tokens ← finalizeTokens pk sigs states
      return token :: tokens

/-- An epoch the issuer did not sign, with its reason where it gave one. -/
def epochRejected (epoch : Nat) (rejectReason : Option Utf16) : Failure :=
  let reason := rejectReason.filter (· ≠ [])
  .edge
    { code := .epochRejected
      message := "issuer did not sign epoch " ++ toString epoch ++
        reason.elim "" fun reason => ": " ++ String.ofList (Utf16.codePoints reason)
      rejectReason := reason }

/-- `mintEpoch` from the issuer's answer on. -/
def mintTokens (minting : Minting) (epoch : Nat) (response : TokenIssueResponse) :
    Except Failure (List Token) :=
  match response.epochs.find? (·.epoch = epoch) with
  | none => .error (epochRejected epoch none)
  | some epochResult =>
    if epochResult.issued then
      finalizeTokens H E minting.pk (epochResult.blindSignatures.getD []) minting.states
    else .error (epochRejected epoch epochResult.rejectReason)

end WarrenSdk.Core
