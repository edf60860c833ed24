import WarrenSdk.Core.Discovery.Fields
import WarrenSdk.Core.Edge.PqDescriptor

/-!
# The multi-hop directory (`discovery/multihop.ts`)

A server key signs the directory, a root key the operational key, and the operational key what is
said of each node. What the directory is rebuilt to before its signature is checked is `canonical`;
a node that is not fully vouched for is dropped.
-/

namespace WarrenSdk.Core.Discovery
open Lib PqDescriptor

def MULTIHOP_DIRECTORY_VERSION : Nat := 2

def ROOT_OPERATIONAL_V1 : Bytes := Utf16.utf8 "warren/multihop/v1/root-signs-operational"
def OPERATIONAL_EXIT_V1 : Bytes := Utf16.utf8 "warren/multihop/v1/operational-signs-exit"
def OPERATIONAL_EXIT_V2 : Bytes := Utf16.utf8 "warren/multihop/v2/operational-signs-exit"
def OPERATIONAL_RELAY_V1 : Bytes := Utf16.utf8 "warren/multihop/v1/operational-signs-relay"
def OPERATIONAL_NODE_V1 : Bytes := Utf16.utf8 "warren/multihop/v1/operational-signs-node"

inductive WarrenDirectoryErrorCode
  | json
  | unsupportedVersion
  | serverPubkeyMismatch
  | invalidHex
  | badEnvelopeSignature
  | badOperationalCert
  | validityTooLong
  | expired
  | rolledBack
deriving DecidableEq

structure WarrenDirectoryError where
  code : WarrenDirectoryErrorCode
  message : Utf16
deriving DecidableEq

def failJson (message : Utf16) : WarrenDirectoryError where
  code := .json
  message := message

/-! ## Nodes -/

structure CanonicalRelay where
  relayId : Hex.Fixed 16
  relayEd25519Pubkey : Hex.Fixed 32
  endpoint : Utf16
  endpointV6 : Option Utf16
  coverDomain : Option Utf16
  tcpFallback : Option Bool
  signature : Hex.Fixed 64
deriving DecidableEq

structure CanonicalExit where
  exitId : Hex.Fixed 16
  exitEd25519Pubkey : Hex.Fixed 32
  exitX25519MultihopPubkey : Hex.Fixed 32
  endpoint : Option Utf16
  coverDomain : Option Utf16
  signature : Hex.Fixed 64
  dnsDisabled : Option Bool
  exitMlkem768Pubkey : Option Hex.Text
deriving DecidableEq

structure CanonicalNode where
  relay : CanonicalRelay
  exit : CanonicalExit
  country : Utf16
  city : Utf16
  asn : U64
  weight : U64
  attestationHex : Utf16
  edgeCertSha256 : Option (Hex.Fixed 32)
deriving DecidableEq

section
variable (P : Platform)

def asFixedHex (v : Option Json) (bytes : Nat) (ctx : Utf16) :
    Except WarrenDirectoryError (Hex.Fixed bytes) := do
  let s ← asString failJson v ctx
  if h : s.length = 2 * bytes ∧ ∀ u ∈ s, Hex.isDigit u = true then
    return ⟨P.lower s, (Hex.lower_spec P.lower h.2).1.trans h.1, (Hex.lower_spec P.lower h.2).2⟩
  else
    throw (failJson (ctx ++ (" must be " : Utf16) ++ Json.natText bytes ++ ("-byte hex" : Utf16)))

def asHex (v : Option Json) (ctx : Utf16) : Except WarrenDirectoryError Hex.Text := do
  let s ← asString failJson v ctx
  if h : s.length % 2 = 0 ∧ ∀ u ∈ s, Hex.isDigit u = true then
    return ⟨P.lower s, by rw [(Hex.lower_spec P.lower h.2).1]; exact h.1,
      (Hex.lower_spec P.lower h.2).2⟩
  else throw (failJson (ctx ++ (" must be hex" : Utf16)))

/-- The exit of a node, from the members of its object. -/
def validateExit (exitRaw : List (Utf16 × Json)) : Except WarrenDirectoryError CanonicalExit := do
  let exitId ← asFixedHex P (Json.member exitRaw "exit_id") 16 "exit_id"
  let exitEd25519Pubkey ←
    asFixedHex P (Json.member exitRaw "exit_ed25519_pubkey") 32 "exit_ed25519_pubkey"
  let exitX25519MultihopPubkey ←
    asFixedHex P (Json.member exitRaw "exit_x25519_multihop_pubkey") 32
      "exit_x25519_multihop_pubkey"
  let endpoint ← ifPresent (Json.member exitRaw "endpoint") (asString failJson · "exit.endpoint")
  let coverDomain ← ifPresent (Json.member exitRaw "cover_domain")
    (asString failJson · "exit.cover_domain")
  let signature ← asFixedHex P (Json.member exitRaw "signature") 64 "exit.signature"
  let dnsDisabled ← ifPresent (Json.member exitRaw "dns_disabled")
    (asBool failJson · "dns_disabled")
  let exitMlkem768Pubkey ← ifPresent (Json.member exitRaw "exit_mlkem768_pubkey")
    (asHex P · "exit_mlkem768_pubkey")
  return {
    exitId, exitEd25519Pubkey, exitX25519MultihopPubkey, endpoint, coverDomain, signature
    dnsDisabled, exitMlkem768Pubkey }

/-- The relay of a node, from the members of its object. -/
def validateRelay (relayRaw : List (Utf16 × Json)) :
    Except WarrenDirectoryError CanonicalRelay := do
  let relayId ← asFixedHex P (Json.member relayRaw "relay_id") 16 "relay_id"
  let relayEd25519Pubkey ←
    asFixedHex P (Json.member relayRaw "relay_ed25519_pubkey") 32 "relay_ed25519_pubkey"
  let endpoint ← asString failJson (Json.member relayRaw "endpoint") "relay.endpoint"
  let endpointV6 ← ifPresent (Json.member relayRaw "endpoint_v6")
    (asString failJson · "relay.endpoint_v6")
  let coverDomain ← ifPresent (Json.member relayRaw "cover_domain")
    (asString failJson · "relay.cover_domain")
  let tcpFallback ← ifPresent (Json.member relayRaw "tcp_fallback")
    (asBool failJson · "relay.tcp_fallback")
  let signature ← asFixedHex P (Json.member relayRaw "signature") 64 "relay.signature"
  return {
    relayId, relayEd25519Pubkey, endpoint, endpointV6, coverDomain, tcpFallback, signature }

def nodeContext (i : Nat) : Utf16 := ("nodes[" : Utf16) ++ Json.natText i ++ ("]" : Utf16)

def validateNode (raw : Json) (i : Nat) : Except WarrenDirectoryError CanonicalNode := do
  let node ← asObject failJson (some raw)
    ["relay", "exit", "country", "city", "weight", "attestation_hex"]
    ["asn", "edge_cert_sha256"] (nodeContext i)
  let relayRaw ← asObject failJson (Json.member node "relay")
    ["relay_id", "relay_ed25519_pubkey", "endpoint", "signature"]
    ["endpoint_v6", "cover_domain", "tcp_fallback"] (nodeContext i ++ (".relay" : Utf16))
  let exitRaw ← asObject failJson (Json.member node "exit")
    ["exit_id", "exit_ed25519_pubkey", "exit_x25519_multihop_pubkey", "signature"]
    ["endpoint", "cover_domain", "dns_disabled", "exit_mlkem768_pubkey"]
    (nodeContext i ++ (".exit" : Utf16))
  -- The fields of the exit are read before those of the relay.
  let exit ← validateExit P exitRaw
  let relay ← validateRelay P relayRaw
  let country ← asString failJson (Json.member node "country") "country"
  let city ← asString failJson (Json.member node "city") "city"
  let asn ← ifPresent (Json.member node "asn") (asU64 failJson · "asn")
  let weight ← asU64 failJson (Json.member node "weight") "weight"
  let attestationHex ←
    asString failJson (Json.member node "attestation_hex") "attestation_hex"
  let edgeCertSha256 ← ifPresent (Json.member node "edge_cert_sha256")
    (asFixedHex P · 32 "edge_cert_sha256")
  return {
    relay, exit, country, city, asn := asn.getD ⟨0, lt_MAX_EXACT (Nat.two_pow_pos 53)⟩, weight
    attestationHex, edgeCertSha256 }

end

/-- A flag is written when it is set. -/
def flag (b : Option Bool) : Option Json := if b = some true then some (.bool true) else none

def exitFields (exit : CanonicalExit) : List (Utf16 × Option Json) :=
  [("exit_id", text exit.exitId.1),
    ("exit_ed25519_pubkey", text exit.exitEd25519Pubkey.1),
    ("exit_x25519_multihop_pubkey", text exit.exitX25519MultihopPubkey.1),
    ("endpoint", exit.endpoint.map .string),
    ("cover_domain", exit.coverDomain.map .string),
    ("signature", text exit.signature.1),
    ("dns_disabled", flag exit.dnsDisabled),
    ("exit_mlkem768_pubkey", exit.exitMlkem768Pubkey.map fun key => .string key.1)]

def relayFields (relay : CanonicalRelay) : List (Utf16 × Option Json) :=
  [("relay_id", text relay.relayId.1),
    ("relay_ed25519_pubkey", text relay.relayEd25519Pubkey.1),
    ("endpoint", text relay.endpoint),
    ("endpoint_v6", relay.endpointV6.map .string),
    ("cover_domain", relay.coverDomain.map .string),
    ("tcp_fallback", flag relay.tcpFallback),
    ("signature", text relay.signature.1)]

def nodeFields (n : CanonicalNode) : List (Utf16 × Option Json) :=
  [("relay", some (.ofFields (relayFields n.relay))),
    ("exit", some (.ofFields (exitFields n.exit))),
    ("country", text n.country),
    ("city", text n.city),
    ("asn", number n.asn),
    ("weight", number n.weight),
    ("attestation_hex", text n.attestationHex),
    ("edge_cert_sha256", n.edgeCertSha256.map fun cert => .string cert.1)]

def canonicalNode (n : CanonicalNode) : Json := .ofFields (nodeFields n)

/-! ## Signatures -/

section
variable (P : Platform)

def pubkey (hex : Utf16) : Except WarrenDirectoryError (Octets 32) :=
  match P.hex.toBytes hex with
  | none => .error { code := .invalidHex, message := "invalid pubkey hex" }
  | some bytes =>
    if h : bytes.length = 32 then
      if P.isPoint bytes then .ok ⟨bytes, h⟩
      else .error { code := .invalidHex, message := "pubkey is not a valid Ed25519 point" }
    else .error { code := .invalidHex, message := "pubkey must be 32 bytes" }

def sig64 (hex : Utf16) : Except WarrenDirectoryError (Octets 64) :=
  match P.hex.toBytes hex with
  | none => .error { code := .invalidHex, message := "invalid signature hex" }
  | some bytes =>
    if h : bytes.length = 64 then .ok ⟨bytes, h⟩
    else .error { code := .invalidHex, message := "signature must be 64 bytes" }

/-- Whether `pub` signed the context and the parts. -/
def verifyParts (pub : Bytes) (sigHex : Utf16) (context : Bytes) (parts : List Bytes) : Bool :=
  match P.hex.toBytes sigHex with
  | none => false
  | some signature =>
    if signature.length ≠ 64 then false
    else (P.verify signature (context ++ parts.flatten) pub).getD false

/-- The low-order 32 bits of `asn`. -/
def asnBe (asn : Nat) : Bytes := toBE 4 (asn % 2 ^ 32)

structure NodeVouch where
  dnsDisabled : Bool
  exitMlkem768PubkeyHex : Option Hex.Text
deriving DecidableEq

/-- Whether the post-quantum descriptor of an exit verifies with its ML-KEM key. -/
def vouchesPq (operational : Bytes) (exit : CanonicalExit) (key : Hex.Text) : Bool :=
  match P.hex.toBytes key.1, P.hex.toBytes exit.signature.1 with
  | some ek, some signature =>
    (verifyExitDescriptorPq P.verify operational {
      exitId := (P.hex.octets exit.exitId).1
      exitX25519MultihopPubkey := (P.hex.octets exit.exitX25519MultihopPubkey).1
      dnsDisabled := exit.dnsDisabled.getD false
      exitMlkem768Pubkey := some ek
      signature }).isOk
  | _, _ => false

def dnsByte (dnsDisabled : Bool) : Bytes := [if dnsDisabled then 1 else 0]

/-- What the operational key says of an exit by the descriptors without an ML-KEM key. -/
def vouchClassical (operational : Bytes) (exit : CanonicalExit) : Option NodeVouch :=
  let dnsDisabled := exit.dnsDisabled.getD false
  let exitId := (P.hex.octets exit.exitId).1
  let exitX := (P.hex.octets exit.exitX25519MultihopPubkey).1
  if verifyParts P operational exit.signature.1 OPERATIONAL_EXIT_V2
      [exitId, exitX, dnsByte dnsDisabled] then
    some { dnsDisabled, exitMlkem768PubkeyHex := none }
  else if verifyParts P operational exit.signature.1 OPERATIONAL_EXIT_V1 [exitId, exitX] then
    -- The first version does not sign the flag.
    if dnsDisabled then none
    else some { dnsDisabled := false, exitMlkem768PubkeyHex := none }
  else none

/-- What the operational key says of an exit. -/
def vouchExit (operational : Bytes) (exit : CanonicalExit) : Option NodeVouch :=
  match exit.exitMlkem768Pubkey with
  | none => vouchClassical P operational exit
  | some key =>
    if vouchesPq P operational exit key then
      some {
        dnsDisabled := exit.dnsDisabled.getD false
        exitMlkem768PubkeyHex := some key }
    else vouchClassical P operational exit

def vouchNode (operational : Bytes) (n : CanonicalNode) : Option NodeVouch :=
  if verifyParts P operational n.relay.signature.1 OPERATIONAL_RELAY_V1
      [(P.hex.octets n.relay.relayId).1, (P.hex.octets n.relay.relayEd25519Pubkey).1] then
    if verifyParts P operational n.attestationHex OPERATIONAL_NODE_V1
        [(P.hex.octets n.relay.relayId).1, (P.hex.octets n.exit.exitEd25519Pubkey).1,
          asnBe n.asn.1, Utf16.utf8 n.country] then
      vouchExit P operational n.exit
    else none
  else none

end

/-! ## Directories -/

structure VerifiedExit where
  exitIdHex : Hex.Fixed 16
  exitEd25519PubkeyHex : Hex.Fixed 32
  exitX25519PubkeyHex : Hex.Fixed 32
  endpoint : Utf16
  endpointV6 : Option Utf16
  country : Utf16
  city : Utf16
  weight : U64
  dnsDisabled : Bool
  edgeCertSha256 : Option (Hex.Fixed 32)
  coverDomain : Option Utf16
  exitMlkem768PubkeyHex : Option Hex.Text
deriving DecidableEq

structure VerifiedDirectory where
  exits : List VerifiedExit
  generation : U64
  signedAt : U64
  expiresAt : U64
  dropped : Nat
  serverPubkeyHex : Utf16
deriving DecidableEq

/-- The validated fields of a directory. -/
structure Directory where
  version : U64
  serverPubkeyHex : Utf16
  operationalPubkeyHex : Utf16
  operationalCertHex : Utf16
  signatureHex : Utf16
  generation : U64
  signedAt : U64
  expiresAt : U64
  nodes : List CanonicalNode

def verifiedExit (n : CanonicalNode) (vouch : NodeVouch) : VerifiedExit where
  exitIdHex := n.exit.exitId
  exitEd25519PubkeyHex := n.exit.exitEd25519Pubkey
  exitX25519PubkeyHex := n.exit.exitX25519MultihopPubkey
  endpoint := n.relay.endpoint
  endpointV6 := n.relay.endpointV6
  country := n.country
  city := n.city
  weight := n.weight
  dnsDisabled := vouch.dnsDisabled
  edgeCertSha256 := n.edgeCertSha256
  coverDomain := n.exit.coverDomain
  exitMlkem768PubkeyHex := vouch.exitMlkem768PubkeyHex

def directoryFields (d : Directory) : List (Utf16 × Option Json) :=
  [("version", number d.version),
    ("nodes", some (.array (d.nodes.map canonicalNode))),
    ("generation", number d.generation),
    ("signed_at", number d.signedAt),
    ("expires_at", number d.expiresAt),
    ("operational_pubkey_hex", text d.operationalPubkeyHex),
    ("operational_cert_hex", text d.operationalCertHex),
    ("server_pubkey_hex", text d.serverPubkeyHex)]

/-- The octets that the server signs. -/
def Directory.signedOctets (d : Directory) : Bytes :=
  Utf16.utf8 (Json.stringify (.ofFields (directoryFields d)))

section
variable (P : Platform)

/-- The first part of `verifyMultihopDirectory`: what is read of a document. -/
def readDirectory (json : Utf16) : Except WarrenDirectoryError Directory := do
  match P.parse json with
  | none => throw (failJson "directory is not valid JSON")
  | some parsed =>
    let top ← asObject failJson (some parsed)
      ["version", "nodes", "generation", "signed_at", "expires_at", "operational_pubkey_hex",
        "operational_cert_hex", "server_pubkey_hex", "signature_hex"] [] "directory"
    let version ← asU64 failJson (Json.member top "version") "version"
    ensure (version.1 = MULTIHOP_DIRECTORY_VERSION) {
      code := .unsupportedVersion
      message := ("unsupported directory version " : Utf16) ++ Json.natText version.1 }
    let serverPubkeyHex ←
      asString failJson (Json.member top "server_pubkey_hex") "server_pubkey_hex"
    let operationalPubkeyHex ←
      asString failJson (Json.member top "operational_pubkey_hex") "operational_pubkey_hex"
    let operationalCertHex ←
      asString failJson (Json.member top "operational_cert_hex") "operational_cert_hex"
    let signatureHex ← asString failJson (Json.member top "signature_hex") "signature_hex"
    let generation ← asU64 failJson (Json.member top "generation") "generation"
    let signedAt ← asU64 failJson (Json.member top "signed_at") "signed_at"
    let expiresAt ← asU64 failJson (Json.member top "expires_at") "expires_at"
    let items ← asArray failJson (Json.member top "nodes") "nodes"
    let nodes ← readAll (validateNode P) items
    return {
      version, serverPubkeyHex, operationalPubkeyHex, operationalCertHex, signatureHex, generation
      signedAt, expiresAt, nodes }

/-- The check of the server's signature over the rebuilt directory. -/
def checkEnvelope (d : Directory) : Except WarrenDirectoryError Unit := do
  let serverPubkey ← pubkey P d.serverPubkeyHex
  let envelopeSig ← sig64 P d.signatureHex
  match P.verify envelopeSig.1 d.signedOctets serverPubkey.1 with
  | none => throw { code := .badEnvelopeSignature, message := "envelope signature failed" }
  | some envelopeOk => ensure (envelopeOk = true) {
      code := .badEnvelopeSignature, message := "envelope signature did not verify" }

def certifies (certHex : Utf16) (operational : Bytes) (rootHex : Utf16) : Bool :=
  match pubkey P rootHex with
  | .error _ => false
  | .ok root => verifyParts P root.1 certHex ROOT_OPERATIONAL_V1 [operational]

/-- Whether a root key certified the operational key: none has to, when no pins are given. -/
def isCertified (roots : Option (List Utf16)) (certHex : Utf16) (operational : Bytes) : Bool :=
  match roots with
  | none | some [] => true
  | some roots => roots.any (certifies P certHex operational)

/-- What is reported of a directory whose operational key is trusted. -/
def vouchedDirectory (operational : Bytes) (d : Directory) : VerifiedDirectory :=
  let exits := d.nodes.filterMap fun n => (vouchNode P operational n).map (verifiedExit n)
  { exits
    generation := d.generation
    signedAt := d.signedAt
    expiresAt := d.expiresAt
    dropped := d.nodes.length - exits.length
    serverPubkeyHex := P.lower d.serverPubkeyHex }

def verifyMultihopDirectory (json : Utf16) (expectedServerPubkeys expectedRootPubkeys :
    Option (List Utf16)) : Except WarrenDirectoryError VerifiedDirectory := do
  let d ← readDirectory P json
  ensure (isPinned P.lower expectedServerPubkeys d.serverPubkeyHex) {
    code := .serverPubkeyMismatch, message := "directory server pubkey not pinned" }
  checkEnvelope P d
  ensure (d.expiresAt.1 - d.signedAt.1 ≤ MAX_VALIDITY_SECS) {
    code := .validityTooLong, message := "directory validity window exceeds 7 days" }
  let operational ← pubkey P d.operationalPubkeyHex
  ensure (isCertified P expectedRootPubkeys d.operationalCertHex operational.1) {
    code := .badOperationalCert, message := "operational certificate failed" }
  return vouchedDirectory P operational.1 d

end

end WarrenSdk.Core.Discovery
