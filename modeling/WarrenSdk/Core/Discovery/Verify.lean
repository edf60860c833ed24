import WarrenSdk.Core.Discovery.Fields

/-!
# The signed relay list (`discovery/verify.ts`)

A server key signs the list, rebuilt from its validated fields. What is reported of a node is
resolved from those fields alone.
-/

namespace WarrenSdk.Core.Discovery.RelayList
open Lib

def SIGNED_VERSION : Nat := 10

inductive WarrenDiscoveryErrorCode
  | json
  | unsupportedVersion
  | serverPubkeyMismatch
  | validityTooLong
  | invalidHex
  | pubkeyNotOnCurve
  | badSignature
  | invalidNodeId
  | invalidEndpointAddress
  | endpointFamilyMismatch
  | expired
  | rolledBack
deriving DecidableEq

structure WarrenDiscoveryError where
  code : WarrenDiscoveryErrorCode
  message : Utf16
deriving DecidableEq

/-- `fail('json', …)` -/
def failJson (message : Utf16) : WarrenDiscoveryError where
  code := .json
  message := message

/-! ## Nodes -/

structure Listener where
  port : U64
  transport : Utf16
  alpn : Utf16
deriving DecidableEq

structure Endpoint where
  addr : Utf16
  family : Utf16
  listeners : List Listener
deriving DecidableEq

structure Location where
  country : Utf16
  city : Utf16
deriving DecidableEq

structure Egress where
  ipv4 : Bool
  ipv6 : Bool
deriving DecidableEq

structure CanonicalNode where
  id : Utf16
  exitId : Utf16
  location : Location
  weight : U64
  active : Bool
  egress : Egress
  endpoints : List Endpoint
  coverDomain : Option Utf16
  portForward : Option Bool
  tcpFallback : Option Bool
deriving DecidableEq

/-- The name of a field, then the index of an item in it. -/
def itemContext (ctx name : Utf16) (i : Nat) : Utf16 :=
  ctx ++ name ++ ("[" : Utf16) ++ Json.natText i ++ ("]" : Utf16)

def validateListener (ctx : Utf16) (l : Json) (k : Nat) : Except WarrenDiscoveryError Listener := do
  let listener ← asObject failJson (some l) ["port", "transport", "alpn"] []
    (itemContext ctx ".listeners" k)
  let port ← asU64 failJson (Json.member listener "port") "port"
  let transport ← asString failJson (Json.member listener "transport") "transport"
  let alpn ← asString failJson (Json.member listener "alpn") "alpn"
  return { port, transport, alpn }

def validateEndpoint (ctx : Utf16) (ep : Json) (j : Nat) :
    Except WarrenDiscoveryError Endpoint := do
  let ctx := itemContext ctx ".endpoints" j
  let endpoint ← asObject failJson (some ep) ["addr", "family", "listeners"] [] ctx
  let items ← asArray failJson (Json.member endpoint "listeners") (ctx ++ (".listeners" : Utf16))
  let listeners ← readAll (validateListener ctx) items
  let addr ← asString failJson (Json.member endpoint "addr") "addr"
  let family ← asString failJson (Json.member endpoint "family") "family"
  return { addr, family, listeners }

def validateNode (raw : Json) (index : Nat) : Except WarrenDiscoveryError CanonicalNode := do
  let ctx := itemContext [] "nodes" index
  let node ← asObject failJson (some raw)
    ["id", "exit_id", "location", "weight", "active", "egress", "endpoints"]
    ["cover_domain", "port_forward", "tcp_fallback"] ctx
  let location ← asObject failJson (Json.member node "location") ["country", "city"] []
    (ctx ++ (".location" : Utf16))
  let egress ← asObject failJson (Json.member node "egress") ["ipv4", "ipv6"] []
    (ctx ++ (".egress" : Utf16))
  let items ← asArray failJson (Json.member node "endpoints") (ctx ++ (".endpoints" : Utf16))
  let endpoints ← readAll (validateEndpoint ctx) items
  let id ← asString failJson (Json.member node "id") "id"
  let exitId ← asString failJson (Json.member node "exit_id") "exit_id"
  let country ← asString failJson (Json.member location "country") "country"
  let city ← asString failJson (Json.member location "city") "city"
  let weight ← asU64 failJson (Json.member node "weight") "weight"
  let active ← asBool failJson (Json.member node "active") "active"
  let ipv4 ← asBool failJson (Json.member egress "ipv4") "ipv4"
  let ipv6 ← asBool failJson (Json.member egress "ipv6") "ipv6"
  let coverDomain ← ifPresent (Json.member node "cover_domain")
    (asString failJson · (ctx ++ (".cover_domain" : Utf16)))
  let portForward ← ifPresent (Json.member node "port_forward")
    (asBool failJson · (ctx ++ (".port_forward" : Utf16)))
  let tcpFallback ← ifPresent (Json.member node "tcp_fallback")
    (asBool failJson · (ctx ++ (".tcp_fallback" : Utf16)))
  return {
    id, exitId, location := { country, city }, weight, active, egress := { ipv4, ipv6 }, endpoints
    coverDomain, portForward, tcpFallback }

def listenerFields (l : Listener) : List (Utf16 × Option Json) :=
  [("port", number l.port), ("transport", text l.transport), ("alpn", text l.alpn)]

def endpointFields (ep : Endpoint) : List (Utf16 × Option Json) :=
  [("addr", text ep.addr), ("family", text ep.family),
    ("listeners", some (.array (ep.listeners.map fun l => .ofFields (listenerFields l))))]

def locationFields (location : Location) : List (Utf16 × Option Json) :=
  [("country", text location.country), ("city", text location.city)]

def egressFields (egress : Egress) : List (Utf16 × Option Json) :=
  [("ipv4", some (.bool egress.ipv4)), ("ipv6", some (.bool egress.ipv6))]

def nodeFields (n : CanonicalNode) : List (Utf16 × Option Json) :=
  [("id", text n.id),
    ("exit_id", text n.exitId),
    ("location", some (.ofFields (locationFields n.location))),
    ("weight", number n.weight),
    ("active", some (.bool n.active)),
    ("egress", some (.ofFields (egressFields n.egress))),
    ("endpoints", some (.array (n.endpoints.map fun ep => .ofFields (endpointFields ep)))),
    ("cover_domain", n.coverDomain.map .string),
    ("port_forward", n.portForward.map .bool),
    ("tcp_fallback", n.tcpFallback.map .bool)]

/-! ## Addresses -/

/-- A decimal without leading zeros, of an octet. -/
def isIpv4Part (p : Utf16) : Bool :=
  (match p with
    | [] => false
    | u :: ds =>
      u = 0x30 && ds.isEmpty ||
        (0x31 ≤ u && u ≤ 0x39 && ds.length ≤ 2 && ds.all Json.isDigit)) &&
    Json.ofDigits p ≤ 255

def isIpv4 (s : Utf16) : Bool :=
  let parts := s.splitOn 0x2E
  parts.length = 4 && parts.all isIpv4Part

structure Relay where
  endpointIdHex : Utf16
  exitIdHex : Utf16
  country : Utf16
  city : Utf16
  weight : U64
  active : Bool
  ipv6Egress : Bool
  hasIpv4 : Bool
  hasIpv6 : Bool
  addrs : List Utf16
  coverDomain : Option Utf16
deriving DecidableEq

/-- What the loop over the endpoints of a node has found. -/
structure Dial where
  hasIpv4 : Bool := false
  hasIpv6 : Bool := false
  addrs : List Utf16 := []
deriving DecidableEq

/-- `HEX64` and `HEX32` -/
def isHexOf (digits : Nat) (s : Utf16) : Bool := s.length = digits && s.all Hex.isDigit

def listenerAddr (ep : Endpoint) (listener : Listener) : Utf16 :=
  if ep.family = ("ipv6" : Utf16) then
    ("[" : Utf16) ++ ep.addr ++ ("]:" : Utf16) ++ Json.natText listener.port.1
  else ep.addr ++ (":" : Utf16) ++ Json.natText listener.port.1

/-- The addresses of the QUIC listeners of an endpoint. -/
def endpointAddrs (ep : Endpoint) : List Utf16 :=
  (ep.listeners.filter fun l => l.transport = ("quic" : Utf16)).map (listenerAddr ep)

section
variable (P : Platform)

def isIpv6 (s : Utf16) : Bool :=
  s.contains 0x3A && P.isUrl (("http://[" : Utf16) ++ s ++ ("]/" : Utf16))

def resolveEndpoint (found : Dial) (ep : Endpoint) : Except WarrenDiscoveryError Dial := do
  let v4 := isIpv4 ep.addr
  let v6 := isIpv6 P ep.addr
  ensure (v4 ∨ v6) {
    code := .invalidEndpointAddress, message := "endpoint address is not an IP literal" }
  if ep.family = ("ipv4" : Utf16) then
    ensure (v4 = true) {
      code := .endpointFamilyMismatch, message := "declared ipv4 but address is not ipv4" }
    return { found with hasIpv4 := true, addrs := found.addrs ++ endpointAddrs ep }
  else if ep.family = ("ipv6" : Utf16) then
    ensure (v6 = true) {
      code := .endpointFamilyMismatch, message := "declared ipv6 but address is not ipv6" }
    return { found with hasIpv6 := true, addrs := found.addrs ++ endpointAddrs ep }
  else throw {
    code := .endpointFamilyMismatch, message := "endpoint family must be \"ipv4\" or \"ipv6\"" }

def resolveNodeId (id : Utf16) : Except WarrenDiscoveryError Utf16 :=
  if isHexOf 64 id then .ok (P.lower id)
  else
    match Ss58.decodeAddress P.base58 P.blake2b id Ss58.WARREN_SS58_PREFIX with
    | .ok bytes => .ok (P.hex.ofBytes bytes)
    | .error _ => .error {
        code := .invalidNodeId, message := "node id is neither hex nor a valid address" }

def resolveRelay (node : CanonicalNode) : Except WarrenDiscoveryError Relay := do
  let endpointIdHex ← resolveNodeId P node.id
  ensure (isHexOf 32 node.exitId) {
    code := .invalidNodeId, message := "exit id is not 32-char hex" }
  let found ← node.endpoints.foldlM (resolveEndpoint P) {}
  return {
    endpointIdHex
    exitIdHex := P.lower node.exitId
    country := node.location.country
    city := node.location.city
    weight := node.weight
    active := node.active
    ipv6Egress := node.egress.ipv6
    hasIpv4 := found.hasIpv4
    hasIpv6 := found.hasIpv6
    addrs := found.addrs
    coverDomain := node.coverDomain }

end

/-! ## Lists -/

structure VerifiedRelayList where
  generation : U64
  signedAt : U64
  expiresAt : U64
  relays : List Relay
  serverPubkeyHex : Utf16
deriving DecidableEq

/-- The validated fields of a list. -/
structure SignedList where
  version : U64
  serverPubkeyHex : Utf16
  signatureHex : Utf16
  generation : U64
  signedAt : U64
  expiresAt : U64
  nodes : List CanonicalNode

def listFields (list : SignedList) : List (Utf16 × Option Json) :=
  [("version", number list.version),
    ("nodes", some (.array (list.nodes.map fun n => .ofFields (nodeFields n)))),
    ("generation", number list.generation),
    ("signed_at", number list.signedAt),
    ("expires_at", number list.expiresAt),
    ("server_pubkey_hex", text list.serverPubkeyHex)]

/-- The octets that the server signs. -/
def SignedList.signedOctets (list : SignedList) : Bytes :=
  Utf16.utf8 (Json.stringify (.ofFields (listFields list)))

section
variable (P : Platform)

/-- The first part of `verifySignedRelayList`: what is read of a document. -/
def readRelayList (signedJson : Utf16) : Except WarrenDiscoveryError SignedList := do
  match P.parse signedJson with
  | none => throw (failJson "relay list is not valid JSON")
  | some parsed =>
    let top ← asObject failJson (some parsed)
      ["version", "nodes", "generation", "signed_at", "expires_at", "server_pubkey_hex",
        "signature_hex"] [] "signed relay list"
    let version ← asU64 failJson (Json.member top "version") "version"
    ensure (version.1 = SIGNED_VERSION) {
      code := .unsupportedVersion
      message := ("unsupported signed-list version " : Utf16) ++ Json.natText version.1 }
    let serverPubkeyHex ←
      asString failJson (Json.member top "server_pubkey_hex") "server_pubkey_hex"
    let signatureHex ← asString failJson (Json.member top "signature_hex") "signature_hex"
    let generation ← asU64 failJson (Json.member top "generation") "generation"
    let signedAt ← asU64 failJson (Json.member top "signed_at") "signed_at"
    let expiresAt ← asU64 failJson (Json.member top "expires_at") "expires_at"
    let items ← asArray failJson (Json.member top "nodes") "nodes"
    let nodes ← readAll validateNode items
    return { version, serverPubkeyHex, signatureHex, generation, signedAt, expiresAt, nodes }

/-- The check of the server's signature over the rebuilt list. -/
def checkSignature (list : SignedList) : Except WarrenDiscoveryError Unit :=
  match P.hex.toBytes list.serverPubkeyHex, P.hex.toBytes list.signatureHex with
  | some pubkeyBytes, some signatureBytes => do
    ensure (pubkeyBytes.length = 32 ∧ signatureBytes.length = 64) {
      code := .invalidHex, message := "server pubkey or signature has the wrong length" }
    match P.verify signatureBytes list.signedOctets pubkeyBytes with
    | none => throw {
        code := .pubkeyNotOnCurve, message := "server pubkey is not a valid Ed25519 point" }
    | some signatureOk => ensure (signatureOk = true) {
        code := .badSignature, message := "relay list signature did not verify" }
  | _, _ => throw {
      code := .invalidHex, message := "server pubkey or signature is not valid hex" }

def verifySignedRelayList (signedJson : Utf16) (expectedServerPubkeys : Option (List Utf16)) :
    Except WarrenDiscoveryError VerifiedRelayList := do
  let list ← readRelayList P signedJson
  ensure (isPinned P.lower expectedServerPubkeys list.serverPubkeyHex) {
    code := .serverPubkeyMismatch, message := "relay list is signed by an unpinned key" }
  checkSignature P list
  ensure (list.expiresAt.1 - list.signedAt.1 ≤ MAX_VALIDITY_SECS) {
    code := .validityTooLong, message := "relay list validity window exceeds the 7-day cap" }
  let relays ← list.nodes.mapM (resolveRelay P)
  return {
    generation := list.generation
    signedAt := list.signedAt
    expiresAt := list.expiresAt
    relays
    serverPubkeyHex := P.lower list.serverPubkeyHex }

end

end WarrenSdk.Core.Discovery.RelayList
