import WarrenSdk.Core.Discovery.Soundness
import WarrenSdk.Core.Discovery.Verify

/-!
# What is signed is all that is reported

The octets that a server signs tell every validated field of a document, but for the flags of a
directory that are not set (`Directory.eq_of_signedOctets`, `RelayList.eq_of_signedOctets`). What is
reported does not depend on the rest, so two documents of the same octets are reported alike.
-/

namespace WarrenSdk.Core.Discovery
open Lib Json

theorem text_inj (h : text s = text t) : s = t := Json.string.inj (Option.some.inj h)

theorem number_inj {m n : U64} (h : number m = number n) : m = n := by
  have hcast : ((m.1 : Nat) : Rat) = (n.1 : Nat) := Json.number.inj (Option.some.inj h)
  exact Subtype.ext (by exact_mod_cast hcast)

theorem map_string_inj {x y : Option Utf16} (h : x.map Json.string = y.map .string) : x = y :=
  Option.map_injective (fun _ _ => Json.string.inj) h

theorem map_hex_inj {p : Utf16 → Prop} {x y : Option (Subtype p)}
    (h : (x.map fun key => Json.string key.1) = y.map fun key => .string key.1) : x = y :=
  Option.map_injective (fun _ _ heq => Subtype.ext (Json.string.inj heq)) h

theorem array_inj {f : α → Json} {g : α → β} (hf : ∀ a b, f a = f b → g a = g b) {xs ys : List α}
    (h : some (Json.array (xs.map f)) = some (.array (ys.map f))) : xs.map g = ys.map g := by
  have hmap := Json.array.inj (Option.some.inj h)
  clear h
  induction xs generalizing ys with
  | nil => rw [List.map_eq_nil_iff.mp hmap.symm]
  | cons x xs ih =>
    cases ys with
    | nil => cases hmap
    | cons y ys =>
      obtain ⟨hhead, htail⟩ := List.cons.inj hmap
      rw [List.map_cons, List.map_cons, hf x y hhead, ih htail]

theorem plain_text (s : Utf16) : ∀ v ∈ text s, Plain v := plain_some (.string s)

theorem plain_number (n : U64) : ∀ v ∈ number n, Plain v := plain_some (.number (n.1 : Int))

theorem plain_flag (b : Option Bool) : ∀ v ∈ flag b, Plain v := by
  intro v hv
  unfold flag at hv
  split at hv <;> cases hv
  exact .bool true

/-! ## The directory -/

theorem relayFields_keys (relay : CanonicalRelay) : HasKeys (relayFields relay)
    ["relay_id", "relay_ed25519_pubkey", "endpoint", "endpoint_v6", "cover_domain",
      "tcp_fallback", "signature"] := rfl

theorem exitFields_keys (exit : CanonicalExit) : HasKeys (exitFields exit)
    ["exit_id", "exit_ed25519_pubkey", "exit_x25519_multihop_pubkey", "endpoint", "cover_domain",
      "signature", "dns_disabled", "exit_mlkem768_pubkey"] := rfl

theorem nodeFields_keys (n : CanonicalNode) : HasKeys (nodeFields n)
    ["relay", "exit", "country", "city", "asn", "weight", "attestation_hex",
      "edge_cert_sha256"] := rfl

theorem directoryFields_keys (d : Directory) : HasKeys (directoryFields d)
    ["version", "nodes", "generation", "signed_at", "expires_at", "operational_pubkey_hex",
      "operational_cert_hex", "server_pubkey_hex"] := rfl

theorem plain_relay (relay : CanonicalRelay) : Plain (ofFields (relayFields relay)) :=
  plain_ofFields (by decide) (relayFields_keys relay)
    (.cons (plain_text _) (.cons (plain_text _) (.cons (plain_text _)
      (.cons (plain_map .string) (.cons (plain_map .string) (.cons (plain_flag _)
      (.cons (plain_text _) .nil)))))))

theorem plain_exit (exit : CanonicalExit) : Plain (ofFields (exitFields exit)) :=
  plain_ofFields (by decide) (exitFields_keys exit)
    (.cons (plain_text _) (.cons (plain_text _) (.cons (plain_text _)
      (.cons (plain_map .string) (.cons (plain_map .string) (.cons (plain_text _)
      (.cons (plain_flag _) (.cons (plain_map fun key => .string key.1) .nil))))))))

theorem plain_canonicalNode (n : CanonicalNode) : Plain (canonicalNode n) :=
  plain_ofFields (by decide) (nodeFields_keys n)
    (.cons (plain_some (plain_relay n.relay)) (.cons (plain_some (plain_exit n.exit))
      (.cons (plain_text _) (.cons (plain_text _) (.cons (plain_number _) (.cons (plain_number _)
      (.cons (plain_text _) (.cons (plain_map fun cert => .string cert.1) .nil))))))))

theorem plain_directory (d : Directory) : Plain (ofFields (directoryFields d)) :=
  plain_ofFields (by decide) (directoryFields_keys d)
    (.cons (plain_number _) (.cons (plain_some (plain_array plain_canonicalNode))
      (.cons (plain_number _) (.cons (plain_number _) (.cons (plain_number _)
      (.cons (plain_text _) (.cons (plain_text _) (.cons (plain_text _) .nil))))))))

/-- A flag that is not set is absent. -/
def normalFlag (b : Option Bool) : Option Bool := if b = some true then some true else none

def CanonicalRelay.normal (relay : CanonicalRelay) : CanonicalRelay :=
  { relay with tcpFallback := normalFlag relay.tcpFallback }

def CanonicalExit.normal (exit : CanonicalExit) : CanonicalExit :=
  { exit with dnsDisabled := normalFlag exit.dnsDisabled }

/-- A node without the flags that are not set. -/
def CanonicalNode.normal (n : CanonicalNode) : CanonicalNode :=
  { n with relay := n.relay.normal, exit := n.exit.normal }

theorem normalFlag_eq (h : flag b = flag c) : normalFlag b = normalFlag c := by
  unfold flag at h
  unfold normalFlag
  by_cases hb : b = some true <;> by_cases hc : c = some true
  · rw [hb, hc]
  · rw [if_pos hb, if_neg hc] at h
    cases h
  · rw [if_neg hb, if_pos hc] at h
    cases h
  · rw [if_neg hb, if_neg hc]

theorem relay_normal_inj {r s : CanonicalRelay}
    (h : ofFields (relayFields r) = ofFields (relayFields s)) : r.normal = s.normal := by
  have hfields := ofFields_inj (by decide) (relayFields_keys r) (relayFields_keys s) h
  simp only [relayFields, List.cons.injEq, Prod.mk.injEq, true_and, and_true] at hfields
  obtain ⟨hid, hkey, hendpoint, hv6, hdomain, htcp, hsignature⟩ := hfields
  unfold CanonicalRelay.normal
  rw [Subtype.ext (text_inj hid), Subtype.ext (text_inj hkey), text_inj hendpoint,
    map_string_inj hv6, map_string_inj hdomain, normalFlag_eq htcp,
    Subtype.ext (text_inj hsignature)]

theorem exit_normal_inj {e f : CanonicalExit}
    (h : ofFields (exitFields e) = ofFields (exitFields f)) : e.normal = f.normal := by
  have hfields := ofFields_inj (by decide) (exitFields_keys e) (exitFields_keys f) h
  simp only [exitFields, List.cons.injEq, Prod.mk.injEq, true_and, and_true] at hfields
  obtain ⟨hid, hkey, hx, hendpoint, hdomain, hsignature, hdns, hmlkem⟩ := hfields
  unfold CanonicalExit.normal
  rw [Subtype.ext (text_inj hid), Subtype.ext (text_inj hkey), Subtype.ext (text_inj hx),
    map_string_inj hendpoint, map_string_inj hdomain, Subtype.ext (text_inj hsignature),
    normalFlag_eq hdns, map_hex_inj hmlkem]

theorem canonicalNode_inj (n m : CanonicalNode) (h : canonicalNode n = canonicalNode m) :
    n.normal = m.normal := by
  have hfields := ofFields_inj (by decide) (nodeFields_keys n) (nodeFields_keys m) h
  simp only [nodeFields, List.cons.injEq, Prod.mk.injEq, true_and, and_true,
    Option.some.injEq] at hfields
  obtain ⟨hrelay, hexit, hcountry, hcity, hasn, hweight, hattestation, hcert⟩ := hfields
  unfold CanonicalNode.normal
  rw [relay_normal_inj hrelay, exit_normal_inj hexit, text_inj hcountry, text_inj hcity,
    number_inj hasn, number_inj hweight, text_inj hattestation, map_hex_inj hcert]

/-- Two directories that differ in nothing that is reported. -/
structure Directory.Agree (d e : Directory) : Prop where
  nodes : d.nodes.map CanonicalNode.normal = e.nodes.map CanonicalNode.normal
  generation : d.generation = e.generation
  signedAt : d.signedAt = e.signedAt
  expiresAt : d.expiresAt = e.expiresAt
  operationalPubkeyHex : d.operationalPubkeyHex = e.operationalPubkeyHex
  serverPubkeyHex : d.serverPubkeyHex = e.serverPubkeyHex

theorem Directory.agree_of_signedOctets {d e : Directory} (h : d.signedOctets = e.signedOctets) :
    d.Agree e := by
  have hfields := ofFields_inj (by decide) (directoryFields_keys d) (directoryFields_keys e)
    (eq_of_octets (plain_directory d) (plain_directory e) h)
  simp only [directoryFields, List.cons.injEq, Prod.mk.injEq, true_and, and_true] at hfields
  obtain ⟨-, hnodes, hgeneration, hsigned, hexpires, hoperational, -, hserver⟩ := hfields
  exact {
    nodes := array_inj canonicalNode_inj hnodes
    generation := number_inj hgeneration
    signedAt := number_inj hsigned
    expiresAt := number_inj hexpires
    operationalPubkeyHex := text_inj hoperational
    serverPubkeyHex := text_inj hserver }

variable {P : Platform}

theorem normalFlag_getD (b : Option Bool) : (normalFlag b).getD false = b.getD false := by
  obtain _ | b := b
  · rfl
  · cases b <;> rfl

/-- A flag that is not set is reported as one that is absent. -/
theorem vouchNode_normal (operational : Bytes) (n : CanonicalNode) :
    (vouchNode P operational n.normal).map (verifiedExit n.normal) =
      (vouchNode P operational n).map (verifiedExit n) := by
  have hpq (key : Hex.Text) :
      vouchesPq P operational n.exit.normal key = vouchesPq P operational n.exit key := by
    unfold vouchesPq CanonicalExit.normal
    rw [normalFlag_getD]
  have hclassical :
      vouchClassical P operational n.exit.normal = vouchClassical P operational n.exit := by
    unfold vouchClassical CanonicalExit.normal
    rw [normalFlag_getD]
  have hexit : vouchExit P operational n.exit.normal = vouchExit P operational n.exit := by
    unfold vouchExit
    rw [hclassical]
    unfold CanonicalExit.normal
    dsimp only
    cases n.exit.exitMlkem768Pubkey with
    | none => rfl
    | some key =>
      dsimp only
      rw [normalFlag_getD]
      exact if_congr (by rw [← hpq key]; rfl) rfl rfl
  unfold vouchNode
  change (if _ then if _ then vouchExit P operational n.exit.normal else _ else _).map _ = _
  rw [hexit]
  rfl

theorem Directory.Agree.vouched {d e : Directory} (h : d.Agree e) (operational : Bytes) :
    vouchedDirectory P operational d = vouchedDirectory P operational e := by
  have hexits : (d.nodes.filterMap fun n => (vouchNode P operational n).map (verifiedExit n)) =
      e.nodes.filterMap fun n => (vouchNode P operational n).map (verifiedExit n) := by
    have hnormal (nodes : List CanonicalNode) :
        (nodes.filterMap fun n => (vouchNode P operational n).map (verifiedExit n)) =
          (nodes.map CanonicalNode.normal).filterMap fun n =>
            (vouchNode P operational n).map (verifiedExit n) := by
      rw [List.filterMap_map]
      exact List.filterMap_congr fun n _ => (vouchNode_normal operational n).symm
    rw [hnormal d.nodes, h.nodes, ← hnormal e.nodes]
  have hlength : d.nodes.length = e.nodes.length := by
    have hmap := congrArg List.length h.nodes
    rwa [List.length_map, List.length_map] at hmap
  unfold vouchedDirectory
  dsimp only
  rw [hexits, hlength, h.generation, h.signedAt, h.expiresAt, h.serverPubkeyHex]

theorem verified_eq_vouched {json : Utf16} {serverPins rootPins : Option (List Utf16)}
    {out : VerifiedDirectory} {d : Directory} (hd : readDirectory P json = .ok d)
    (h : verifyMultihopDirectory P json serverPins rootPins = .ok out) :
    ∃ operational, pubkey P d.operationalPubkeyHex = .ok operational ∧
      out = vouchedDirectory P operational.1 d := by
  obtain ⟨d', hd', h⟩ := bind_eq_ok.mp h
  cases hd.symm.trans hd'
  obtain ⟨_, -, h⟩ := bind_eq_ok.mp h
  obtain ⟨_, -, h⟩ := bind_eq_ok.mp h
  obtain ⟨_, -, h⟩ := bind_eq_ok.mp h
  obtain ⟨operational, hoperational, h⟩ := bind_eq_ok.mp h
  obtain ⟨_, -, h⟩ := bind_eq_ok.mp h
  exact ⟨operational, hoperational, (Except.ok.inj h).symm⟩

theorem directory_reported_alike {json json' : Utf16} {serverPins rootPins : Option (List Utf16)}
    {d d' : Directory} {out out' : VerifiedDirectory} (hd : readDirectory P json = .ok d)
    (hd' : readDirectory P json' = .ok d') (hsigned : d.signedOctets = d'.signedOctets)
    (h : verifyMultihopDirectory P json serverPins rootPins = .ok out)
    (h' : verifyMultihopDirectory P json' serverPins rootPins = .ok out') : out = out' := by
  have hagree := Directory.agree_of_signedOctets hsigned
  obtain ⟨operational, hkey, rfl⟩ := verified_eq_vouched hd h
  obtain ⟨operational', hkey', rfl⟩ := verified_eq_vouched hd' h'
  rw [hagree.operationalPubkeyHex, hkey'] at hkey
  cases hkey
  exact hagree.vouched operational.1

/-! ## The relay list -/

namespace RelayList

theorem map_bool_inj {x y : Option Bool} (h : x.map Json.bool = y.map .bool) : x = y :=
  Option.map_injective (fun _ _ => Json.bool.inj) h

theorem listenerFields_keys (l : Listener) :
    HasKeys (listenerFields l) ["port", "transport", "alpn"] := rfl

theorem endpointFields_keys (ep : Endpoint) :
    HasKeys (endpointFields ep) ["addr", "family", "listeners"] := rfl

theorem locationFields_keys (location : Location) :
    HasKeys (locationFields location) ["country", "city"] := rfl

theorem egressFields_keys (egress : Egress) : HasKeys (egressFields egress) ["ipv4", "ipv6"] := rfl

theorem nodeFields_keys (n : CanonicalNode) : HasKeys (nodeFields n)
    ["id", "exit_id", "location", "weight", "active", "egress", "endpoints", "cover_domain",
      "port_forward", "tcp_fallback"] := rfl

theorem listFields_keys (list : SignedList) : HasKeys (listFields list)
    ["version", "nodes", "generation", "signed_at", "expires_at", "server_pubkey_hex"] := rfl

theorem plain_listener (l : Listener) : Plain (ofFields (listenerFields l)) :=
  plain_ofFields (by decide) (listenerFields_keys l)
    (.cons (plain_number _) (.cons (plain_text _) (.cons (plain_text _) .nil)))

theorem plain_endpoint (ep : Endpoint) : Plain (ofFields (endpointFields ep)) :=
  plain_ofFields (by decide) (endpointFields_keys ep)
    (.cons (plain_text _) (.cons (plain_text _)
      (.cons (plain_some (plain_array plain_listener)) .nil)))

theorem plain_location (location : Location) : Plain (ofFields (locationFields location)) :=
  plain_ofFields (by decide) (locationFields_keys location)
    (.cons (plain_text _) (.cons (plain_text _) .nil))

theorem plain_egress (egress : Egress) : Plain (ofFields (egressFields egress)) :=
  plain_ofFields (by decide) (egressFields_keys egress)
    (.cons (plain_some (.bool _)) (.cons (plain_some (.bool _)) .nil))

theorem plain_node (n : CanonicalNode) : Plain (ofFields (nodeFields n)) :=
  plain_ofFields (by decide) (nodeFields_keys n)
    (.cons (plain_text _) (.cons (plain_text _) (.cons (plain_some (plain_location n.location))
      (.cons (plain_number _) (.cons (plain_some (.bool _))
      (.cons (plain_some (plain_egress n.egress))
      (.cons (plain_some (plain_array plain_endpoint)) (.cons (plain_map .string)
      (.cons (plain_map .bool) (.cons (plain_map .bool) .nil))))))))))

theorem plain_list (list : SignedList) : Plain (ofFields (listFields list)) :=
  plain_ofFields (by decide) (listFields_keys list)
    (.cons (plain_number _) (.cons (plain_some (plain_array plain_node))
      (.cons (plain_number _) (.cons (plain_number _) (.cons (plain_number _)
      (.cons (plain_text _) .nil))))))

theorem listener_inj (l m : Listener)
    (h : ofFields (listenerFields l) = ofFields (listenerFields m)) :
    l = m := by
  have hfields := ofFields_inj (by decide) (listenerFields_keys l) (listenerFields_keys m) h
  simp only [listenerFields, List.cons.injEq, Prod.mk.injEq, true_and, and_true] at hfields
  obtain ⟨hport, htransport, halpn⟩ := hfields
  cases l
  cases m
  cases number_inj hport
  cases text_inj htransport
  cases text_inj halpn
  rfl

theorem endpoint_inj (e f : Endpoint)
    (h : ofFields (endpointFields e) = ofFields (endpointFields f)) :
    e = f := by
  have hfields := ofFields_inj (by decide) (endpointFields_keys e) (endpointFields_keys f) h
  simp only [endpointFields, List.cons.injEq, Prod.mk.injEq, true_and, and_true] at hfields
  obtain ⟨haddr, hfamily, hlisteners⟩ := hfields
  have hlist := array_inj (g := fun l => l) listener_inj hlisteners
  rw [List.map_id', List.map_id'] at hlist
  cases e
  cases f
  cases text_inj haddr
  cases text_inj hfamily
  cases hlist
  rfl

theorem location_inj (l m : Location)
    (h : ofFields (locationFields l) = ofFields (locationFields m)) :
    l = m := by
  have hfields := ofFields_inj (by decide) (locationFields_keys l) (locationFields_keys m) h
  simp only [locationFields, List.cons.injEq, Prod.mk.injEq, true_and, and_true] at hfields
  obtain ⟨hcountry, hcity⟩ := hfields
  cases l
  cases m
  cases text_inj hcountry
  cases text_inj hcity
  rfl

theorem egress_inj (e f : Egress) (h : ofFields (egressFields e) = ofFields (egressFields f)) :
    e = f := by
  have hfields := ofFields_inj (by decide) (egressFields_keys e) (egressFields_keys f) h
  simp only [egressFields, List.cons.injEq, Prod.mk.injEq, true_and, and_true, Option.some.injEq,
    Json.bool.injEq] at hfields
  obtain ⟨hipv4, hipv6⟩ := hfields
  cases e
  cases f
  cases hipv4
  cases hipv6
  rfl

theorem node_inj (n m : CanonicalNode) (h : ofFields (nodeFields n) = ofFields (nodeFields m)) :
    n = m := by
  have hfields := ofFields_inj (by decide) (nodeFields_keys n) (nodeFields_keys m) h
  simp only [nodeFields, List.cons.injEq, Prod.mk.injEq, true_and, and_true] at hfields
  obtain ⟨hid, hexit, hlocation, hweight, hactive, hegress, hendpoints, hdomain, hport, htcp⟩ :=
    hfields
  have hlocation := location_inj _ _ (Option.some.inj hlocation)
  have hegress := egress_inj _ _ (Option.some.inj hegress)
  have hactive := Json.bool.inj (Option.some.inj hactive)
  have hlist := array_inj (g := fun ep => ep) endpoint_inj hendpoints
  rw [List.map_id', List.map_id'] at hlist
  cases n
  cases m
  cases text_inj hid
  cases text_inj hexit
  cases hlocation
  cases number_inj hweight
  cases hactive
  cases hegress
  cases hlist
  cases map_string_inj hdomain
  cases map_bool_inj hport
  cases map_bool_inj htcp
  rfl

/-- The octets of a list tell all of it but the signature. -/
theorem eq_of_signedOctets {list list' : SignedList}
    (h : list.signedOctets = list'.signedOctets) :
    { list with signatureHex := list'.signatureHex } = list' := by
  have hfields := ofFields_inj (by decide) (listFields_keys list) (listFields_keys list')
    (eq_of_octets (plain_list list) (plain_list list') h)
  simp only [listFields, List.cons.injEq, Prod.mk.injEq, true_and, and_true] at hfields
  obtain ⟨hversion, hnodes, hgeneration, hsigned, hexpires, hserver⟩ := hfields
  have hlist := array_inj (g := fun n => n) node_inj hnodes
  rw [List.map_id', List.map_id'] at hlist
  rw [number_inj hversion, hlist, number_inj hgeneration, number_inj hsigned, number_inj hexpires,
    text_inj hserver]

theorem verified_eq_resolved {json : Utf16} {serverPins : Option (List Utf16)}
    {out : VerifiedRelayList} {list : SignedList} (hlist : readRelayList P json = .ok list)
    (h : verifySignedRelayList P json serverPins = .ok out) :
    ∃ relays, list.nodes.mapM (resolveRelay P) = .ok relays ∧ out = {
      generation := list.generation
      signedAt := list.signedAt
      expiresAt := list.expiresAt
      relays
      serverPubkeyHex := P.lower list.serverPubkeyHex } := by
  obtain ⟨list', hlist', h⟩ := bind_eq_ok.mp h
  cases hlist.symm.trans hlist'
  obtain ⟨_, -, h⟩ := bind_eq_ok.mp h
  obtain ⟨_, -, h⟩ := bind_eq_ok.mp h
  obtain ⟨_, -, h⟩ := bind_eq_ok.mp h
  obtain ⟨relays, hrelays, h⟩ := bind_eq_ok.mp h
  exact ⟨relays, hrelays, (Except.ok.inj h).symm⟩

theorem list_reported_alike {json json' : Utf16} {serverPins : Option (List Utf16)}
    {list list' : SignedList} {out out' : VerifiedRelayList}
    (hlist : readRelayList P json = .ok list) (hlist' : readRelayList P json' = .ok list')
    (hsigned : list.signedOctets = list'.signedOctets)
    (h : verifySignedRelayList P json serverPins = .ok out)
    (h' : verifySignedRelayList P json' serverPins = .ok out') : out = out' := by
  obtain ⟨relays, hrelays, rfl⟩ := verified_eq_resolved hlist h
  obtain ⟨relays', hrelays', rfl⟩ := verified_eq_resolved hlist' h'
  have heq := eq_of_signedOctets hsigned
  rw [← heq] at hrelays' ⊢
  cases hrelays.symm.trans hrelays'
  rfl

end RelayList

/-- Two documents that are accepted under the same pins are reported alike if the octets that their
server signed are the same. -/
theorem signed_data_only (P : Platform) (serverPins rootPins : Option (List Utf16)) :
    (∀ json json' list list' out out',
      RelayList.readRelayList P json = .ok list → RelayList.readRelayList P json' = .ok list' →
      list.signedOctets = list'.signedOctets →
      RelayList.verifySignedRelayList P json serverPins = .ok out →
      RelayList.verifySignedRelayList P json' serverPins = .ok out' → out = out') ∧
    ∀ json json' d d' out out',
      readDirectory P json = .ok d → readDirectory P json' = .ok d' →
      d.signedOctets = d'.signedOctets →
      verifyMultihopDirectory P json serverPins rootPins = .ok out →
      verifyMultihopDirectory P json' serverPins rootPins = .ok out' → out = out' := by
  constructor
  · intro json json' list list' out out' hlist hlist' hsigned h h'
    exact RelayList.list_reported_alike hlist hlist' hsigned h h'
  · intro json json' d d' out out' hd hd' hsigned h h'
    exact directory_reported_alike hd hd' hsigned h h'

/-! ## Documents in two orders -/

def listSignature : Utf16 := signatureText
  0xb466c1e5c572133cde9a707ffae5c15cc33d813c51ef92cd9088599207125a97
  0x43a0a9160130b399626ec1abdb9d361fc9a741068f59059fcda2ad67d004bc0a

def goldenListener : Json :=
  .object [("port", .number 443), ("transport", .string "quic"), ("alpn", .string "h3")]

def goldenEndpoint : Json :=
  .object [("addr", .string "198.51.100.1"), ("family", .string "ipv4"),
    ("listeners", .array [goldenListener])]

def goldenListNode : Json := .object
  [("id", .string (Hex.text (.replicate 32 1))), ("exit_id", .string (Hex.text (.replicate 16 2))),
    ("location", .object [("country", .string "fr"), ("city", .string "City")]),
    ("weight", .number 100), ("active", .bool true),
    ("egress", .object [("ipv4", .bool true), ("ipv6", .bool false)]),
    ("endpoints", .array [goldenEndpoint])]

def listMembers : List (Utf16 × Json) :=
  [("version", .number 10), ("nodes", .array [goldenListNode]), ("generation", .number 7),
    ("signed_at", .number 1000), ("expires_at", .number 22600),
    ("server_pubkey_hex", .string serverPin), ("signature_hex", .string listSignature)]

/-- A list in two orders of its members, and a directory with and without a flag. -/
def twinDocuments : List Json :=
  [.object listMembers, .object listMembers.reverse, goldenDirectory [],
    goldenDirectory [("dns_disabled", .bool false)]]

def twinPlatform : Platform :=
  documentPlatform twinDocuments
    ((listSignature, Utf16.utf8 "\x7b\"version\":10,") :: goldenSignatures)

def listTexts : Utf16 × Utf16 :=
  (stringify (.object listMembers), stringify (.object listMembers.reverse))

def directoryTexts : Utf16 × Utf16 :=
  (stringify (goldenDirectory []), stringify (goldenDirectory [("dns_disabled", .bool false)]))

/-- The twins are accepted, and their octets are the same. -/
theorem twins_accepted :
    (RelayList.verifySignedRelayList twinPlatform listTexts.1 none).isOk = true ∧
      (RelayList.verifySignedRelayList twinPlatform listTexts.2 none).isOk = true ∧
      (RelayList.readRelayList twinPlatform listTexts.1).toOption.map
          RelayList.SignedList.signedOctets =
        (RelayList.readRelayList twinPlatform listTexts.2).toOption.map
          RelayList.SignedList.signedOctets ∧
      (verifyMultihopDirectory twinPlatform directoryTexts.1 none none).isOk = true ∧
      (verifyMultihopDirectory twinPlatform directoryTexts.2 none none).isOk = true ∧
      (readDirectory twinPlatform directoryTexts.1).toOption.map Directory.signedOctets =
        (readDirectory twinPlatform directoryTexts.2).toOption.map Directory.signedOctets := by
  decide +kernel

theorem signed_data_only_twins :
    (∃ out, RelayList.verifySignedRelayList twinPlatform listTexts.1 none = .ok out ∧
      RelayList.verifySignedRelayList twinPlatform listTexts.2 none = .ok out) ∧
    ∃ out, verifyMultihopDirectory twinPlatform directoryTexts.1 none none = .ok out ∧
      verifyMultihopDirectory twinPlatform directoryTexts.2 none none = .ok out := by
  obtain ⟨hok, hok', hlists, hdir, hdir', hdirectories⟩ := twins_accepted
  constructor
  · obtain ⟨out, hout⟩ := exists_ok_of_isOk hok
    obtain ⟨out', hout'⟩ := exists_ok_of_isOk hok'
    obtain ⟨list, hlist, -⟩ := bind_eq_ok.mp hout
    obtain ⟨list', hlist', -⟩ := bind_eq_ok.mp hout'
    rw [hlist, hlist'] at hlists
    cases (signed_data_only twinPlatform none none).1 _ _ list list' out out' hlist hlist'
      (Option.some.inj hlists) hout hout'
    exact ⟨out, hout, hout'⟩
  · obtain ⟨out, hout⟩ := exists_ok_of_isOk hdir
    obtain ⟨out', hout'⟩ := exists_ok_of_isOk hdir'
    obtain ⟨d, hd, -⟩ := bind_eq_ok.mp hout
    obtain ⟨d', hd', -⟩ := bind_eq_ok.mp hout'
    rw [hd, hd'] at hdirectories
    cases (signed_data_only twinPlatform none none).2 _ _ d d' out out' hd hd'
      (Option.some.inj hdirectories) hout hout'
    exact ⟨out, hout, hout'⟩

end WarrenSdk.Core.Discovery
