import WarrenSdk.Core.Discovery.Canonical
import WarrenSdk.Lib.Url

/-!
# The addresses of relays

What the QUIC listeners of a document are resolved to. The code leaves the check of an IPv6 literal
to the URL parser, which it gives the literal inside a URL, and of a port only that it is a whole
number: what goes wrong is said of the offers of the document (`relayAddrs_wellFormed_iff`).
-/

namespace WarrenSdk.Core.Discovery.RelayList
open Lib
open Lib.Json (natText)
open Lib.Url (IsIpv4Literal isIpv6Literal isLiteralUnit IsHost BeginsRest readAuthority isDropped)

/-! ## Addresses -/

/-- A host of a family, as it stands in a URL. -/
def IsLiteralHost (family host : Utf16) : Prop :=
  family = "ipv4" ∧ IsIpv4Literal host ∨
    family = "ipv6" ∧ ∃ literal, isIpv6Literal literal = true ∧ host = 0x5B :: (literal ++ [0x5D])

/-- A literal of the family and a port, and nothing else when a URL has it as its authority. -/
def WellFormedAddress (family address : Utf16) : Prop :=
  ∃ host port, IsLiteralHost family host ∧ port ≤ 65535 ∧ address = host ++ 0x3A :: natText port ∧
    ∀ rest, BeginsRest rest → readAuthority (address ++ rest) =
      some { userinfo := none, host, port := some port, rest := rest.filter (!isDropped ·) }

/-! ## What a document offers -/

structure Offer where
  family : Utf16
  addr : Utf16
  port : Nat

def field (key : Utf16) : Json → Option Json
  | .object members => Json.member members key
  | _ => none

def items (key : Utf16) (v : Json) : List Json :=
  match field key v with
  | some (.array items) => items
  | _ => []

/-- What a listener of an endpoint offers, when it is one for QUIC. -/
def listenerOffer (ep l : Json) : Option Offer :=
  match field "transport" l, field "family" ep, field "addr" ep,
    (field "port" l).bind Json.nat? with
  | some (.string transport), some (.string family), some (.string addr), some port =>
    if transport = ("quic" : Utf16) then some { family, addr, port } else none
  | _, _, _, _ => none

def nodeOffers (node : Json) : List Offer :=
  (items "endpoints" node).flatMap fun ep => (items "listeners" ep).filterMap (listenerOffer ep)

/-- A port that there is, and an address of the family `ipv6` without foreign units. -/
def Offer.Plain (offer : Offer) : Prop :=
  offer.port ≤ 65535 ∧
    (offer.family = ("ipv6" : Utf16) → ∀ u ∈ offer.addr, isLiteralUnit u = true)

/-- The host that the address of an offer begins with. -/
def Offer.host (offer : Offer) : Utf16 :=
  if offer.family = ("ipv6" : Utf16) then 0x5B :: (offer.addr ++ [0x5D]) else offer.addr

def Offer.address (offer : Offer) : Utf16 := offer.host ++ 0x3A :: natText offer.port

/-- Of the URLs that the check of a literal makes, those are taken whose text is a literal, when it
has the units of literals only. -/
def ReadsIpv6 (isUrl : Utf16 → Bool) : Prop :=
  ∀ s, (∀ u ∈ s, isLiteralUnit u = true) →
    isUrl (("http://[" : Utf16) ++ s ++ ("]/" : Utf16)) = isIpv6Literal s

/-! ## Ports and literals -/

theorem colon_not_mem_natText (n : Nat) : 0x3A ∉ natText n := fun h =>
  absurd ((Json.natText_decimal n).digits _ h) (by decide)

/-- An address is cut at its last colon. -/
theorem address_inj {host host' : Utf16} {port port' : Nat}
    (h : host ++ 0x3A :: natText port = host' ++ 0x3A :: natText port') :
    host = host' ∧ port = port' := by
  have hreverse := congrArg List.reverse h
  simp only [List.reverse_append, List.reverse_cons, List.append_assoc, List.cons_append,
    List.nil_append] at hreverse
  obtain ⟨hport, hhost⟩ := Url.append_cons_inj (mt List.mem_reverse.mp (colon_not_mem_natText port))
    (mt List.mem_reverse.mp (colon_not_mem_natText port')) hreverse
  exact ⟨List.reverse_injective hhost, Json.natText_inj (List.reverse_injective hport)⟩

theorem isOctetText_of_part (h : isIpv4Part p = true) : Url.isOctetText p = true := by
  obtain ⟨h, hle⟩ := Bool.and_eq_true_iff.mp h
  rw [Url.isOctetText, hle, Bool.true_and, decide_eq_true_iff]
  cases p with
  | nil => cases h
  | cons u ds =>
    simp only [Bool.or_eq_true, Bool.and_eq_true, decide_eq_true_eq, List.isEmpty_iff,
      List.all_eq_true] at h
    rcases h with ⟨rfl, rfl⟩ | ⟨⟨⟨hlow, hhigh⟩, -⟩, hds⟩
    · decide
    · have hdigit : Json.isDigit u = true := by
        have hzero : (0x30 : UInt16) ≤ u := UInt16.le_trans (by decide) hlow
        simp [Json.isDigit, hzero, hhigh]
      exact (Json.natText_ofDigits hlow hdigit hds).2

theorem isIpv4_literal (h : isIpv4 s = true) : IsIpv4Literal s := by
  rw [← Url.isIpv4Literal_iff]
  simp only [isIpv4, Url.isIpv4Literal, Bool.and_eq_true, List.all_eq_true] at h ⊢
  exact ⟨h.1, fun p hp => isOctetText_of_part (h.2 p hp)⟩

theorem IsLiteralHost.isHost {family host : Utf16} (h : IsLiteralHost family host) :
    IsHost host := by
  rcases h with ⟨-, h⟩ | ⟨-, literal, hliteral, rfl⟩
  · refine .ipv4 ?_ fun u hu => Url.ipv4_units h hu
    rintro rfl
    exact absurd (Url.isIpv4Literal_iff.mpr h) (by decide)
  · exact .ipv6 fun u hu => Url.ipv6_units hliteral hu

theorem wellFormedAddress_iff {offer : Offer} :
    WellFormedAddress offer.family offer.address ↔
      IsLiteralHost offer.family offer.host ∧ offer.port ≤ 65535 := by
  constructor
  · rintro ⟨host, port, hhost, hport, heq, -⟩
    obtain ⟨hh, hp⟩ := address_inj heq
    rw [hh, hp]
    exact ⟨hhost, hport⟩
  · rintro ⟨hhost, hport⟩
    exact ⟨offer.host, offer.port, hhost, hport, rfl, fun rest hrest =>
      Url.readAuthority_host hhost.isHost hport hrest⟩

section
variable {P : Platform}

/-- What the loop over endpoints has checked of an offer. -/
def Offer.Checked (P : Platform) (offer : Offer) : Prop :=
  offer.family = ("ipv4" : Utf16) ∧ isIpv4 offer.addr = true ∨
    offer.family = ("ipv6" : Utf16) ∧ isIpv6 P offer.addr = true

theorem literalHost_iff {offer : Offer} (hurl : ReadsIpv6 P.isUrl) (h : offer.Checked P) :
    IsLiteralHost offer.family offer.host ↔
      (offer.family = ("ipv6" : Utf16) → ∀ u ∈ offer.addr, isLiteralUnit u = true) := by
  have hne : ("ipv4" : Utf16) ≠ "ipv6" := by decide
  obtain ⟨family, addr, port⟩ := offer
  rcases h with ⟨rfl, hv4⟩ | ⟨rfl, hv6⟩
  · refine iff_of_true (.inl ⟨rfl, ?_⟩) fun h => absurd h hne
    rw [Offer.host, if_neg hne]
    exact isIpv4_literal hv4
  · simp only [IsLiteralHost, Offer.host, hne.symm, false_and, false_or, true_and, if_true,
      forall_const]
    constructor
    · rintro ⟨literal, hliteral, heq⟩ u hu
      rw [List.append_cancel_right (List.cons.inj heq).2] at hu
      exact Url.ipv6_units hliteral hu
    · intro hunits
      have hread := hurl addr hunits
      simp only [isIpv6, Bool.and_eq_true] at hv6
      exact ⟨addr, hread.symm.trans hv6.2, rfl⟩

theorem Offer.Checked.wellFormed_iff {offer : Offer} (hurl : ReadsIpv6 P.isUrl)
    (h : offer.Checked P) :
    WellFormedAddress offer.family offer.address ↔ offer.Plain := by
  rw [wellFormedAddress_iff, literalHost_iff hurl h, Offer.Plain, and_comm]

/-! ## What is read of the offers -/

/-- The offers of an endpoint that was read. -/
def Endpoint.offers (ep : Endpoint) : List Offer :=
  ep.listeners.filterMap fun l =>
    if l.transport = ("quic" : Utf16) then
      some { family := ep.family, addr := ep.addr, port := l.port.1 }
    else none

def CanonicalNode.offers (n : CanonicalNode) : List Offer := n.endpoints.flatMap Endpoint.offers

theorem endpointAddrs_eq (ep : Endpoint) : endpointAddrs ep = ep.offers.map Offer.address := by
  have haddress (l : Listener) : listenerAddr ep l =
      Offer.address { family := ep.family, addr := ep.addr, port := l.port.1 } := by
    have hopen : ("[" : Utf16) = [0x5B] := by decide
    have hclose : ("]:" : Utf16) = [0x5D, 0x3A] := by decide
    have hcolon : (":" : Utf16) = [0x3A] := by decide
    simp only [listenerAddr, Offer.address, Offer.host, hopen, hclose, hcolon]
    split <;> simp
  rw [endpointAddrs, Endpoint.offers, List.map_filterMap, ← List.filterMap_eq_map,
    List.filterMap_filter]
  congr 1
  funext l
  simp only [decide_eq_true_eq, Function.comp_apply, haddress]
  split <;> rfl

theorem listenerOffer_of_validated {ctx family addr : Utf16} {ep l : Json} {k : Nat}
    {listener : Listener} (hfamily : field "family" ep = some (.string family))
    (haddr : field "addr" ep = some (.string addr))
    (h : validateListener ctx l k = .ok listener) :
    listenerOffer ep l = if listener.transport = ("quic" : Utf16) then
      some { family, addr, port := listener.port.1 } else none := by
  obtain ⟨members, hmembers, h⟩ := bind_eq_ok.mp h
  obtain ⟨port, hport, h⟩ := bind_eq_ok.mp h
  obtain ⟨transport, htransport, h⟩ := bind_eq_ok.mp h
  obtain ⟨alpn, -, h⟩ := bind_eq_ok.mp h
  cases h
  cases asObject_eq_ok hmembers
  have hp : (field "port" (.object members)).bind Json.nat? = some port.1 := asU64_eq_ok hport
  have ht : field "transport" (.object members) = some (.string transport) :=
    asString_eq_ok htransport
  simp only [listenerOffer, hfamily, haddr, hp, ht]

theorem offers_of_endpoint {ctx : Utf16} {ep : Json} {j : Nat} {endpoint : Endpoint}
    (h : validateEndpoint ctx ep j = .ok endpoint) :
    (items "listeners" ep).filterMap (listenerOffer ep) = endpoint.offers := by
  obtain ⟨members, hmembers, h⟩ := bind_eq_ok.mp h
  obtain ⟨ls, hls, h⟩ := bind_eq_ok.mp h
  obtain ⟨listeners, hlisteners, h⟩ := bind_eq_ok.mp h
  obtain ⟨addr, haddr, h⟩ := bind_eq_ok.mp h
  obtain ⟨family, hfamily, h⟩ := bind_eq_ok.mp h
  cases h
  cases asObject_eq_ok hmembers
  have hitems : items "listeners" (.object members) = ls := by
    rw [items, field, asArray_eq_ok hls]
  have hf : field "family" (.object members) = some (.string family) := asString_eq_ok hfamily
  have ha : field "addr" (.object members) = some (.string addr) := asString_eq_ok haddr
  have hmap := readAll_map hlisteners fun l k listener => listenerOffer_of_validated hf ha
  have hoffers := congrArg (List.filterMap id) hmap
  rw [List.filterMap_map, List.filterMap_map] at hoffers
  rw [hitems]
  exact hoffers

theorem nodeOffers_of_validated {node : Json} {i : Nat} {n : CanonicalNode}
    (h : validateNode node i = .ok n) : nodeOffers node = n.offers := by
  obtain ⟨members, hmembers, h⟩ := bind_eq_ok.mp h
  obtain ⟨_, -, h⟩ := bind_eq_ok.mp h
  obtain ⟨_, -, h⟩ := bind_eq_ok.mp h
  obtain ⟨eps, heps, h⟩ := bind_eq_ok.mp h
  obtain ⟨endpoints, hendpoints, h⟩ := bind_eq_ok.mp h
  have hn : n.endpoints = endpoints := by
    iterate 11 obtain ⟨_, -, h⟩ := bind_eq_ok.mp h
    cases h
    rfl
  cases asObject_eq_ok hmembers
  have hitems : items "endpoints" (.object members) = eps := by
    rw [items, field, asArray_eq_ok heps]
  have hmap := readAll_map hendpoints fun ep j endpoint => offers_of_endpoint
  rw [nodeOffers, hitems, CanonicalNode.offers, hn, List.flatMap_def, List.flatMap_def, hmap]

/-! ## What is resolved -/

theorem resolveEndpoint_eq_ok {found found' : Dial} {ep : Endpoint}
    (h : resolveEndpoint P found ep = .ok found') :
    found'.addrs = found.addrs ++ ep.offers.map Offer.address ∧
      ∀ offer ∈ ep.offers, offer.Checked P := by
  have hoffer (offer) (ho : offer ∈ ep.offers) : offer.family = ep.family ∧
      offer.addr = ep.addr := by
    obtain ⟨l, -, hl⟩ := List.mem_filterMap.mp ho
    split at hl <;> cases hl
    exact ⟨rfl, rfl⟩
  obtain ⟨_, -, h⟩ := bind_eq_ok.mp h
  rw [← endpointAddrs_eq]
  split at h
  · next hfamily =>
    obtain ⟨_, hv4, h⟩ := bind_eq_ok.mp h
    cases h
    refine ⟨rfl, fun offer ho => .inl ?_⟩
    obtain ⟨hf, ha⟩ := hoffer offer ho
    rw [hf, ha]
    exact ⟨hfamily, ensure_eq_ok.mp hv4⟩
  · split at h
    · next hfamily =>
      obtain ⟨_, hv6, h⟩ := bind_eq_ok.mp h
      cases h
      refine ⟨rfl, fun offer ho => .inr ?_⟩
      obtain ⟨hf, ha⟩ := hoffer offer ho
      rw [hf, ha]
      exact ⟨hfamily, ensure_eq_ok.mp hv6⟩
    · cases h

/-- The loop adds the addresses of each endpoint to those it has found. -/
theorem resolveEndpoints_eq_ok {eps : List Endpoint} {found found' : Dial}
    (h : eps.foldlM (resolveEndpoint P) found = .ok found') :
    found'.addrs = found.addrs ++ (eps.flatMap Endpoint.offers).map Offer.address ∧
      ∀ offer ∈ eps.flatMap Endpoint.offers, offer.Checked P := by
  induction eps generalizing found with
  | nil =>
    cases h
    exact ⟨(List.append_nil _).symm, fun offer ho => by cases ho⟩
  | cons ep eps ih =>
    rw [List.foldlM_cons] at h
    obtain ⟨next, hnext, h⟩ := bind_eq_ok.mp h
    obtain ⟨haddrs, hchecked⟩ := resolveEndpoint_eq_ok hnext
    obtain ⟨haddrs', hchecked'⟩ := ih h
    rw [List.flatMap_cons, List.map_append, ← List.append_assoc, ← haddrs]
    refine ⟨haddrs', fun offer ho => ?_⟩
    exact (List.mem_append.mp ho).elim (hchecked offer) (hchecked' offer)

theorem resolveRelay_eq_ok {n : CanonicalNode} {relay : Relay} (h : resolveRelay P n = .ok relay) :
    relay.addrs = n.offers.map Offer.address ∧ ∀ offer ∈ n.offers, offer.Checked P := by
  obtain ⟨_, -, h⟩ := bind_eq_ok.mp h
  obtain ⟨_, -, h⟩ := bind_eq_ok.mp h
  obtain ⟨found, hfound, h⟩ := bind_eq_ok.mp h
  cases h
  exact resolveEndpoints_eq_ok hfound

theorem readRelayList_offers {json : Utf16} {list : SignedList}
    (h : readRelayList P json = .ok list) :
    ∃ document, P.parse json = some document ∧
      (items "nodes" document).map nodeOffers = list.nodes.map CanonicalNode.offers := by
  unfold readRelayList at h
  split at h
  · cases h
  · next parsed hparsed =>
    obtain ⟨top, htop, h⟩ := bind_eq_ok.mp h
    iterate 7 obtain ⟨_, -, h⟩ := bind_eq_ok.mp h
    obtain ⟨nodes, hnodes, h⟩ := bind_eq_ok.mp h
    obtain ⟨read, hread, h⟩ := bind_eq_ok.mp h
    cases h
    refine ⟨parsed, hparsed, ?_⟩
    cases asObject_eq_ok htop
    have hitems : items "nodes" (.object top) = nodes := by
      rw [items, field, asArray_eq_ok hnodes]
    rw [hitems]
    exact readAll_map hread fun node i n => nodeOffers_of_validated

/-- A relation to what is related already, by a condition on what it is related to. -/
theorem forall₂_iff_forall {R Q : α → β → Prop} {C : α → Prop} {xs : List α} {ys : List β}
    (h : List.Forall₂ R xs ys) (hiff : ∀ x y, R x y → (Q x y ↔ C x)) :
    List.Forall₂ Q xs ys ↔ ∀ x ∈ xs, C x := by
  induction h with
  | nil => simp
  | cons hxy _ ih => rw [List.forall₂_cons, List.forall_mem_cons, hiff _ _ hxy, ih]

theorem addrs_wellFormed_iff {n : CanonicalNode} {relay : Relay} (hurl : ReadsIpv6 P.isUrl)
    (h : resolveRelay P n = .ok relay) :
    List.Forall₂ (fun offer address => WellFormedAddress offer.family address) n.offers
      relay.addrs ↔
      ∀ offer ∈ n.offers, offer.Plain := by
  obtain ⟨haddrs, hchecked⟩ := resolveRelay_eq_ok h
  rw [haddrs, List.forall₂_map_right_iff, List.forall₂_same]
  exact forall₂_congr fun offer ho => (hchecked offer ho).wellFormed_iff hurl

/-- The addresses that are reported of an accepted document are well formed, each under the family
it is offered under, just when the offers are plain. -/
theorem relayAddrs_wellFormed_iff (hurl : ReadsIpv6 P.isUrl) {json : Utf16}
    {serverPins : Option (List Utf16)} {out : VerifiedRelayList}
    (h : verifySignedRelayList P json serverPins = .ok out) :
    ∃ document, P.parse json = some document ∧
      (List.Forall₂ (fun node relay =>
          List.Forall₂ (fun offer address => WellFormedAddress offer.family address)
            (nodeOffers node) relay.addrs)
          (items "nodes" document) out.relays ↔
        ∀ node ∈ items "nodes" document, ∀ offer ∈ nodeOffers node, offer.Plain) := by
  obtain ⟨list, hlist, -⟩ := bind_eq_ok.mp h
  obtain ⟨relays, hrelays, rfl⟩ := verified_eq_resolved hlist h
  obtain ⟨document, hdocument, hoffers⟩ := readRelayList_offers hlist
  refine ⟨document, hdocument, ?_⟩
  have hiff := forall₂_iff_forall (mapM_eq_ok hrelays) fun n relay => addrs_wellFormed_iff hurl
  let Sound (offers : List Offer) (relay : Relay) : Prop :=
    List.Forall₂ (fun offer address => WellFormedAddress offer.family address) offers relay.addrs
  have hleft : List.Forall₂ (fun node relay => Sound (nodeOffers node) relay)
      (items "nodes" document) relays ↔
      List.Forall₂ (fun n relay => Sound (CanonicalNode.offers n) relay) list.nodes relays := by
    rw [← List.forall₂_map_left_iff (R := Sound) (f := nodeOffers), hoffers,
      List.forall₂_map_left_iff]
  have hright : (∀ node ∈ items "nodes" document, ∀ offer ∈ nodeOffers node, offer.Plain) ↔
      ∀ n ∈ list.nodes, ∀ offer ∈ CanonicalNode.offers n, offer.Plain := by
    rw [← List.forall_mem_map (P := fun offers => ∀ offer ∈ offers, Offer.Plain offer), hoffers,
      List.forall_mem_map]
  exact hleft.trans (hiff.trans hright.symm)

end

/-! ## Documents with an IPv6 address -/

def addressKey : Utf16 :=
  keyText 0xfd1724385aa0c75b64fb78cd602fa1d991fdebf76b13c58ed702eac835e9f618

/-- A list of one node at an address of the family `ipv6`. -/
def addressList (addr signature : Utf16) : Json := .object
  [("version", .number 10),
    ("nodes", .array [.object
      [("id", .string (Hex.text (.replicate 32 1))),
        ("exit_id", .string (Hex.text (.replicate 16 2))),
        ("location", .object [("country", .string "fr"), ("city", .string "City")]),
        ("weight", .number 100), ("active", .bool true),
        ("egress", .object [("ipv4", .bool true), ("ipv6", .bool false)]),
        ("endpoints", .array [.object
          [("addr", .string addr), ("family", .string "ipv6"),
            ("listeners", .array [goldenListener])]])]]),
    ("generation", .number 7), ("signed_at", .number 1000), ("expires_at", .number 22600),
    ("server_pubkey_hex", .string addressKey), ("signature_hex", .string signature)]

def literalSignature : Utf16 := signatureText
  0x7cc3f3b498114e0b800b0982b53cbc915a9c8c6b462379190b4a643b51d8cf0a
  0xb323f1601d6c976c41a30dba369e7caa93710376e9504247d22a3bd1bb21c008

def straySignature : Utf16 := signatureText
  0xa185f984eff7b4706022f97c1a8afc4604f920ea760a5f3d8264b8be8a19d59b
  0x41967f3889950f2ebe95b16676eb24cebfff4ba8cde322be827946378123de0c

def literalList : Json := addressList "2001:db8::1" literalSignature

/-- The URL of its address has the host `[::1]` and a path. -/
def strayList : Json := addressList "::1]/a" straySignature

def addressPlatform : Platform :=
  { documentPlatform [literalList, strayList] [(literalSignature, Utf16.utf8 "\x7b\"version\":10,"),
      (straySignature, Utf16.utf8 "\x7b\"version\":10,")] with
    isUrl := Url.isIpv6Url }

theorem addressPlatform_readsIpv6 : ReadsIpv6 addressPlatform.isUrl :=
  fun _ => Url.isIpv6Url_literal

theorem relayAddrs_wellFormed_iff_literal :
    ∃ out, verifySignedRelayList addressPlatform (Json.stringify literalList) none = .ok out ∧
      ∃ document, addressPlatform.parse (Json.stringify literalList) = some document ∧
        (List.Forall₂ (fun node relay =>
            List.Forall₂ (fun offer address => WellFormedAddress offer.family address)
              (nodeOffers node) relay.addrs)
            (items "nodes" document) out.relays ↔
          ∀ node ∈ items "nodes" document, ∀ offer ∈ nodeOffers node, offer.Plain) := by
  have hok : (verifySignedRelayList addressPlatform (Json.stringify literalList) none).isOk =
      true := by
    decide +kernel
  obtain ⟨out, hout⟩ := exists_ok_of_isOk hok
  exact ⟨out, hout, relayAddrs_wellFormed_iff addressPlatform_readsIpv6 hout⟩

def strayAddress : Utf16 := "[::1]/a]:443"

theorem readAuthority_strayAddress : readAuthority strayAddress =
    some { userinfo := none, host := "[::1]", port := none, rest := "/a]:443" } := by
  decide +kernel

/-- An accepted document with an address that is a host without a port, and a path. -/
theorem verifySignedRelayList_stray :
    ∃ out, verifySignedRelayList addressPlatform (Json.stringify strayList) none = .ok out ∧
      out.relays.map Relay.addrs = [[strayAddress]] ∧
      (∀ family, ¬ WellFormedAddress family strayAddress) ∧
      readAuthority strayAddress =
        some { userinfo := none, host := "[::1]", port := none, rest := "/a]:443" } := by
  have haddrs : (verifySignedRelayList addressPlatform (Json.stringify strayList) none).toOption.map
      (fun out => out.relays.map Relay.addrs) = some [[strayAddress]] := by decide +kernel
  cases hout : verifySignedRelayList addressPlatform (Json.stringify strayList) none with
  | error e =>
    rw [hout] at haddrs
    cases haddrs
  | ok out =>
    rw [hout] at haddrs
    refine ⟨out, rfl, Option.some.inj haddrs, ?_, readAuthority_strayAddress⟩
    rintro family ⟨host, port, -, -, -, hread⟩
    have hwhole := hread [] fun u hu => by cases hu
    rw [List.append_nil, readAuthority_strayAddress] at hwhole
    cases hwhole

end WarrenSdk.Core.Discovery.RelayList
