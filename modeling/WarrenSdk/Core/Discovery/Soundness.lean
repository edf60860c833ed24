import Mathlib.Data.List.Forall2
import WarrenSdk.Core.Discovery.Statements

/-!
# What an accepted directory is backed by

If the verifier takes a document, its envelope is signed by the server key that it names, every exit
that is reported is the exit of a node for which the operational key signed all three statements,
and what is reported of the exit beyond its keys is what the signature covers.
-/

namespace WarrenSdk.Core.Discovery
open Lib PqDescriptor

variable (P : Platform)

/-- The text of a signature over a statement verifies under a public key. -/
def Signs (pub : Bytes) (sigHex : Utf16) (s : Statement) : Prop :=
  ∃ signature, P.hex.toBytes sigHex = some signature ∧ signature.length = 64 ∧
    P.verify signature (s.payload P.hex) pub = some true

/-- An exit is reported of a node that the operational key vouches for. -/
structure Built (operational : Bytes) (n : CanonicalNode) (e : VerifiedExit) : Prop where
  relay : Signs P operational n.relay.signature.1
    (.relay n.relay.relayId n.relay.relayEd25519Pubkey)
  attestation : Signs P operational n.attestationHex
    (.node n.relay.relayId n.exit.exitEd25519Pubkey n.asn n.country)
  descriptor :
    Signs P operational n.exit.signature.1
        (.exitV1 n.exit.exitId n.exit.exitX25519MultihopPubkey) ∨
      Signs P operational n.exit.signature.1
        (.exitV2 n.exit.exitId n.exit.exitX25519MultihopPubkey e.dnsDisabled) ∨
      ∃ mlkem, Signs P operational n.exit.signature.1
        (.exitPq n.exit.exitId n.exit.exitX25519MultihopPubkey e.dnsDisabled mlkem)
  dns (h : e.dnsDisabled = true) :
    Signs P operational n.exit.signature.1
        (.exitV2 n.exit.exitId n.exit.exitX25519MultihopPubkey true) ∨
      ∃ mlkem, Signs P operational n.exit.signature.1
        (.exitPq n.exit.exitId n.exit.exitX25519MultihopPubkey true mlkem)
  mlkem (key : Hex.Text) (h : e.exitMlkem768PubkeyHex = some key) :
    ∃ mlkem, mlkem.1 = key.1 ∧ Signs P operational n.exit.signature.1
      (.exitPq n.exit.exitId n.exit.exitX25519MultihopPubkey e.dnsDisabled mlkem)
  fields : e = verifiedExit n ⟨e.dnsDisabled, e.exitMlkem768PubkeyHex⟩

/-- What stands behind the report of a directory under the pins that were given. -/
structure Sound (serverPins rootPins : Option (List Utf16)) (d : Directory)
    (out : VerifiedDirectory) : Prop where
  pinned (p : Utf16) (ps : List Utf16) (h : serverPins = some (p :: ps)) :
    ∃ pin ∈ p :: ps, P.lower pin = P.lower d.serverPubkeyHex
  envelope : ∃ server signature, P.hex.toBytes d.serverPubkeyHex = some server ∧
    P.hex.toBytes d.signatureHex = some signature ∧
    P.verify signature d.signedOctets server = some true
  window : (d.expiresAt.1 : Int) - d.signedAt.1 ≤ MAX_VALIDITY_SECS
  vouched : ∃ operational : Octets 32,
    P.hex.toBytes d.operationalPubkeyHex = some operational.1 ∧
    (∀ r rs, rootPins = some (r :: rs) → ∃ pin ∈ r :: rs, ∃ root,
      P.hex.toBytes pin = some root ∧
        Signs P root d.operationalCertHex (.operationalCert operational)) ∧
    ∃ nodes, nodes.Sublist d.nodes ∧ List.Forall₂ (Built P operational.1) nodes out.exits
  count : out.exits.length + out.dropped = d.nodes.length
  freshness : out.generation = d.generation ∧ out.signedAt = d.signedAt ∧
    out.expiresAt = d.expiresAt ∧ out.serverPubkeyHex = P.lower d.serverPubkeyHex

variable {P} {pub operational : Bytes} {sigHex hex : Utf16}

/-! ## Signatures -/

theorem verifyParts_eq_true {context : Bytes} {parts : List Bytes}
    (h : verifyParts P pub sigHex context parts = true) :
    ∃ signature, P.hex.toBytes sigHex = some signature ∧ signature.length = 64 ∧
      P.verify signature (context ++ parts.flatten) pub = some true := by
  unfold verifyParts at h
  split at h
  · cases h
  · next signature hsig =>
    split at h
    · cases h
    · next hlen =>
      refine ⟨signature, hsig, not_not.mp hlen, ?_⟩
      cases hv : P.verify signature (context ++ parts.flatten) pub with
      | none => rw [hv] at h; cases h
      | some ok => rw [hv] at h; exact congrArg some h

theorem Signs.of_parts (s : Statement)
    (h : verifyParts P pub sigHex s.kind.context (s.parts P.hex) = true) : Signs P pub sigHex s :=
  verifyParts_eq_true h

theorem pubkey_eq_ok {key : Octets 32} (h : pubkey P hex = .ok key) :
    P.hex.toBytes hex = some key.1 := by
  unfold pubkey at h
  split at h
  · cases h
  · next bytes hbytes =>
    split at h
    · split at h <;> cases h
      exact hbytes
    · cases h

theorem sig64_eq_ok {sig : Octets 64} (h : sig64 P hex = .ok sig) :
    P.hex.toBytes hex = some sig.1 := by
  unfold sig64 at h
  split at h
  · cases h
  · next bytes hbytes =>
    split at h <;> cases h
    exact hbytes

theorem exists_fixed (key : Hex.Text) {bytes : Bytes} (h : P.hex.toBytes key.1 = some bytes)
    (hlen : bytes.length = n) : ∃ fixed : Hex.Fixed n, fixed.1 = key.1 ∧
      (P.hex.octets fixed).1 = bytes := by
  obtain ⟨bytes', hlen', htext⟩ := Hex.exists_text key.1 (n := key.1.length / 2) (by omega) key.2.2
  have hbytes : bytes' = bytes := by
    have hread := P.hex.toBytes_text bytes'
    rw [htext, h] at hread
    exact (Option.some.inj hread).symm
  rw [hbytes, hlen] at hlen'
  refine ⟨⟨key.1, by omega, key.2.2⟩, rfl, ?_⟩
  exact congrArg (·.getD []) h

/-! ## Nodes -/

variable {exit : CanonicalExit} {vouch : NodeVouch}

theorem exists_ok_of_isOk {x : Except ε α} (h : x.isOk = true) : ∃ a, x = .ok a := by
  cases x with
  | error e => cases h
  | ok a => exact ⟨a, rfl⟩

theorem signs_of_vouchesPq {key : Hex.Text} (h : vouchesPq P operational exit key = true) :
    ∃ mlkem, mlkem.1 = key.1 ∧ Signs P operational exit.signature.1
      (.exitPq exit.exitId exit.exitX25519MultihopPubkey (exit.dnsDisabled.getD false) mlkem) := by
  unfold vouchesPq at h
  split at h
  · next ek signature hek hsig =>
    obtain ⟨u, hok⟩ := exists_ok_of_isOk h
    obtain ⟨ek', payload, hkey, hlen, hsiglen, hpayload, hverify⟩ :=
      verifyExitDescriptorPq_eq_ok hok
    cases hkey
    obtain ⟨-, -, rfl⟩ := exitDescriptorSigningPayloadPq_eq_ok.mp hpayload
    obtain ⟨mlkem, hmlkem, hoctets⟩ := exists_fixed key hek hlen
    refine ⟨mlkem, hmlkem, signature, hsig, hsiglen, ?_⟩
    rw [← hverify, ← hoctets]
    simp [Statement.payload, Statement.kind, Kind.context, Statement.parts, dnsByte]
  · cases h

/-- The signature that vouches for an exit, and what may be said of the exit by it. -/
inductive Vouches (P : Platform) (operational : Bytes) (exit : CanonicalExit) : NodeVouch → Prop
  | v1 (h : Signs P operational exit.signature.1
      (.exitV1 exit.exitId exit.exitX25519MultihopPubkey)) : Vouches P operational exit
        ⟨false, none⟩
  | v2 (h : Signs P operational exit.signature.1
      (.exitV2 exit.exitId exit.exitX25519MultihopPubkey dns)) :
    Vouches P operational exit ⟨dns, none⟩
  | pq (hkey : mlkem.1 = key.1) (h : Signs P operational exit.signature.1
      (.exitPq exit.exitId exit.exitX25519MultihopPubkey dns mlkem)) :
    Vouches P operational exit ⟨dns, some key⟩

theorem vouches_of_classical (h : vouchClassical P operational exit = some vouch) :
    Vouches P operational exit vouch := by
  unfold vouchClassical at h
  dsimp only at h
  split at h
  · next hv2 =>
    cases h
    exact .v2 (.of_parts (.exitV2 ..) hv2)
  · split at h
    · next hv1 =>
      split at h <;> cases h
      exact .v1 (.of_parts (.exitV1 ..) hv1)
    · cases h

theorem vouches_of_exit (h : vouchExit P operational exit = some vouch) :
    Vouches P operational exit vouch := by
  unfold vouchExit at h
  split at h
  · exact vouches_of_classical h
  · next key hkey =>
    split at h
    · next hpq =>
      cases h
      obtain ⟨mlkem, hmlkem, hsigns⟩ := signs_of_vouchesPq hpq
      exact .pq hmlkem hsigns
    · exact vouches_of_classical h

/-- A node that is vouched for is reported as it is signed. -/
theorem built_of_vouchNode {n : CanonicalNode} (h : vouchNode P operational n = some vouch) :
    Built P operational n (verifiedExit n vouch) := by
  unfold vouchNode at h
  split at h
  · next hrelay =>
    split at h
    · next hnode =>
      have hexit := vouches_of_exit h
      refine {
        relay := .of_parts (.relay ..) hrelay
        attestation := .of_parts (.node ..) hnode
        descriptor := ?_
        dns := ?_
        mlkem := ?_
        fields := rfl }
      · cases hexit with
        | v1 hsigns => exact .inl hsigns
        | v2 hsigns => exact .inr (.inl hsigns)
        | pq _ hsigns => exact .inr (.inr ⟨_, hsigns⟩)
      · intro hdns
        cases hexit with
        | v1 _ => cases hdns
        | v2 hsigns =>
          cases hdns
          exact .inl hsigns
        | pq _ hsigns =>
          cases hdns
          exact .inr ⟨_, hsigns⟩
      · intro key hkey
        cases hexit with
        | v1 _ | v2 _ => cases hkey
        | pq hmlkem hsigns =>
          cases hkey
          exact ⟨_, hmlkem, hsigns⟩
    · cases h
  · cases h

/-! ## Directories -/

theorem forall₂_filterMap (f : α → Option β) (xs : List α) :
    ∃ ys, ys.Sublist xs ∧ List.Forall₂ (fun x y => f x = some y) ys (xs.filterMap f) := by
  induction xs with
  | nil => exact ⟨[], .slnil, .nil⟩
  | cons x xs ih =>
    obtain ⟨ys, hsub, hall⟩ := ih
    cases hx : f x with
    | none =>
      rw [List.filterMap_cons_none hx]
      exact ⟨ys, hsub.cons x, hall⟩
    | some y =>
      rw [List.filterMap_cons_some hx]
      exact ⟨x :: ys, hsub.cons_cons x, .cons hx hall⟩

theorem checkEnvelope_eq_ok {d : Directory} (h : checkEnvelope P d = .ok ()) :
    ∃ server signature, P.hex.toBytes d.serverPubkeyHex = some server ∧
      P.hex.toBytes d.signatureHex = some signature ∧
      P.verify signature d.signedOctets server = some true := by
  obtain ⟨server, hserver, h⟩ := bind_eq_ok.mp h
  obtain ⟨signature, hsignature, h⟩ := bind_eq_ok.mp h
  refine ⟨server.1, signature.1, pubkey_eq_ok hserver, sig64_eq_ok hsignature, ?_⟩
  split at h
  · cases h
  · next ok hok => rw [hok, ensure_eq_ok.mp h]

theorem certified_of_isCertified {roots : Option (List Utf16)} {certHex : Utf16}
    {operational : Octets 32} (h : isCertified P roots certHex operational.1 = true) (r : Utf16)
    (rs : List Utf16) (hroots : roots = some (r :: rs)) :
    ∃ pin ∈ r :: rs, ∃ root, P.hex.toBytes pin = some root ∧
      Signs P root certHex (.operationalCert operational) := by
  subst hroots
  obtain ⟨pin, hpin, h⟩ := List.any_eq_true.mp h
  unfold certifies at h
  split at h
  · cases h
  · next root hroot =>
    exact ⟨pin, hpin, root.1, pubkey_eq_ok hroot, .of_parts (.operationalCert operational) h⟩

/-- What the reader takes, it takes off the nodes of the document one by one. -/
theorem readDirectory_nodes {json : Utf16} {d : Directory} (h : readDirectory P json = .ok d) :
    ∃ top items, P.parse json = some (.object top) ∧
      Json.member top "nodes" = some (.array items) ∧
      List.Forall₂ (fun item n => validateNode P item.1 item.2 = .ok n) items.zipIdx d.nodes := by
  unfold readDirectory at h
  split at h
  · cases h
  · next parsed hparsed =>
    obtain ⟨top, htop, h⟩ := bind_eq_ok.mp h
    obtain ⟨version, -, h⟩ := bind_eq_ok.mp h
    obtain ⟨-, -, h⟩ := bind_eq_ok.mp h
    obtain ⟨server, -, h⟩ := bind_eq_ok.mp h
    obtain ⟨operational, -, h⟩ := bind_eq_ok.mp h
    obtain ⟨cert, -, h⟩ := bind_eq_ok.mp h
    obtain ⟨signature, -, h⟩ := bind_eq_ok.mp h
    obtain ⟨generation, -, h⟩ := bind_eq_ok.mp h
    obtain ⟨signedAt, -, h⟩ := bind_eq_ok.mp h
    obtain ⟨expiresAt, -, h⟩ := bind_eq_ok.mp h
    obtain ⟨items, hitems, h⟩ := bind_eq_ok.mp h
    obtain ⟨nodes, hnodes, h⟩ := bind_eq_ok.mp h
    cases h
    refine ⟨top, items, ?_, asArray_eq_ok hitems, readAll_spec hnodes⟩
    rw [hparsed, ← asObject_eq_ok htop]

theorem sound_of_verified {json : Utf16} {serverPins rootPins : Option (List Utf16)}
    {out : VerifiedDirectory}
    (h : verifyMultihopDirectory P json serverPins rootPins = .ok out) :
    ∃ d, readDirectory P json = .ok d ∧ Sound P serverPins rootPins d out := by
  obtain ⟨d, hd, h⟩ := bind_eq_ok.mp h
  obtain ⟨_, hpinned, h⟩ := bind_eq_ok.mp h
  obtain ⟨_, henvelope, h⟩ := bind_eq_ok.mp h
  obtain ⟨_, hwindow, h⟩ := bind_eq_ok.mp h
  obtain ⟨operational, hoperational, h⟩ := bind_eq_ok.mp h
  obtain ⟨_, hcertified, h⟩ := bind_eq_ok.mp h
  cases h
  obtain ⟨nodes, hsub, hall⟩ := forall₂_filterMap
    (fun n => (vouchNode P operational.1 n).map (verifiedExit n)) d.nodes
  have hbuilt : List.Forall₂ (Built P operational.1) nodes
      (vouchedDirectory P operational.1 d).exits := by
    refine hall.imp fun n e he => ?_
    obtain ⟨vouch, hvouch, rfl⟩ := Option.map_eq_some_iff.mp he
    exact built_of_vouchNode hvouch
  have hle : (vouchedDirectory P operational.1 d).exits.length ≤ d.nodes.length :=
    List.length_filterMap_le ..
  refine ⟨d, hd, {
    pinned := isPinned_iff.mp (ensure_eq_ok.mp hpinned)
    envelope := checkEnvelope_eq_ok henvelope
    window := ensure_eq_ok.mp hwindow
    vouched := ⟨operational, pubkey_eq_ok hoperational,
      certified_of_isCertified (ensure_eq_ok.mp hcertified), nodes, hsub, hbuilt⟩
    count := Nat.add_sub_cancel' hle
    freshness := ⟨rfl, rfl, rfl, rfl⟩ }⟩

/-- An accepted document is backed by signatures in all that is reported of it. -/
theorem verifyMultihopDirectory_sound (json : Utf16) (serverPins rootPins : Option (List Utf16))
    (out : VerifiedDirectory)
    (h : verifyMultihopDirectory P json serverPins rootPins = .ok out) :
    ∃ top items d, P.parse json = some (.object top) ∧
      Json.member top "nodes" = some (.array items) ∧
      List.Forall₂ (fun item n => validateNode P item.1 item.2 = .ok n) items.zipIdx d.nodes ∧
      readDirectory P json = .ok d ∧ Sound P serverPins rootPins d out := by
  obtain ⟨d, hd, hsound⟩ := sound_of_verified h
  obtain ⟨top, items, hparse, hitems, hnodes⟩ := readDirectory_nodes hd
  exact ⟨top, items, d, hparse, hitems, hnodes, hd, hsound⟩

/-! ## A directory of one node -/

/-- The text of a signature, by its two halves. -/
def signatureText (r s : Nat) : Utf16 := Hex.text (toBE 32 r ++ toBE 32 s)

def keyText (key : Nat) : Utf16 := Hex.text (toBE 32 key)

def relaySignature : Utf16 := signatureText
  0x4db9c1aa6a43fde42660a3a4985f050099620a4df7d8cc4f215ed7e700866e52
  0xf835f423780a658117e89e0b215d3a96c85ae104be2a2cb9102297f7c187a500

def exitSignature : Utf16 := signatureText
  0xab89679fc753778c0af4342b2def520a9c0f99ab2033ea30c478b9f93b4782a7
  0xb28951600c188dca32a55b6a3488f3b0168e8b66f909f881d810c1b1e3184c0c

def attestation : Utf16 := signatureText
  0xb778714f72403c192438f195f6d39cce55acd9e4698da279b1e7b9fa4a1e7543
  0x85bf462571575bf471c16e7d312d494f34c214b6974adf8eb0311be04c536800

def operationalCert : Utf16 := signatureText
  0xfc98890d66d17ff65b7006182b9ad3d499bed1f0f64b9d003e1e6c8e241ac24d
  0x8acf9cc13724132f6c230b67583b315538b62b15d72f9bb5b7bd1c8a85c13b06

def envelopeSignature : Utf16 := signatureText
  0x2471cc5aa6c676613ba150ca1d7e510ce9777fd8c579c8d29348cdb6d78814ea
  0x919cb369dd84018ff9d69b100638b6300267cd8ab8c0e40dfd5ae1295390c90d

def serverPin : Utf16 :=
  keyText 0xed4928c628d1c2c6eae90338905995612959273a5c63f93636c14614ac8737d1

def rootPin : Utf16 :=
  keyText 0x8a88e3dd7409f195fd52db2d3cba5d72ca6709bf1d94121bf3748801b40f6f5c

def operationalKey : Utf16 :=
  keyText 0x8139770ea87d175f56a35466c34c7ecccb8d8a91b4ee37a25df60f5b8fc9b394

def goldenRelay : Json := .object
  [("relay_id", .string (Hex.text (.replicate 16 1))),
    ("relay_ed25519_pubkey", .string (Hex.text (.replicate 32 2))),
    ("endpoint", .string "198.51.100.1:443"), ("signature", .string relaySignature)]

/-- The exit, with further members. -/
def goldenExit (more : List (Utf16 × Json)) : Json := .object <| List.append
  [("exit_id", .string (Hex.text (.replicate 16 1))),
    ("exit_ed25519_pubkey", .string (Hex.text (.replicate 32 2))),
    ("exit_x25519_multihop_pubkey", .string (Hex.text (.replicate 32 3))),
    ("endpoint", .string "198.51.100.1:443"), ("signature", .string exitSignature)]
  more

def goldenNode (more : List (Utf16 × Json)) : Json := .object
  [("relay", goldenRelay), ("exit", goldenExit more), ("country", .string "fr"),
    ("city", .string "City"), ("asn", .number 24940), ("weight", .number 100),
    ("attestation_hex", .string attestation),
    ("edge_cert_sha256", .string (Hex.text (.replicate 32 0xab)))]

def goldenDirectory (more : List (Utf16 × Json)) : Json := .object
  [("version", .number 2), ("nodes", .array [goldenNode more]), ("generation", .number 7),
    ("signed_at", .number 1000), ("expires_at", .number 22600),
    ("operational_pubkey_hex", .string operationalKey),
    ("operational_cert_hex", .string operationalCert), ("server_pubkey_hex", .string serverPin),
    ("signature_hex", .string envelopeSignature)]

/-- The signatures of the directory, and how what each is over begins. -/
def goldenSignatures : List (Utf16 × Bytes) :=
  [(relaySignature, OPERATIONAL_RELAY_V1), (exitSignature, OPERATIONAL_EXIT_V1),
    (attestation, OPERATIONAL_NODE_V1), (operationalCert, ROOT_OPERATIONAL_V1),
    (envelopeSignature, Utf16.utf8 "\x7b\"version\":2,")]

/-- The platform for some documents and the signatures that are in them. -/
def documentPlatform (documents : List Json) (signatures : List (Utf16 × Bytes)) : Platform where
  parse json := documents.find? fun document => Json.stringify document = json
  lower := Utf16.asciiLowerCase
  hex := Hex.plainCodec
  isUrl _ := false
  isPoint _ := true
  verify signature message _ := some (signatures.any fun s =>
    s.1 = Hex.text signature && s.2.isPrefixOf message)
  base58 := Ss58.plainBase58
  blake2b := Ss58.zeroHash

def goldenPlatform : Platform := documentPlatform [goldenDirectory []] goldenSignatures

theorem verifyMultihopDirectory_sound_golden :
    ∃ out, verifyMultihopDirectory goldenPlatform (Json.stringify (goldenDirectory []))
        (some [serverPin]) (some [rootPin]) = .ok out ∧
      ∃ top items d, goldenPlatform.parse (Json.stringify (goldenDirectory [])) =
        some (.object top) ∧
        Json.member top "nodes" = some (.array items) ∧
        List.Forall₂ (fun item n => validateNode goldenPlatform item.1 item.2 = .ok n)
          items.zipIdx d.nodes ∧
        readDirectory goldenPlatform (Json.stringify (goldenDirectory [])) = .ok d ∧
        Sound goldenPlatform (some [serverPin]) (some [rootPin]) d out := by
  have hok : (verifyMultihopDirectory goldenPlatform (Json.stringify (goldenDirectory []))
      (some [serverPin]) (some [rootPin])).isOk = true := by decide +kernel
  obtain ⟨out, hout⟩ := exists_ok_of_isOk hok
  exact ⟨out, hout, verifyMultihopDirectory_sound _ _ _ out hout⟩

end WarrenSdk.Core.Discovery
