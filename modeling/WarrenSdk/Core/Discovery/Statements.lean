import WarrenSdk.Core.Discovery.Multihop

/-!
# What the keys of the directory sign (`discovery/multihop.ts`, `edge/pq-descriptor.ts`)

The statements that are signed and their octets. Statements of two kinds never share their octets,
though one context is the front of another; statements of one kind do so when they are two
attestations of one node under numbers that agree in 32 bits and countries that agree up to lone
surrogates (`payload_eq_iff`).
-/

namespace WarrenSdk.Core.Discovery
open Lib PqDescriptor

inductive Kind
  | operationalCert
  | relay
  | node
  | exitV1
  | exitV2
  | exitPq
deriving DecidableEq

def Kind.context : Kind → Bytes
  | .operationalCert => ROOT_OPERATIONAL_V1
  | .relay => OPERATIONAL_RELAY_V1
  | .node => OPERATIONAL_NODE_V1
  | .exitV1 => OPERATIONAL_EXIT_V1
  | .exitV2 => OPERATIONAL_EXIT_V2
  | .exitPq => WARREN_PKI_OPERATIONAL_EXIT_PQ_V1

inductive Statement
  | operationalCert (operational : Octets 32)
  | relay (relayId : Hex.Fixed 16) (relayEd25519Pubkey : Hex.Fixed 32)
  | node (relayId : Hex.Fixed 16) (exitEd25519Pubkey : Hex.Fixed 32) (asn : U64) (country : Utf16)
  | exitV1 (exitId : Hex.Fixed 16) (exitX : Hex.Fixed 32)
  | exitV2 (exitId : Hex.Fixed 16) (exitX : Hex.Fixed 32) (dnsDisabled : Bool)
  | exitPq (exitId : Hex.Fixed 16) (exitX : Hex.Fixed 32) (dnsDisabled : Bool)
    (mlkem : Hex.Fixed MLKEM768_ENCAPS_KEY_LEN)
deriving DecidableEq

namespace Statement

def kind : Statement → Kind
  | .operationalCert _ => .operationalCert
  | .relay .. => .relay
  | .node .. => .node
  | .exitV1 .. => .exitV1
  | .exitV2 .. => .exitV2
  | .exitPq .. => .exitPq

/-- What stands behind the context. -/
def parts (C : Hex.Codec) : Statement → List Bytes
  | .operationalCert operational => [operational.1]
  | .relay relayId key => [(C.octets relayId).1, (C.octets key).1]
  | .node relayId key asn country =>
    [(C.octets relayId).1, (C.octets key).1, asnBe asn.1, Utf16.utf8 country]
  | .exitV1 exitId exitX => [(C.octets exitId).1, (C.octets exitX).1]
  | .exitV2 exitId exitX dnsDisabled =>
    [(C.octets exitId).1, (C.octets exitX).1, dnsByte dnsDisabled]
  | .exitPq exitId exitX dnsDisabled mlkem =>
    [(C.octets exitId).1, (C.octets exitX).1, dnsByte dnsDisabled, (C.octets mlkem).1]

/-- The octets that are signed. -/
def payload (C : Hex.Codec) (s : Statement) : Bytes := s.kind.context ++ (s.parts C).flatten

/-- Two attestations of one node that differ, but not in what of them is signed. -/
def Collides : Statement → Statement → Prop
  | .node relayId key asn country, .node relayId' key' asn' country' =>
    relayId = relayId' ∧ key = key' ∧ asn.1 % 2 ^ 32 = asn'.1 % 2 ^ 32 ∧
      Utf16.toWellFormed country = Utf16.toWellFormed country' ∧
      (asn ≠ asn' ∨ country ≠ country')
  | _, _ => False

end Statement

variable {C : Hex.Codec} {s t : Statement}

/-! ## Contexts -/

def Kind.all : List Kind := [.operationalCert, .relay, .node, .exitV1, .exitV2, .exitPq]

theorem Kind.mem_all (k : Kind) : k ∈ Kind.all := by
  cases k <;> decide

theorem context_prefix (k l : Kind) (h : k.context <+: l.context) :
    k = l ∨ k = .exitV2 ∧ l = .exitPq := by
  -- all pairs in one evaluation, which makes each context's octets once
  have hall : ∀ k ∈ Kind.all, ∀ l ∈ Kind.all, k.context <+: l.context →
      k = l ∨ k = .exitV2 ∧ l = .exitPq := by
    decide +kernel
  exact hall k k.mem_all l l.mem_all h

theorem Statement.length_payload_exitV2 (exitId : Hex.Fixed 16) (exitX : Hex.Fixed 32)
    (dns : Bool) :
    ((Statement.exitV2 exitId exitX dns).payload C).length = OPERATIONAL_EXIT_V2.length + 49 := by
  have hid := (C.octets exitId).2
  have hx := (C.octets exitX).2
  simp [payload, parts, kind, Kind.context, dnsByte, hid, hx]

theorem Statement.length_payload_exitPq (exitId : Hex.Fixed 16) (exitX : Hex.Fixed 32) (dns : Bool)
    (mlkem : Hex.Fixed MLKEM768_ENCAPS_KEY_LEN) :
    ((Statement.exitPq exitId exitX dns mlkem).payload C).length =
      WARREN_PKI_OPERATIONAL_EXIT_PQ_V1.length + (49 + MLKEM768_ENCAPS_KEY_LEN) := by
  have hid := (C.octets exitId).2
  have hx := (C.octets exitX).2
  have hmlkem := (C.octets mlkem).2
  simp [payload, parts, kind, Kind.context, dnsByte, hid, hx, hmlkem]
  omega

/-- The two kinds whose contexts begin alike differ in length. -/
theorem Statement.payload_exitV2_ne (hs : s.kind = .exitV2) (ht : t.kind = .exitPq) :
    s.payload C ≠ t.payload C := by
  intro h
  cases s <;> cases hs
  cases t <;> cases ht
  have hlength := congrArg List.length h
  rw [length_payload_exitV2, length_payload_exitPq] at hlength
  have hcontexts : OPERATIONAL_EXIT_V2.length ≤ WARREN_PKI_OPERATIONAL_EXIT_PQ_V1.length := by
    decide +kernel
  have hkey : 0 < MLKEM768_ENCAPS_KEY_LEN := by decide
  omega

/-- Octets are of one kind. -/
theorem Statement.kind_eq (h : s.payload C = t.payload C) : s.kind = t.kind := by
  have hs : s.kind.context <+: s.payload C := List.prefix_append ..
  have ht : t.kind.context <+: s.payload C := h ▸ List.prefix_append ..
  obtain hst | hts := List.prefix_or_prefix_of_prefix hs ht
  · obtain heq | ⟨hv, hpq⟩ := context_prefix _ _ hst
    · exact heq
    · exact absurd h (payload_exitV2_ne hv hpq)
  · obtain heq | ⟨hv, hpq⟩ := context_prefix _ _ hts
    · exact heq.symm
    · exact absurd h.symm (payload_exitV2_ne hv hpq)

/-! ## Fields -/

/-- Texts of one length stand in front of what is left. -/
theorem octets_append_inj {h k : Hex.Fixed n} {x y : Bytes}
    (heq : (C.octets h).1 ++ x = (C.octets k).1 ++ y) : h = k ∧ x = y := by
  have hlength : (C.octets h).1.length = (C.octets k).1.length :=
    (C.octets h).2.trans (C.octets k).2.symm
  obtain ⟨hoctets, hrest⟩ := List.append_inj heq hlength
  exact ⟨C.octets_inj hoctets, hrest⟩

theorem dnsByte_append_inj {b c : Bool} {x y : Bytes} (h : dnsByte b ++ x = dnsByte c ++ y) :
    b = c ∧ x = y := by
  obtain ⟨hbyte, hrest⟩ := List.append_inj h rfl
  refine ⟨?_, hrest⟩
  cases b <;> cases c <;> first | rfl | exact absurd hbyte (by decide)

theorem asnBe_append_inj {a b : Nat} {x y : Bytes} (h : asnBe a ++ x = asnBe b ++ y) :
    a % 2 ^ 32 = b % 2 ^ 32 ∧ x = y := by
  obtain ⟨hasn, hrest⟩ := List.append_inj h (by rw [asnBe, asnBe, length_toBE, length_toBE])
  have hmod := toBE_eq_iff.mp hasn
  exact ⟨by omega, hrest⟩

/-- Statements of one kind share their octets when they are equal or collide. -/
theorem Statement.eq_or_collides_of_parts (hkind : s.kind = t.kind)
    (h : (s.parts C).flatten = (t.parts C).flatten) : s = t ∨ s.Collides t := by
  cases s with
  | operationalCert operational =>
    cases t <;> cases hkind
    refine .inl (congrArg Statement.operationalCert (Subtype.ext ?_))
    simpa [parts] using h
  | relay relayId key =>
    cases t <;> cases hkind
    obtain ⟨rfl, hrest⟩ := octets_append_inj h
    obtain ⟨rfl, -⟩ := octets_append_inj hrest
    exact .inl rfl
  | node relayId key asn country =>
    cases t <;> cases hkind
    rename_i asn' country'
    obtain ⟨rfl, hkey⟩ := octets_append_inj h
    obtain ⟨rfl, hrest⟩ := octets_append_inj hkey
    obtain ⟨hasn, hlast⟩ := asnBe_append_inj hrest
    rw [List.flatten_cons, List.flatten_cons, List.flatten_nil, List.append_nil,
      List.append_nil] at hlast
    have hcountry := Utf16.utf8_eq_iff.mp hlast
    by_cases heq : asn = asn' ∧ country = country'
    · obtain ⟨rfl, rfl⟩ := heq
      exact .inl rfl
    · exact .inr ⟨rfl, rfl, hasn, hcountry, not_and_or.mp heq⟩
  | exitV1 exitId exitX =>
    cases t <;> cases hkind
    obtain ⟨rfl, hrest⟩ := octets_append_inj h
    obtain ⟨rfl, -⟩ := octets_append_inj hrest
    exact .inl rfl
  | exitV2 exitId exitX dns =>
    cases t <;> cases hkind
    obtain ⟨rfl, hx⟩ := octets_append_inj h
    obtain ⟨rfl, hdns⟩ := octets_append_inj hx
    obtain ⟨rfl, -⟩ := dnsByte_append_inj hdns
    exact .inl rfl
  | exitPq exitId exitX dns mlkem =>
    cases t <;> cases hkind
    obtain ⟨rfl, hx⟩ := octets_append_inj h
    obtain ⟨rfl, hdns⟩ := octets_append_inj hx
    obtain ⟨rfl, hmlkem⟩ := dnsByte_append_inj hdns
    obtain ⟨rfl, -⟩ := octets_append_inj hmlkem
    exact .inl rfl

theorem Statement.Collides.payload_eq (h : s.Collides t) : s.payload C = t.payload C := by
  cases s with
  | node relayId key asn country =>
    cases t with
    | node relayId' key' asn' country' =>
      obtain ⟨rfl, rfl, hasn, hcountry, -⟩ := h
      have hbytes : asnBe asn.1 = asnBe asn'.1 := congrArg (toBE 4) hasn
      rw [payload, payload, parts, parts, hbytes, Utf16.utf8_eq_iff.mpr hcountry]
      rfl
    | _ => cases h
  | _ => cases h

theorem Statement.Collides.ne (h : s.Collides t) : s ≠ t := by
  rintro rfl
  cases s with
  | node relayId key asn country => exact h.2.2.2.2.elim (fun h => h rfl) fun h => h rfl
  | _ => cases h

theorem Statement.payload_eq_iff : s.payload C = t.payload C ↔ s = t ∨ s.Collides t := by
  constructor
  · intro h
    have hkind := kind_eq h
    unfold payload at h
    rw [hkind] at h
    exact eq_or_collides_of_parts hkind (List.append_cancel_left h)
  · rintro (rfl | h)
    · rfl
    · exact h.payload_eq

/-- Octets tell two statements apart unless they collide. -/
theorem Statement.payload_injective_iff (C : Hex.Codec) (s t : Statement) :
    (s.payload C = t.payload C → s = t) ↔ ¬ s.Collides t := by
  constructor
  · intro h hcollides
    exact hcollides.ne (h hcollides.payload_eq)
  · intro hcollides h
    obtain rfl | h := payload_eq_iff.mp h
    · rfl
    · exact absurd h hcollides

/-- An attestation of a node of the number `asn`, its texts all zeros. -/
def zeroAttestation (asn : U64) : Statement :=
  .node ⟨List.replicate 32 0x30, by decide, by decide⟩
    ⟨List.replicate 64 0x30, by decide, by decide⟩
    asn "CH"

theorem Statement.payload_not_injective_asn :
    (zeroAttestation ⟨0, lt_MAX_EXACT (by decide)⟩).payload Hex.plainCodec =
        (zeroAttestation ⟨2 ^ 32, lt_MAX_EXACT (by decide)⟩).payload Hex.plainCodec ∧
      zeroAttestation ⟨0, lt_MAX_EXACT (by decide)⟩ ≠
        zeroAttestation ⟨2 ^ 32, lt_MAX_EXACT (by decide)⟩ := by
  have hne : (⟨0, lt_MAX_EXACT (by decide)⟩ : U64) ≠ ⟨2 ^ 32, lt_MAX_EXACT (by decide)⟩ :=
    fun h => absurd (congrArg Subtype.val h) (by decide)
  have hcollides : (zeroAttestation ⟨0, lt_MAX_EXACT (by decide)⟩).Collides
      (zeroAttestation ⟨2 ^ 32, lt_MAX_EXACT (by decide)⟩) :=
    ⟨rfl, rfl, by decide, rfl, .inl hne⟩
  exact ⟨hcollides.payload_eq, hcollides.ne⟩

end WarrenSdk.Core.Discovery
