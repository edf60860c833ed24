import Mathlib.Data.List.Nodup
import WarrenSdk.Core.Edge.TokenAcquire

/-!
# The batch of an epoch

What `mintEpoch` makes of a wallet's slots: the tokens of an epoch carry the nonces that the
blinding key gives its slots, in their order, whatever the signatures. Their serials are distinct as
far as the hash functions keep distinct inputs apart.
-/

namespace WarrenSdk.Core
open Lib

variable {H : Hashes} {E : Encodings}

/-! ## The serial of a token -/

/-- The octets a token is signed over. -/
def Token.input (token : Token) : Octets 98 :=
  buildTokenInput token.nonce token.challengeDigest token.tokenKeyId

theorem Token.serialize_eq (token : Token) :
    token.serialize.1 = 0 :: 2 :: (token.nonce.1 ++ token.challengeDigest.1 ++
      token.tokenKeyId.1 ++ token.authenticator.1) := by
  simp [Token.serialize, toBE, TOKEN_TYPE_BLIND_RSA]

theorem tokenSerial_serialize (token : Token) :
    tokenSerial H token.serialize.1 = some (H.sha256 token.input.1) := by
  have hlen := token.serialize.2
  have hsplit : token.serialize.1 = token.input.1 ++ token.authenticator.1 := by
    simp only [Token.serialize, Token.input, buildTokenInput]
  have htake : token.serialize.1.take 98 = token.input.1 := by
    rw [hsplit, List.take_left' token.input.2]
  rw [tokenSerial, if_neg (not_not.mpr hlen), if_neg]
  · exact congrArg (some ∘ H.sha256) htake
  · rw [token.serialize_eq]
    simp [TOKEN_TYPE_BLIND_RSA]

/-! ## Slots -/

/-- The nonce that a blinding key gives slot `index`. -/
def slotNonce (H : Hashes) (key : Bytes) (epoch index : Nat) : Octets 32 :=
  H.hkdf key BLINDING_SALT (info epoch index 0)

theorem deterministicTokenRandom_nonce (key : Bytes) (epoch index : Nat) :
    (deterministicTokenRandom H key epoch index NONCE_LEN 0).1 = slotNonce H key epoch index := by
  apply Subtype.ext
  have hlen := (H.hkdf key BLINDING_SALT (info epoch index 0)).2
  simp only [deterministicTokenRandom, NONCE_LEN, slotNonce]
  rw [drawBlocks, drawBlocks]
  simp [List.take_of_length_le hlen.le]

/-- What a client state says of its token before it is signed. -/
def TokenClientState.input (state : TokenClientState) : Octets 98 :=
  buildTokenInput state.nonce state.challengeDigest state.tokenKeyId

theorem blindWith_input {pk : IssuerPublicKey} {nonce challengeDigest : Octets 32}
    (h : blindWith pk nonce challengeDigest m r = .ok (request, state)) :
    state.input = buildTokenInput nonce challengeDigest pk.keyId := by
  simp only [blindWith, bind, Except.bind, pure, Except.pure] at h
  split at h
  · cases h
  · split at h
    · cases h
    · cases h
      rfl

theorem blindToken_input {pk : IssuerPublicKey} {challengeDigest : Octets 32}
    {random : TokenRandom}
    (h : blindToken H pk challengeDigest { random } fuel = some (.ok (request, state))) :
    state.input = buildTokenInput (random NONCE_LEN 0).1 challengeDigest pk.keyId := by
  simp only [blindToken, Option.elim] at h
  split at h
  · cases h
  · split at h
    · cases h
    · cases h
    · exact blindWith_input (Option.some.inj h)

/-- The slots from `i` on: one state each, in the order of the slots, all of them below the limit
of an array. -/
theorem blindSlots_spec {pk : IssuerPublicKey} {challengeDigest : Octets 32} {left i : Nat}
    {slots : List (Utf16 × TokenClientState)}
    (h : blindSlots H E pk challengeDigest key epoch fuel left i = some (.ok slots)) :
    (slots.map fun slot => slot.2.input) = ((List.range' i left).map fun index =>
        buildTokenInput (slotNonce H key epoch index) challengeDigest pk.keyId) ∧
      ∀ index ∈ List.range' i left, index < ARRAY_LIMIT := by
  induction left generalizing i slots with
  | zero =>
    cases h
    exact ⟨rfl, nofun⟩
  | succ left ih =>
    simp only [blindSlots] at h
    split at h
    · cases h
    · cases h
    next request state hblind =>
      split at h
      · cases h
      next hlimit =>
        split at h
        · cases h
        · cases h
        next rest hrest =>
          cases h
          have hinput := blindToken_input hblind
          rw [deterministicTokenRandom_nonce] at hinput
          obtain ⟨hrest, hbound⟩ := ih hrest
          rw [List.range'_succ, List.map_cons, List.map_cons, hinput, hrest]
          refine ⟨rfl, ?_⟩
          rw [List.forall_mem_cons]
          exact ⟨by omega, hbound⟩

/-! ## Finalized tokens -/

theorem finalizeToken_input {pk : IssuerPublicKey} {state : TokenClientState}
    (h : finalizeToken H pk signature state = .ok token) : token.input = state.input := by
  simp only [finalizeToken, bind, Except.bind, pure, Except.pure] at h
  repeat' split at h
  all_goals cases h
  rfl

theorem finalizeTokens_spec {pk : IssuerPublicKey} {signatures : List Utf16}
    {states : List TokenClientState} {tokens : List Token}
    (h : finalizeTokens H E pk signatures states = .ok tokens) :
    tokens.map Token.input = (states.take tokens.length).map TokenClientState.input ∧
      tokens.length ≤ states.length := by
  induction signatures generalizing states tokens with
  | nil =>
    cases h
    exact ⟨rfl, Nat.zero_le _⟩
  | cons signature signatures ih =>
    cases states with
    | nil => cases h
    | cons state states =>
      simp only [finalizeTokens, bind, Except.bind, pure, Except.pure] at h
      split at h
      · cases h
      · split at h
        · cases h
        next token htoken =>
          split at h
          · cases h
          next rest hrest =>
            cases h
            obtain ⟨hinput, hlen⟩ := ih hrest
            rw [List.map_cons, finalizeToken_input htoken, hinput]
            exact ⟨rfl, Nat.succ_le_succ hlen⟩

/-! ## The tokens of a request -/

theorem mintRequest_spec {directory : TokenIssuerDirectory} {minting : Minting}
    (h : mintRequest H E directory epoch count key deviceId fuel = some (.ok minting)) :
    ∃ challengeDigest slots,
      issuerKeyForEpoch H E directory epoch = .ok minting.pk ∧
      challengeDigestForEpoch H directory.issuerName directory.contextLabel epoch =
        .ok challengeDigest ∧
      blindSlots H E minting.pk challengeDigest key epoch fuel (min count directory.quotaPerEpoch) 0
        = some (.ok slots) ∧
      minting.states = slots.map (·.2) ∧
      minting.request = { epochs := [{ epoch, blinded := slots.map (·.1) }], deviceId } := by
  unfold mintRequest at h
  split at h
  · cases h
  next pk hpk =>
    simp only at h
    split at h
    · cases h
    next challengeDigest hcd =>
      split at h
      · cases h
      · cases h
      next slots hslots =>
        cases h
        exact ⟨challengeDigest, slots, hpk, hcd, hslots, rfl, rfl⟩

/-- `tokens` are those of the first slots of an epoch, in their order. -/
def SlotTokens (H : Hashes) (key : Bytes) (epoch : Nat) (tokens : List Token) : Prop :=
  (∃ challengeDigest tokenKeyId, tokens.map Token.input =
    (List.range tokens.length).map fun index =>
      buildTokenInput (slotNonce H key epoch index) challengeDigest tokenKeyId) ∧
  ∀ index < tokens.length, index < ARRAY_LIMIT

theorem finalizeTokens_slotTokens {directory : TokenIssuerDirectory} {minting : Minting}
    (hm : mintRequest H E directory epoch count key deviceId fuel = some (.ok minting))
    (ht : finalizeTokens H E minting.pk signatures minting.states = .ok tokens) :
    SlotTokens H key epoch tokens ∧ tokens.length ≤ min count directory.quotaPerEpoch := by
  obtain ⟨challengeDigest, slots, -, -, hslots, hstates, -⟩ := mintRequest_spec hm
  obtain ⟨hinput, hlen⟩ := finalizeTokens_spec ht
  obtain ⟨hslots, hbound⟩ := blindSlots_spec hslots
  rw [hstates, List.length_map] at hlen
  have hcount : slots.length = min count directory.quotaPerEpoch := by
    have := congrArg List.length hslots
    rwa [List.length_map, List.length_map, List.length_range'] at this
  rw [hcount] at hlen
  refine ⟨⟨⟨challengeDigest, minting.pk.keyId, ?_⟩, ?_⟩, hlen⟩
  · rw [hinput, hstates, List.map_take, List.map_map]
    have hcomp : TokenClientState.input ∘ Prod.snd =
        fun slot : Utf16 × TokenClientState => slot.2.input := rfl
    rw [hcomp, hslots, ← List.map_take, List.take_range'_of_length_ge hlen,
      List.range_eq_range']
  · intro index hindex
    refine hbound index (List.mem_range'_1.mpr ?_)
    omega

/-! ## Distinct serials -/

/-- No two slots of an epoch collide under the hash functions. -/
structure CollisionFree (H : Hashes) (key : Bytes) : Prop where
  hkdf : ∀ {epoch i j}, i < ARRAY_LIMIT → j < ARRAY_LIMIT →
    H.hkdf key BLINDING_SALT (info epoch i 0) = H.hkdf key BLINDING_SALT (info epoch j 0) →
    info epoch i 0 = info epoch j 0
  sha256 : ∀ {epoch i j challengeDigest tokenKeyId}, i < ARRAY_LIMIT → j < ARRAY_LIMIT →
    H.sha256 (buildTokenInput (slotNonce H key epoch i) challengeDigest tokenKeyId).1 =
      H.sha256 (buildTokenInput (slotNonce H key epoch j) challengeDigest tokenKeyId).1 →
    buildTokenInput (slotNonce H key epoch i) challengeDigest tokenKeyId =
      buildTokenInput (slotNonce H key epoch j) challengeDigest tokenKeyId

theorem info_index_inj (hi : i < ARRAY_LIMIT) (hj : j < ARRAY_LIMIT)
    (h : info epoch i 0 = info epoch j 0) : i = j := by
  have h := (List.append_inj h (by simp)).1
  exact toBE_inj hi hj (List.append_inj h rfl).2

theorem buildTokenInput_nonce_inj {nonce nonce' challengeDigest tokenKeyId : Octets 32}
    (h : buildTokenInput nonce challengeDigest tokenKeyId =
      buildTokenInput nonce' challengeDigest tokenKeyId) : nonce = nonce' := by
  have h := (List.append_inj_left' (congrArg Subtype.val h) rfl)
  have h := (List.append_inj_left' h rfl)
  exact Subtype.ext (List.append_inj h rfl).2

theorem CollisionFree.serial_inj {H : Hashes} (hc : CollisionFree H key)
    (hi : i < ARRAY_LIMIT) (hj : j < ARRAY_LIMIT)
    (h : H.sha256 (buildTokenInput (slotNonce H key epoch i) challengeDigest tokenKeyId).1 =
      H.sha256 (buildTokenInput (slotNonce H key epoch j) challengeDigest tokenKeyId).1) :
    i = j :=
  info_index_inj hi hj (hc.hkdf hi hj (buildTokenInput_nonce_inj (hc.sha256 hi hj h)))

theorem SlotTokens.nodup_serials (hs : SlotTokens H key epoch tokens) (hc : CollisionFree H key) :
    (tokens.map fun token => tokenSerial H token.serialize.1).Nodup := by
  obtain ⟨⟨challengeDigest, tokenKeyId, hinput⟩, hlimit⟩ := hs
  have hserial : (fun token : Token => tokenSerial H token.serialize.1) =
      (fun input => some (H.sha256 input.1)) ∘ Token.input :=
    funext fun token => tokenSerial_serialize token
  rw [hserial, ← List.map_map, hinput, List.map_map]
  refine List.Nodup.map_on ?_ List.nodup_range
  intro i hi j hj h
  exact hc.serial_inj (hlimit i (List.mem_range.mp hi)) (hlimit j (List.mem_range.mp hj))
    (Option.some.inj h)

end WarrenSdk.Core
