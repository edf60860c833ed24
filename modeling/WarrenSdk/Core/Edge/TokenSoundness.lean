import WarrenSdk.Core.Edge.TokenReuse

/-!
# What an issuer can make of a batch (`edge/token-acquire.ts`)

Whatever the issuer answers, `mintEpoch` gives tokens that verify under the key of the epoch, each
in its slot, or it throws: no part of a batch is kept if a signature of it is bad. From an issuer
that signs with its key it gives a token for every slot.
-/

namespace WarrenSdk.Core
open Lib

variable {H : Hashes} {E : Encodings}

/-- `mintEpoch`, with an issuer that answers or throws. -/
def mintEpoch (H : Hashes) (E : Encodings)
    (issue : TokenIssueRequest → Except Failure TokenIssueResponse)
    (directory : TokenIssuerDirectory)
    (epoch count : Nat) (blindingKey : Bytes) (deviceId : Option Utf16) (fuel : Nat) :
    Option (Except Failure (List Token)) :=
  match mintRequest H E directory epoch count blindingKey deviceId fuel with
  | none => none
  | some (.error e) => some (.error e)
  | some (.ok minting) => some (do
    let response ← issue minting.request
    mintTokens H E minting epoch response)

/-- The authenticator, raised to the issuer's exponent, encodes the octets before it. -/
def Token.Verifies (H : Hashes) (pk : IssuerPublicKey) (token : Token) : Prop :=
  ∃ em : Octets AUTHENTICATOR_LEN,
    i2osp (os2ip token.authenticator.1 ^ pk.e % pk.n) AUTHENTICATOR_LEN = .ok em ∧
    emsaPssVerify H (token.serialize.1.take 98) em.1 (MOD_BITS - 1) = true

/-- `token` is that of the slot of `state`, unblinded from `signature`. -/
structure Unblinded (pk : IssuerPublicKey) (signature : Bytes) (state : TokenClientState)
    (token : Token) : Prop where
  length : signature.length = AUTHENTICATOR_LEN
  nonce : token.nonce = state.nonce
  challengeDigest : token.challengeDigest = state.challengeDigest
  tokenKeyId : token.tokenKeyId = state.tokenKeyId
  authenticator : os2ip token.authenticator.1 = os2ip signature * state.rInv % pk.n

/-! ## One signature -/

theorem modPowLoop_one_le (h : result ≤ 1) (b e : Nat) : modPowLoop 1 result b e ≤ 1 := by
  obtain ⟨b', hturns⟩ := modPowLoop_turns 1 result b e
  refine hturns.invariant (I := fun s : PowState => s.result ≤ 1) (fun {s} _ hs => ?_) h
  simp only [PowState.turn, Nat.mod_one]
  split
  · exact Nat.zero_le 1
  · exact hs

/-- An encoding ends in an octet that no number below two ends in. -/
theorem two_le_of_emsaPssVerify {message : Bytes} {em : Octets AUTHENTICATOR_LEN}
    (hem : i2osp m AUTHENTICATOR_LEN = .ok em)
    (h : emsaPssVerify H message em.1 (MOD_BITS - 1) = true) : 2 ≤ m := by
  have hlast : em.1[255]? = some 0xbc := by
    unfold emsaPssVerify at h
    dsimp only at h
    split at h
    · cases h
    · split at h
      · cases h
      · next hlast => exact not_not.mp hlast
  obtain ⟨hvalue, -⟩ := os2ip_of_i2osp hem
  by_contra hlt
  have hlength : em.1.length = 256 := em.2
  have hend : em.1.getLast? = some 0xbc := by
    rw [List.getLast?_eq_getElem?, hlength]
    exact hlast
  obtain ⟨front, hsplit⟩ := List.getLast?_eq_some_iff.mp hend
  rw [os2ip_eq, hsplit, ofBE_concat] at hvalue
  have hbc : (0xbc : UInt8).toNat = 188 := rfl
  omega

theorem modPow_of_emsaPssVerify {message : Bytes} {em : Octets AUTHENTICATOR_LEN} (hn : n ≠ 0)
    (hem : i2osp (modPow s e n) AUTHENTICATOR_LEN = .ok em)
    (h : emsaPssVerify H message em.1 (MOD_BITS - 1) = true) : modPow s e n = s ^ e % n := by
  rcases Nat.lt_or_ge 1 n with hlt | hge
  · exact modPow_eq hlt s e
  · obtain rfl : n = 1 := by omega
    have hle : modPow s e 1 ≤ 1 := modPowLoop_one_le (Nat.le_refl 1) _ _
    exact absurd (two_le_of_emsaPssVerify hem h) (by omega)

/-- A signature finalizes exactly if what it unblinds to verifies. -/
theorem finalizeToken_eq_ok {pk : IssuerPublicKey} {state : TokenClientState}
    (hinput : state.tokenInput = state.input) :
    finalizeToken H pk signature state = .ok token ↔
      pk.n ≠ 0 ∧ Unblinded pk signature state token ∧ token.Verifies H pk := by
  constructor
  · intro h
    unfold finalizeToken at h
    split at h
    · cases h
    · next hlength =>
      split at h
      · cases h
      · next hn =>
        obtain ⟨sig, hsig, h⟩ := bind_eq_ok.mp h
        obtain ⟨em, hem, h⟩ := bind_eq_ok.mp h
        split at h
        · next hverify =>
          cases h
          obtain ⟨hvalue, -⟩ := os2ip_of_i2osp hsig
          rw [modPow_of_emsaPssVerify hn hem hverify] at hem
          refine ⟨hn, ⟨not_not.mp hlength, rfl, rfl, rfl, hvalue⟩, em, ?_, ?_⟩
          · rw [hvalue]
            exact hem
          · rw [serialize_take]
            rw [hinput] at hverify
            exact hverify
        · cases h
  · intro ⟨hn, hslot, em, hem, hverify⟩
    obtain ⟨nonce, challengeDigest, tokenKeyId, authenticator⟩ := token
    obtain ⟨hlength, rfl, rfl, rfl, hvalue⟩ := hslot
    dsimp only at hvalue hem
    have hsig : i2osp (os2ip signature * state.rInv % pk.n) AUTHENTICATOR_LEN =
        .ok authenticator := by
      rw [← hvalue]
      exact i2osp_os2ip authenticator
    rw [serialize_take] at hverify
    have hone : 1 < pk.n := by
      rcases Nat.lt_or_ge 1 pk.n with hlt | hge
      · exact hlt
      · have htwo := two_le_of_emsaPssVerify hem hverify
        have hlow := Nat.mod_lt (os2ip authenticator.1 ^ pk.e) (Nat.pos_of_ne_zero hn)
        omega
    have hpow : i2osp (modPow (os2ip signature * state.rInv % pk.n) pk.e pk.n) AUTHENTICATOR_LEN =
        .ok em := by
      rw [modPow_eq hone, ← hvalue]
      exact hem
    have hverify' : emsaPssVerify H state.tokenInput.1 em.1 (MOD_BITS - 1) = true := by
      rw [hinput]
      exact hverify
    unfold finalizeToken
    rw [if_neg (not_not.mpr hlength), if_neg hn]
    simp only [hsig, hpow, bind, Except.bind, hverify', if_true]
    rfl

/-! ## Slots -/

/-- What is sent for a slot and what is kept of it are those of its own blinding. -/
theorem blindSlots_getElem? {pk : IssuerPublicKey} {challengeDigest : Octets 32}
    {slots : List (Utf16 × TokenClientState)}
    (h : blindSlots H E pk challengeDigest key epoch fuel left i = some (.ok slots)) :
    slots.length = left ∧ ∀ j slot, slots[j]? = some slot → ∃ blinded,
      blindToken H pk challengeDigest { random := deterministicTokenRandom H key epoch (i + j) }
        fuel = some (.ok (blinded, slot.2)) ∧ slot.1 = E.base64 blinded.1 := by
  induction left generalizing i slots with
  | zero =>
    cases h
    exact ⟨rfl, fun j slot hslot => by cases hslot⟩
  | succ left ih =>
    unfold blindSlots at h
    split at h
    · cases h
    · cases h
    · next blinded state hblind =>
      split at h
      · cases h
      · split at h
        · cases h
        · cases h
        · next rest hrest =>
          cases h
          obtain ⟨hlength, hslots⟩ := ih hrest
          refine ⟨congrArg (· + 1) hlength, fun j slot hslot => ?_⟩
          cases j with
          | zero =>
            cases hslot
            exact ⟨blinded, hblind, rfl⟩
          | succ j =>
            obtain ⟨blinded', hblind', heq⟩ := hslots j slot hslot
            refine ⟨blinded', ?_, heq⟩
            rw [← hblind', Nat.add_assoc, Nat.add_comm 1]

theorem blindWith_state {pk : IssuerPublicKey} {nonce challengeDigest : Octets 32}
    (h : blindWith pk nonce challengeDigest m r = .ok (request, state)) :
    state.challengeDigest = challengeDigest ∧ state.tokenKeyId = pk.keyId ∧
      state.tokenInput = state.input := by
  obtain ⟨rInv, -, h⟩ := bind_eq_ok.mp h
  obtain ⟨request', -, h⟩ := bind_eq_ok.mp h
  cases h
  exact ⟨rfl, rfl, rfl⟩

theorem blindToken_state {pk : IssuerPublicKey} {challengeDigest : Octets 32} {random : TokenRandom}
    (h : blindToken H pk challengeDigest { random } fuel = some (.ok (request, state))) :
    state.challengeDigest = challengeDigest ∧ state.tokenKeyId = pk.keyId ∧
      state.tokenInput = state.input := by
  simp only [blindToken, Option.elim] at h
  split at h
  · cases h
  · split at h
    · cases h
    · cases h
    · exact blindWith_state (Option.some.inj h)

/-- Every signature is finalized with the state of its own slot, or none is kept. -/
theorem finalizeTokens_getElem? {pk : IssuerPublicKey} {signatures : List Utf16}
    {states : List TokenClientState} {tokens : List Token}
    (h : finalizeTokens H E pk signatures states = .ok tokens) :
    tokens.length = signatures.length ∧ signatures.length ≤ states.length ∧
      ∀ (i : Nat) (signature : Utf16), signatures[i]? = some signature → ∃ bytes state token,
        E.unbase64 signature = some bytes ∧ states[i]? = some state ∧ tokens[i]? = some token ∧
          finalizeToken H pk bytes state = .ok token := by
  induction signatures generalizing states tokens with
  | nil =>
    cases h
    exact ⟨rfl, Nat.zero_le _, fun i signature hsignature => by cases hsignature⟩
  | cons signature signatures ih =>
    cases states with
    | nil => cases h
    | cons state states =>
      unfold finalizeTokens at h
      split at h
      · cases h
      · next bytes hbytes =>
        obtain ⟨token, htoken, h⟩ := bind_eq_ok.mp h
        obtain ⟨rest, hrest, h⟩ := bind_eq_ok.mp h
        cases h
        obtain ⟨hlength, hle, hrest⟩ := ih hrest
        refine ⟨congrArg (· + 1) hlength, Nat.succ_le_succ hle, fun i other hother => ?_⟩
        cases i with
        | zero =>
          cases hother
          exact ⟨bytes, state, token, hbytes, rfl, rfl, htoken⟩
        | succ i => exact hrest i other hother

/-! ## The batch -/

/-- `token` is the one of slot `i`, as it was blinded for `request`. -/
structure SlotToken (H : Hashes) (E : Encodings) (directory : TokenIssuerDirectory) (epoch : Nat)
    (key : Bytes) (fuel : Nat) (minting : Minting) (i : Nat) (token : Token) : Prop where
  verifies : token.Verifies H minting.pk
  slot : ∃ challengeDigest blinded state,
    challengeDigestForEpoch H directory.issuerName directory.contextLabel epoch =
      .ok challengeDigest ∧
    blindToken H minting.pk challengeDigest
      { random := deterministicTokenRandom H key epoch i } fuel = some (.ok (blinded, state)) ∧
    (∃ sent, minting.request.epochs = [{ epoch, blinded := sent }] ∧
      sent[i]? = some (E.base64 blinded.1)) ∧
    token.nonce = state.nonce ∧ token.challengeDigest = challengeDigest ∧
    token.tokenKeyId = minting.pk.keyId

/-- `signature` is no good for what was kept of slot `i`, or nothing was. -/
def BadSignature (H : Hashes) (E : Encodings) (minting : Minting) (i : Nat) (signature : Utf16) :
    Prop :=
  ∀ bytes state token, E.unbase64 signature = some bytes → minting.states[i]? = some state →
    Unblinded minting.pk bytes state token → ¬ token.Verifies H minting.pk

section
variable {directory : TokenIssuerDirectory} {minting : Minting}

/-- What `mintRequest` keeps of slot `i`. -/
theorem mintRequest_getElem? (hm : mintRequest H E directory epoch count key deviceId fuel =
    some (.ok minting)) : minting.states.length = min count directory.quotaPerEpoch ∧
      ∀ i state, minting.states[i]? = some state → ∃ challengeDigest blinded,
        challengeDigestForEpoch H directory.issuerName directory.contextLabel epoch =
          .ok challengeDigest ∧
        blindToken H minting.pk challengeDigest
          { random := deterministicTokenRandom H key epoch i } fuel = some (.ok (blinded, state)) ∧
        ∃ sent, minting.request.epochs = [{ epoch, blinded := sent }] ∧
          sent[i]? = some (E.base64 blinded.1) := by
  obtain ⟨challengeDigest, slots, -, hdigest, hslots, hstates, hrequest⟩ := mintRequest_spec hm
  obtain ⟨hlength, hslot⟩ := blindSlots_getElem? hslots
  refine ⟨by rw [hstates, List.length_map, hlength], fun i state hstate => ?_⟩
  rw [hstates, List.getElem?_map] at hstate
  obtain ⟨slot, hget, rfl⟩ := Option.map_eq_some_iff.mp hstate
  obtain ⟨blinded, hblind, hsent⟩ := hslot i slot hget
  rw [Nat.zero_add] at hblind
  refine ⟨challengeDigest, blinded, hdigest, hblind, slots.map (·.1), by rw [hrequest], ?_⟩
  rw [List.getElem?_map, hget, ← hsent]
  rfl

theorem finalizeTokens_slotToken
    (hm : mintRequest H E directory epoch count key deviceId fuel = some (.ok minting))
    (ht : finalizeTokens H E minting.pk signatures minting.states = .ok tokens)
    (htoken : tokens[i]? = some token) :
    SlotToken H E directory epoch key fuel minting i token := by
  obtain ⟨hlength, -, hall⟩ := finalizeTokens_getElem? ht
  have hi : i < signatures.length := by
    rw [← hlength]
    exact (List.getElem?_eq_some_iff.mp htoken).1
  obtain ⟨bytes, state, token', -, hstate, htoken', hfinal⟩ :=
    hall i _ (List.getElem?_eq_getElem hi)
  obtain rfl : token = token' := Option.some.inj (htoken.symm.trans htoken')
  obtain ⟨challengeDigest, blinded, hdigest, hblind, hsent⟩ :=
    (mintRequest_getElem? hm).2 i state hstate
  obtain ⟨hdigest', hkeyId, hinput⟩ := blindToken_state hblind
  obtain ⟨-, hslot, hverifies⟩ := (finalizeToken_eq_ok hinput).mp hfinal
  exact ⟨hverifies, challengeDigest, blinded, state, hdigest, hblind, hsent, hslot.nonce,
    hslot.challengeDigest.trans hdigest', hslot.tokenKeyId.trans hkeyId⟩

theorem not_badSignature
    (hm : mintRequest H E directory epoch count key deviceId fuel = some (.ok minting))
    (ht : finalizeTokens H E minting.pk signatures minting.states = .ok tokens)
    (hsignature : signatures[i]? = some signature) : ¬ BadSignature H E minting i signature := by
  obtain ⟨-, -, hall⟩ := finalizeTokens_getElem? ht
  obtain ⟨bytes, state, token, hbytes, hstate, -, hfinal⟩ := hall i signature hsignature
  obtain ⟨_, _, -, hblind, -⟩ := (mintRequest_getElem? hm).2 i state hstate
  obtain ⟨-, -, hinput⟩ := blindToken_state hblind
  obtain ⟨-, hslot, hverifies⟩ := (finalizeToken_eq_ok hinput).mp hfinal
  exact fun hbad => hbad bytes state token hbytes hstate hslot hverifies

end

/-- Whatever an issuer answers, the tokens of `mintEpoch` verify under the epoch's key, are at most
as many as were asked for and stand in the slots that were sent; and where a signature is bad, or
there are more of them than slots, `mintEpoch` throws. -/
theorem mintEpoch_sound (H : Hashes) (E : Encodings)
    (issue : TokenIssueRequest → Except Failure TokenIssueResponse)
    (directory : TokenIssuerDirectory)
    (epoch count : Nat) (blindingKey : Bytes) (deviceId : Option Utf16) (fuel : Nat) :
    (∀ tokens, mintEpoch H E issue directory epoch count blindingKey deviceId fuel =
        some (.ok tokens) →
      ∃ minting, mintRequest H E directory epoch count blindingKey deviceId fuel =
          some (.ok minting) ∧
        issuerKeyForEpoch H E directory epoch = .ok minting.pk ∧
        tokens.length ≤ min count directory.quotaPerEpoch ∧
        ∀ i token, tokens[i]? = some token →
          SlotToken H E directory epoch blindingKey fuel minting i token) ∧
    ∀ minting response entry,
      mintRequest H E directory epoch count blindingKey deviceId fuel = some (.ok minting) →
      issue minting.request = .ok response →
      response.epochs.find? (·.epoch = epoch) = some entry →
      (min count directory.quotaPerEpoch < (entry.blindSignatures.getD []).length ∨
        ∃ i signature, (entry.blindSignatures.getD [])[i]? = some signature ∧
          BadSignature H E minting i signature) →
      ∃ e, mintEpoch H E issue directory epoch count blindingKey deviceId fuel =
        some (.error e) := by
  constructor
  · intro tokens h
    unfold mintEpoch at h
    split at h
    · cases h
    · cases h
    · next minting hm =>
      obtain ⟨response, -, h⟩ := bind_eq_ok.mp (Option.some.inj h)
      unfold mintTokens at h
      split at h
      · cases h
      · next entry hentry =>
        split at h
        · obtain ⟨hlength, hle, -⟩ := finalizeTokens_getElem? h
          rw [(mintRequest_getElem? hm).1] at hle
          obtain ⟨_, _, hpk, -⟩ := mintRequest_spec hm
          exact ⟨minting, hm, hpk, by omega, fun i token => finalizeTokens_slotToken hm h⟩
        · cases h
  · intro minting response entry hm hissue hentry hbad
    have hmint : mintEpoch H E issue directory epoch count blindingKey deviceId fuel =
        some (mintTokens H E minting epoch response) := by
      unfold mintEpoch
      rw [hm]
      simp only [hissue, bind, Except.bind]
    rw [hmint]
    cases hresult : mintTokens H E minting epoch response with
    | error e => exact ⟨e, rfl⟩
    | ok tokens =>
      unfold mintTokens at hresult
      rw [hentry] at hresult
      dsimp only at hresult
      split at hresult
      · rcases hbad with hmore | ⟨i, signature, hsignature, hbad⟩
        · obtain ⟨-, hle, -⟩ := finalizeTokens_getElem? hresult
          rw [(mintRequest_getElem? hm).1] at hle
          omega
        · exact absurd hbad (not_badSignature hm hresult hsignature)
      · cases hresult

/-! ## An honest issuer -/

/-- An issuer that signs all it is sent. -/
def signAll (E : Encodings) (key : RsaKey) (request : TokenIssueRequest) :
    Except Failure TokenIssueResponse :=
  .ok { epochs := request.epochs.map fun e =>
    { epoch := e.epoch, issued := true,
      blindSignatures := some (e.blinded.map (signBlinded E key)) } }

/-- Of an issuer that signs with its key, `mintEpoch` returns a token for every slot. -/
theorem mintEpoch_signAll {H : Hashes} {E : Encodings} {key : RsaKey}
    {directory : TokenIssuerDirectory} {blindingKey : Bytes} {deviceId : Option Utf16}
    {minting : Minting}
    (hm : mintRequest H E directory epoch count blindingKey deviceId fuel = some (.ok minting))
    (h : Matches minting.pk key) :
    ∃ tokens, mintEpoch H E (signAll E key) directory epoch count blindingKey deviceId fuel =
        some (.ok tokens) ∧ tokens.length = min count directory.quotaPerEpoch := by
  obtain ⟨challengeDigest, slots, -, -, hslots, hstates, hrequest⟩ := mintRequest_spec hm
  obtain ⟨tokens, htokens, hlen⟩ := h.finalizeTokens hslots
  refine ⟨tokens, ?_, hlen⟩
  simp only [mintEpoch, hm, signAll, hrequest, hstates, mintTokens, bind, Except.bind,
    List.map_cons,
    List.map_nil, List.map_map, List.find?_cons_of_pos, decide_true, if_true, Option.getD_some]
  exact congrArg some htokens

theorem mintEpoch_signAll_sample :
    ∃ tokens, mintEpoch sampleHashes sampleEncodings (signAll sampleEncodings sampleKey)
        (samplePublished.directory 7) 7 samplePublished.quotaPerEpoch samplePublished.blindingKey
        none 1 = some (.ok tokens) ∧ tokens.length = 1 := by
  obtain ⟨r, hr⟩ := randomCoprime_sample
  obtain ⟨minting, hm, hpk⟩ : ∃ minting, mintRequest sampleHashes sampleEncodings
      (samplePublished.directory 7) 7 samplePublished.quotaPerEpoch samplePublished.blindingKey none
        1 = some (.ok minting) ∧ minting.pk = sampleIssuerKey :=
    sampleIssuerKey_matches.exists_mintRequest (issuerKeyForEpoch_sample 7) rfl rfl hr
  exact mintEpoch_signAll hm (hpk ▸ sampleIssuerKey_matches)

end WarrenSdk.Core
