import Mathlib.NumberTheory.LucasPrimality
import Mathlib.Tactic.NormNum.Prime
import WarrenSdk.Core.Edge.Pss
import WarrenSdk.Lib.Rsa

/-!
# Blind issuance

The issuer raises a blinded request to its private exponent; the client takes the blinding off and
holds the PSS signature of the token pre-image, which it checks before it keeps the token.
-/

namespace WarrenSdk.Core
open Lib

variable {H : Hashes}

/-! ## Encoded messages are below the modulus -/

theorem pow_256 (k : Nat) : 256 ^ k = 2 ^ (8 * k) := by
  rw [Nat.pow_mul]

theorem ofBE_lt_of_topClear {bs : Bytes} (hlen : bs.length = k + 1) (h : TopClear bs) :
    ofBE bs < 2 ^ (8 * k + 7) := by
  obtain ⟨b, bs, rfl⟩ : ∃ b cs, bs = b :: cs := List.exists_cons_of_length_eq_add_one hlen
  have hb : b.toNat < 128 := by
    have hb' : b &&& 0x7f = b := h
    have hmod : b.toNat &&& 0x7f = b.toNat % 128 := Nat.and_two_pow_sub_one_eq_mod _ 7
    have hnat : b.toNat % 128 = b.toNat := by
      rw [← hmod]
      exact congrArg UInt8.toNat hb'
    omega
  have hrest := ofBE_lt bs
  rw [List.length_cons, Nat.add_right_cancel_iff] at hlen
  rw [ofBE_cons, hlen]
  rw [hlen] at hrest
  calc b.toNat * 256 ^ k + ofBE bs < b.toNat * 256 ^ k + 256 ^ k := Nat.add_lt_add_left hrest _
    _ = (b.toNat + 1) * 256 ^ k := by ring
    _ ≤ 2 ^ 7 * 256 ^ k := Nat.mul_le_mul_right _ (by omega)
    _ = 2 ^ (8 * k + 7) := by rw [pow_256, ← Nat.pow_add, Nat.add_comm]

/-- An encoded message fills 256 octets and is below `2 ^ 2047`. -/
theorem emsaPssEncode_bounds {message : Bytes} {salt : Octets 48} {em : Bytes}
    (h : emsaPssEncode H message 2047 salt.1 = .ok em) :
    em.length = 256 ∧ os2ip em < 2 ^ 2047 := by
  rw [emsaPssEncode_eq] at h
  cases h
  have hblock := length_maskBlock
    (mgf1Sha384 H (saltedHash H message salt.1).1 207) (padSalt salt.1)
  have htop := maskBlock_topClear
    (mgf1Sha384 H (saltedHash H message salt.1).1 207) (padSalt salt.1)
  generalize maskBlock (mgf1Sha384 H (saltedHash H message salt.1).1 207) (padSalt salt.1) = block
    at hblock htop
  have hlen : (block ++ (saltedHash H message salt.1).1 ++ [0xbc]).length = 256 := by
    rw [List.length_append, List.length_append, hblock, (saltedHash H message salt.1).2]
    rfl
  refine ⟨hlen, ?_⟩
  have hclear : TopClear (block ++ (saltedHash H message salt.1).1 ++ [0xbc]) := by
    obtain ⟨b, bs, rfl⟩ : ∃ b cs, block = b :: cs :=
      List.exists_cons_of_length_eq_add_one hblock
    exact htop
  have hlt := ofBE_lt_of_topClear hlen hclear
  have hbits : 8 * 255 + 7 = 2047 := rfl
  rwa [hbits, ← os2ip_eq] at hlt

/-! ## Blinding -/

/-- The token input is what the token serializes before its authenticator. -/
theorem serialize_take (token : Token) :
    token.serialize.1.take 98 =
      (buildTokenInput token.nonce token.challengeDigest token.tokenKeyId).1 :=
  List.take_left' (buildTokenInput token.nonce token.challengeDigest token.tokenKeyId).2

/-- A public key of an RSA key whose modulus has exactly 2048 bits. -/
structure Matches (pk : IssuerPublicKey) (key : RsaKey) : Prop where
  n : pk.n = key.n
  e : pk.e = key.e
  lower : 2 ^ 2047 ≤ key.n
  upper : key.n < 2 ^ 2048

variable {pk : IssuerPublicKey} {key : RsaKey}

theorem Matches.one_lt (h : Matches pk key) : 1 < pk.n := by
  rw [h.n]
  exact Nat.lt_of_lt_of_le (Nat.one_lt_two_pow (by decide)) h.lower

theorem Matches.lt_pow (h : Matches pk key) (hm : m < pk.n) : m < 256 ^ 256 := by
  have hbits : 8 * 256 = 2048 := rfl
  rw [pow_256, hbits]
  exact Nat.lt_trans hm (h.n ▸ h.upper)

/-- What a request was blinded from, and can be finalized with. -/
structure Blinds (pk : IssuerPublicKey) (nonce challengeDigest : Octets 32) (m r : Nat)
    (request : Octets 256) (state : TokenClientState) : Prop where
  request : os2ip request.1 = m * (r ^ pk.e % pk.n) % pk.n
  inverse : r * state.rInv ≡ 1 [MOD pk.n]
  tokenInput : state.tokenInput = buildTokenInput nonce challengeDigest pk.keyId
  nonce : state.nonce = nonce
  challengeDigest : state.challengeDigest = challengeDigest
  tokenKeyId : state.tokenKeyId = pk.keyId

theorem Matches.blindWith (h : Matches pk key) (hr : r.Coprime pk.n)
    (nonce challengeDigest : Octets 32) (m : Nat) :
    ∃ request state, blindWith pk nonce challengeDigest m r = .ok (request, state) ∧
      Blinds pk nonce challengeDigest m r request state := by
  obtain ⟨rInv, hinv, -, hone⟩ := modInverse_natCast h.one_lt hr
  have hlt : m * modPow r pk.e pk.n % pk.n < pk.n := Nat.mod_lt _ (Nat.zero_lt_of_lt h.one_lt)
  have hi := i2osp_of_lt (h.lt_pow hlt)
  refine ⟨⟨toBE 256 (m * modPow r pk.e pk.n % pk.n), length_toBE _ _⟩,
    { rInv, tokenInput := buildTokenInput nonce challengeDigest pk.keyId, nonce
      challengeDigest, tokenKeyId := pk.keyId }, ?_, ?_, hone, rfl, rfl, rfl, rfl⟩
  · simp only [Core.blindWith, hinv, AUTHENTICATOR_LEN, hi, bind, Except.bind, pure, Except.pure,
      Int.toNat_natCast]
  · rw [(os2ip_of_i2osp hi).1, modPow_eq h.one_lt]

/-! ## Unblinding -/

/-- The issuer's answer to a request. -/
def blindSign (key : RsaKey) (request : Octets 256) : Except Failure (Octets 256) :=
  i2osp (os2ip request.1 ^ key.d % key.n) AUTHENTICATOR_LEN

/-- The unblinded answer raised to the public exponent is the message. -/
theorem Matches.pow_unblinded (h : Matches pk key) (hone : r * rInv ≡ 1 [MOD pk.n])
    (hm : m < pk.n) :
    ((m * (r ^ pk.e % pk.n) % pk.n) ^ key.d % key.n * rInv % pk.n) ^ pk.e % pk.n = m := by
  rw [h.n] at hone hm ⊢
  rw [h.e]
  have hblind : m * (r ^ key.e % key.n) % key.n ≡ m * r ^ key.e [MOD key.n] :=
    (Nat.mod_modEq _ _).trans ((Nat.mod_modEq _ _).mul_left m)
  have hsign : (m * (r ^ key.e % key.n) % key.n) ^ key.d % key.n * rInv % key.n ≡
      m ^ key.d [MOD key.n] :=
    calc (m * (r ^ key.e % key.n) % key.n) ^ key.d % key.n * rInv % key.n
        ≡ (m * (r ^ key.e % key.n) % key.n) ^ key.d % key.n * rInv [MOD key.n] := Nat.mod_modEq _ _
      _ ≡ (m * r ^ key.e) ^ key.d * rInv [MOD key.n] :=
        ((Nat.mod_modEq _ _).trans (hblind.pow _)).mul_right _
      _ ≡ m ^ key.d [MOD key.n] := key.unblind hone m
  have hverify := (hsign.pow key.e).trans (key.pow_pow' m)
  rwa [Nat.ModEq, Nat.mod_eq_of_lt hm] at hverify

/-- The issuer's answer finalizes into the signature of the message that was blinded. -/
theorem Matches.finalizeToken (h : Matches pk key) {state : TokenClientState} {salt : Octets 48}
    {em : Bytes} {request : Octets 256} (hone : r * state.rInv ≡ 1 [MOD pk.n])
    (henc : emsaPssEncode H state.tokenInput.1 2047 salt.1 = .ok em)
    (hreq : os2ip request.1 = os2ip em * (r ^ pk.e % pk.n) % pk.n) :
    ∃ signature authenticator, blindSign key request = .ok signature ∧
      finalizeToken H pk signature.1 state = .ok
        { nonce := state.nonce, challengeDigest := state.challengeDigest
          tokenKeyId := state.tokenKeyId, authenticator } ∧
      os2ip authenticator.1 ^ pk.e % pk.n = os2ip em := by
  obtain ⟨hlen, hem⟩ := emsaPssEncode_bounds henc
  have hpos : 0 < pk.n := Nat.zero_lt_of_lt h.one_lt
  have hm : os2ip em < pk.n := Nat.lt_of_lt_of_le hem (h.n ▸ h.lower)
  have hpow := h.pow_unblinded hone hm
  rw [← hreq] at hpow
  have hsign : os2ip request.1 ^ key.d % key.n < pk.n := by
    rw [h.n]
    exact Nat.mod_lt _ (h.n ▸ hpos)
  have hsig := i2osp_of_lt (h.lt_pow hsign)
  generalize hs : os2ip request.1 ^ key.d % key.n * state.rInv % pk.n = s at hpow
  have hauth := i2osp_of_lt (h.lt_pow (hs ▸ Nat.mod_lt _ hpos : s < pk.n))
  have hcheck : i2osp (modPow s pk.e pk.n) 256 = .ok ⟨em, hlen⟩ := by
    rw [modPow_eq h.one_lt, hpow]
    exact i2osp_os2ip ⟨em, hlen⟩
  have hverify : emsaPssVerify H state.tokenInput.1 em 2047 = true :=
    (emsaPssVerify_eq_true_iff H state.tokenInput.1 ⟨em, hlen⟩).mpr ⟨salt, henc⟩
  refine ⟨_, ⟨toBE 256 s, length_toBE _ _⟩, hsig, ?_, ?_⟩
  · have hs' : os2ip (toBE 256 (os2ip request.1 ^ key.d % key.n)) * state.rInv % pk.n = s := by
      rw [← hs, (os2ip_of_i2osp hsig).1]
    simp only [Core.finalizeToken, AUTHENTICATOR_LEN, MOD_BITS, length_toBE, hpos.ne', hs', hauth,
      hcheck, hverify, ne_eq, not_true, if_true, if_false, bind, Except.bind, pure, Except.pure]
  · rw [(os2ip_of_i2osp hauth).1, hpow]

theorem exists_emsaPssEncode (message : Bytes) (salt : Octets 48) :
    ∃ em, emsaPssEncode H message 2047 salt.1 = .ok em :=
  ⟨_, emsaPssEncode_eq H message salt⟩

/-- An honest issuer's answer to a blinded request finalizes into the token of the request, whose
authenticator is the encoding of its token input with the salt of the request; and the verifier
accepts exactly the encodings of a message. -/
theorem issuance_correct (H : Hashes) :
    (∀ {pk : IssuerPublicKey} {key : RsaKey}, Matches pk key →
      ∀ (nonce challengeDigest : Octets 32) (salt : Octets 48) (r : Nat) (random : TokenRandom)
        (fuel : Nat), r.Coprime pk.n →
      ∃ request state,
        blindToken H pk challengeDigest
          { nonce := some nonce, blind := some r, salt := some salt, random } fuel =
            some (.ok (request, state)) ∧
        ∃ signature token em, blindSign key request = .ok signature ∧
          finalizeToken H pk signature.1 state = .ok token ∧
          token.serialize.1.take 98 = (buildTokenInput nonce challengeDigest pk.keyId).1 ∧
          emsaPssEncode H (token.serialize.1.take 98) 2047 salt.1 = .ok em ∧ em.length = 256 ∧
          os2ip token.authenticator.1 ^ pk.e % pk.n = os2ip em) ∧
    ∀ (message : Bytes) (em : Octets 256), emsaPssVerify H message em.1 2047 = true ↔
      ∃ salt : Octets 48, emsaPssEncode H message 2047 salt.1 = .ok em.1 := by
  refine ⟨?_, emsaPssVerify_eq_true_iff H⟩
  intro pk key h nonce challengeDigest salt r random fuel hr
  obtain ⟨em, hem⟩ := exists_emsaPssEncode (H := H)
    (buildTokenInput nonce challengeDigest pk.keyId).1 salt
  obtain ⟨request, state, hblind, hb⟩ := h.blindWith hr nonce challengeDigest (os2ip em)
  rw [← hb.tokenInput] at hem
  obtain ⟨signature, authenticator, hsign, hfin, hauth⟩ := h.finalizeToken hb.inverse hem hb.request
  have hinput : ({ nonce := state.nonce, challengeDigest := state.challengeDigest
                   tokenKeyId := state.tokenKeyId, authenticator } : Token).serialize.1.take 98 =
      (buildTokenInput nonce challengeDigest pk.keyId).1 := by
    rw [serialize_take, hb.nonce, hb.challengeDigest, hb.tokenKeyId]
  refine ⟨request, state, ?_, signature, _, em, hsign, hfin, hinput, ?_,
    (emsaPssEncode_bounds hem).1, hauth⟩
  · rw [hb.tokenInput] at hem
    simp only [blindToken, MOD_BITS, Option.elim, hem, hblind]
  · rw [hinput, ← hb.tokenInput]
    exact hem

/-! ## A key -/

/-- A prime that is one more than a prime times a power of two. -/
theorem prime_of_pows {k m p : Nat} (hk : k.Prime) (hp : p = k * 2 ^ m + 1) (h1 : 1 < p)
    (hone : modPow 3 (k * 2 ^ m) p = 1) (hhalf : modPow 3 (k * 2 ^ m / 2) p ≠ 1)
    (hpow : modPow 3 (k * 2 ^ m / k) p ≠ 1) : p.Prime := by
  have hsub : p - 1 = k * 2 ^ m := by omega
  have hiff (x : Nat) : (3 : ZMod p) ^ x = 1 ↔ modPow 3 x p = 1 := by
    rw [modPow_eq h1, ← Nat.cast_ofNat, ← Nat.cast_pow, ← Nat.cast_one,
      ZMod.natCast_eq_natCast_iff, Nat.ModEq, Nat.mod_eq_of_lt h1]
  refine lucas_primality p 3 ?_ ?_
  · rw [hsub]
    exact (hiff _).mpr hone
  · intro q hq hdvd
    rw [hsub] at hdvd ⊢
    rw [ne_eq, hiff]
    rcases (Nat.Prime.dvd_mul hq).mp hdvd with hqk | hq2
    · rwa [(Nat.prime_dvd_prime_iff_eq hq hk).mp hqk]
    · rwa [(Nat.prime_dvd_prime_iff_eq hq Nat.prime_two).mp (hq.dvd_of_dvd_pow hq2)]

theorem inverse_of_eq {k l m e d t : Nat} (h : e * d = t * (k * l * 2 ^ m) + 1) :
    e * d ≡ 1 [MOD (k * 2 ^ m + 1 - 1).lcm (l * 2 ^ m + 1 - 1)] := by
  have hdvd : (k * 2 ^ m).lcm (l * 2 ^ m) ∣ k * l * 2 ^ m :=
    Nat.lcm_dvd ⟨l, by ring⟩ ⟨k, by ring⟩
  rw [h, Nat.add_sub_cancel, Nat.add_sub_cancel]
  exact (Nat.modEq_zero_iff_dvd.mpr (dvd_mul_of_dvd_right hdvd t)).add_right 1

/-- A 2048-bit key with exponent 65537. -/
def sampleKey : RsaKey where
  p := 16770781 * 2 ^ 1000 + 1
  q := 16754917 * 2 ^ 1000 + 1
  e := 65537
  d := (49361 * (16770781 * 16754917 * 2 ^ 1000) + 1) / 65537
  prime_p := prime_of_pows (by norm_num) rfl (by decide +kernel) (by decide +kernel)
    (by decide +kernel) (by decide +kernel)
  prime_q := prime_of_pows (by norm_num) rfl (by decide +kernel) (by decide +kernel)
    (by decide +kernel) (by decide +kernel)
  distinct := by decide +kernel
  inverse := inverse_of_eq (by decide +kernel : _ = 49361 * (16770781 * 16754917 * 2 ^ 1000) + 1)

/-- Its public key, with an arbitrary key id. -/
def samplePublicKey : IssuerPublicKey :=
  { n := sampleKey.n, e := sampleKey.e, keyId := Octets.zero 32 }

/-- Hash functions of the right widths. -/
def sampleHashes : Hashes where
  sha256 bs := ⟨toBE 32 (ofBE ((bs.take 34).drop 2)), length_toBE _ _⟩
  sha384 bs := ⟨toBE 48 (ofBE bs), length_toBE _ _⟩
  hkdf _ _ info := ⟨toBE 32 (ofBE info), length_toBE _ _⟩

theorem samplePublicKey_matches : Matches samplePublicKey sampleKey where
  n := rfl
  e := rfl
  lower := by decide +kernel
  upper := by decide +kernel

theorem issuance_correct_sample :
    ∃ request state,
      blindToken sampleHashes samplePublicKey (Octets.zero 32)
        { nonce := some (Octets.zero 32), blind := some 2, salt := some (Octets.zero 48)
          random := fun n at_ => (Octets.zero n, at_) } 0 = some (.ok (request, state)) ∧
      ∃ signature token em, blindSign sampleKey request = .ok signature ∧
        finalizeToken sampleHashes samplePublicKey signature.1 state = .ok token ∧
        token.serialize.1.take 98 =
          (buildTokenInput (Octets.zero 32) (Octets.zero 32) samplePublicKey.keyId).1 ∧
        emsaPssEncode sampleHashes (token.serialize.1.take 98) 2047 (Octets.zero 48).1 = .ok em ∧
        em.length = 256 ∧
        os2ip token.authenticator.1 ^ samplePublicKey.e % samplePublicKey.n = os2ip em :=
  (issuance_correct sampleHashes).1 samplePublicKey_matches _ _ _ 2 _ 0 (by decide +kernel)

end WarrenSdk.Core
