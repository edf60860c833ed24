import WarrenSdk.Core.Errors
import WarrenSdk.Lib.Utf16

/-!
# Blind-RSA session tokens (`edge/token.ts`)

The client half of RSABSSA-SHA384-PSS: a token pre-image is blinded, signed by the issuer, and
unblinded into a token whose authenticator is a plain RSASSA-PSS signature. A `bigint` is a `Nat`
but in `modInverse`, where it may be negative; a byte past the end of an array reads as 0 where the
source writes `?? 0`.
-/

namespace WarrenSdk.Core
open Lib

def TOKEN_TYPE_BLIND_RSA : Nat := 0x0002
def NONCE_LEN : Nat := 32
def CHALLENGE_DIGEST_LEN : Nat := 32
def TOKEN_KEY_ID_LEN : Nat := 32
def AUTHENTICATOR_LEN : Nat := 256
def TOKEN_LEN : Nat := 2 + NONCE_LEN + CHALLENGE_DIGEST_LEN + TOKEN_KEY_ID_LEN + AUTHENTICATOR_LEN
def MOD_BITS : Nat := 2048
def HASH_LEN : Nat := 48

/-! ## `bigint` and octet strings -/

def os2ip (bytes : Bytes) : Nat := bytes.foldl (fun n b => (n <<< 8) ||| b.toNat) 0

/-- The loop of `i2osp`: the octets before `out` are still to come, and `v` is left for them. -/
def i2ospLoop : Nat → Nat → Bytes → Nat × Bytes
  | 0, v, out => (v, out)
  | i + 1, v, out => i2ospLoop i (v >>> 8) (UInt8.ofNat (v &&& 0xff) :: out)

@[simp] theorem length_i2ospLoop (i v : Nat) (out : Bytes) :
    (i2ospLoop i v out).2.length = i + out.length := by
  induction i generalizing v out with
  | zero => simp [i2ospLoop]
  | succ i ih =>
    rw [i2ospLoop, ih, List.length_cons]
    omega

def i2osp (n len : Nat) : Except Failure (Octets len) :=
  if (i2ospLoop len n []).1 ≠ 0 then
    .error (.range "integer too large for the requested octet length")
  else .ok ⟨(i2ospLoop len n []).2, by rw [length_i2ospLoop, List.length_nil, Nat.add_zero]⟩

def modPowLoop (mod result b e : Nat) : Nat :=
  if 0 < e then
    modPowLoop mod (if e &&& 1 ≠ 0 then result * b % mod else result) (b * b % mod) (e >>> 1)
  else result
termination_by e
decreasing_by
  rw [Nat.shiftRight_one]
  omega

/-- `mod` is not zero where this is called. -/
def modPow (base exp mod : Nat) : Nat := modPowLoop mod 1 (base % mod) exp

/-- The loop of `modInverse`; `/` truncates. -/
def modInverseLoop (old_r r old_s s : Int) : Int × Int :=
  if r ≠ 0 then
    let q := old_r.tdiv r
    modInverseLoop r (old_r - q * r) s (old_s - q * s)
  else (old_r, old_s)
termination_by r.natAbs
decreasing_by
  have h : old_r - old_r.tdiv r * r = old_r.tmod r := by rw [Int.tmod_def, Int.mul_comm]
  rw [h, Int.natAbs_tmod]
  exact Nat.mod_lt _ (by omega)

def modInverse (a m : Int) : Except Failure Int :=
  if m = 0 then .error divisionByZero
  else
    let (r, s) := modInverseLoop ((a.tmod m + m).tmod m) m 1 0
    if r ≠ 1 then .error (.error "no modular inverse (value not coprime to modulus)")
    else .ok ((s.tmod m + m).tmod m)

/-! ## MGF1 and EMSA-PSS (RFC 8017) -/

variable (H : Hashes)

/-- The octets of `mgf1Sha384` from block `counter` on, `length` of them. -/
def mgf1Loop (seed : Bytes) (counter length : Nat) : Bytes :=
  if 0 < length then
    let block := (H.sha384 (seed ++ toBE 4 counter)).1
    let take := min block.length length
    block.take take ++ mgf1Loop seed (counter + 1) (length - take)
  else []
termination_by length
decreasing_by
  rw [(H.sha384 _).2]
  omega

def mgf1Sha384 (seed : Bytes) (length : Nat) : Bytes := mgf1Loop H seed 0 length

/-- `M'`, eight zero octets, the hash and the salt. -/
def mPrime (mHash salt : Bytes) : Bytes := List.replicate 8 0 ++ mHash ++ salt

/-- The first `n` octets of `a` and `b`, added bit by bit. -/
def xorBytes (n : Nat) (a b : Bytes) : Bytes :=
  (List.range n).map fun i => a.getD i 0 ^^^ b.getD i 0

/-- Clears the leftmost bits of the first octet. -/
def clearLeft (clearBits : Nat) (bs : Bytes) : Bytes :=
  bs.modify 0 (· &&& UInt8.ofNat (0xff >>> clearBits))

def emsaPssEncode (message : Bytes) (emBits : Nat) (salt : Bytes) : Except Failure Bytes :=
  let emLen := (emBits + 7) / 8
  let sLen := salt.length
  let mHash := (H.sha384 message).1
  if emLen < HASH_LEN + sLen + 2 then .error (.error "encoding error: emLen too small")
  else
    let h := (H.sha384 (mPrime mHash salt)).1
    let dbLen := emLen - HASH_LEN - 1
    let db := List.replicate (dbLen - sLen - 1) 0 ++ [0x01] ++ salt
    let maskedDb := clearLeft (8 * emLen - emBits) (xorBytes dbLen db (mgf1Sha384 H h dbLen))
    .ok (maskedDb ++ h ++ [0xbc])

def emsaPssVerify (message em : Bytes) (emBits : Nat) : Bool :=
  let emLen := (emBits + 7) / 8
  let sLen := HASH_LEN
  let mHash := (H.sha384 message).1
  if emLen < HASH_LEN + sLen + 2 then false
  else if em[emLen - 1]? ≠ some 0xbc then false
  else
    let dbLen := emLen - HASH_LEN - 1
    let maskedDb := em.take dbLen
    let h := (em.drop dbLen).take HASH_LEN
    let clearBits := 8 * emLen - emBits
    if (maskedDb.getD 0 0).toNat &&& ((0xff <<< (8 - clearBits)) &&& 0xff) ≠ 0 then false
    else
      let db := clearLeft clearBits (xorBytes dbLen maskedDb (mgf1Sha384 H h dbLen))
      if (db.take (dbLen - sLen - 1)).any (· ≠ 0) then false
      else if db[dbLen - sLen - 1]? ≠ some 0x01 then false
      else
        let salt := db.drop (dbLen - sLen)
        let hPrime := (H.sha384 (mPrime mHash salt)).1
        hPrime.zipIdx.all fun (b, i) => some b = h[i]?

/-! ## The issuer's public key -/

structure IssuerPublicKey where
  n : Nat
  e : Nat
  keyId : Octets 32
deriving DecidableEq

def issuerPublicKey (n e spki : Bytes) : IssuerPublicKey :=
  { n := os2ip n, e := os2ip e, keyId := H.sha256 spki }

/-- `Uint8Array.subarray`: an index below zero counts from the end. -/
def subarray (bs : Bytes) (start stop : Int) : Bytes :=
  let index (i : Int) : Nat := if i < 0 then (i + bs.length).toNat else min i.toNat bs.length
  (bs.take (index stop)).drop (index start)

/-- `der[i] ?? 0` -/
def byteAt (der : Bytes) (i : Int) : UInt8 := if i < 0 then 0 else der.getD i.toNat 0

structure Tlv where
  tag : UInt8
  start : Int
  stop : Int
deriving DecidableEq

/-- A length of `k` octets, in the 32-bit arithmetic of `<<` and `|`. -/
def readLength (der : Bytes) : Nat → BitVec 32 → Int → BitVec 32 × Int
  | 0, len, o => (len, o)
  | k + 1, len, o => readLength der k ((len <<< 8) ||| (byteAt der o).toBitVec.setWidth 32) (o + 1)

def readTlv (der : Bytes) (offset : Int) : Tlv :=
  let tag := byteAt der offset
  let o := offset + 1
  let len := byteAt der o
  let o := o + 1
  if len &&& 0x80 ≠ 0 then
    let (len, o) := readLength der (len &&& 0x7f).toNat 0 o
    { tag, start := o, stop := o + len.toInt }
  else { tag, start := o, stop := o + len.toNat }

/-- Drops the zero octet that keeps a DER integer positive. -/
def strip (a : Bytes) : Bytes := if 1 < a.length ∧ a.getD 0 0 = 0x00 then a.drop 1 else a

def issuerPublicKeyFromSpki (spki : Bytes) : Except Failure IssuerPublicKey :=
  let outer := readTlv spki 0
  let algId := readTlv spki outer.start
  let bitString := readTlv spki algId.stop
  if bitString.tag ≠ 0x03 then
    .error (tokenIssuerError "SPKI: expected a BIT STRING for the public key")
  else
    let rsaSeq := readTlv spki (bitString.start + 1)
    let nTlv := readTlv spki rsaSeq.start
    let eTlv := readTlv spki nTlv.stop
    .ok (issuerPublicKey H (strip (subarray spki nTlv.start nTlv.stop))
      (strip (subarray spki eTlv.start eTlv.stop)) spki)

/-! ## Challenges -/

def serializeTokenChallenge (issuerName : Utf16) (redemptionContext originInfo : Bytes) :
    Except Failure Bytes :=
  let name := issuerName.utf8
  if redemptionContext.length ≠ 0 ∧ redemptionContext.length ≠ 32 then
    .error (.range "redemption_context must be empty or exactly 32 bytes")
  else
    .ok (toBE 2 TOKEN_TYPE_BLIND_RSA ++ toBE 2 name.length ++ name ++
      toBE 1 redemptionContext.length ++ redemptionContext ++
      toBE 2 originInfo.length ++ originInfo)

def tokenChallengeDigest (issuerName : Utf16) (redemptionContext originInfo : Bytes) :
    Except Failure (Octets 32) :=
  (serializeTokenChallenge issuerName redemptionContext originInfo).map H.sha256

def redemptionContextForEpoch (contextLabel : Utf16) (epoch : Nat) : Octets 32 :=
  H.sha256 (contextLabel.utf8 ++ toBE 8 epoch)

def challengeDigestForEpoch (issuerName contextLabel : Utf16) (epoch : Nat) :
    Except Failure (Octets 32) :=
  tokenChallengeDigest H issuerName (redemptionContextForEpoch H contextLabel epoch).1 []

/-! ## Tokens -/

def buildTokenInput (nonce challengeDigest tokenKeyId : Octets 32) : Octets 98 :=
  ⟨toBE 2 TOKEN_TYPE_BLIND_RSA ++ nonce.1 ++ challengeDigest.1 ++ tokenKeyId.1, by
    simp only [List.length_append, length_toBE, nonce.2, challengeDigest.2, tokenKeyId.2]⟩

/-- What a client keeps of a blinded request to finalize it. -/
structure TokenClientState where
  rInv : Nat
  tokenInput : Octets 98
  nonce : Octets 32
  challengeDigest : Octets 32
  tokenKeyId : Octets 32
deriving DecidableEq

structure Token where
  nonce : Octets 32
  challengeDigest : Octets 32
  tokenKeyId : Octets 32
  authenticator : Octets 256
deriving DecidableEq

def Token.serialize (token : Token) : Octets TOKEN_LEN :=
  ⟨toBE 2 TOKEN_TYPE_BLIND_RSA ++ token.nonce.1 ++ token.challengeDigest.1 ++ token.tokenKeyId.1 ++
    token.authenticator.1, by
    simp only [List.length_append, length_toBE, token.nonce.2, token.challengeDigest.2,
      token.tokenKeyId.2, token.authenticator.2]
    rfl⟩

/-- The key an exit leases one live session per; `none` for what is no token. -/
def tokenSerial (bytes : Bytes) : Option (Octets 32) :=
  if bytes.length ≠ TOKEN_LEN then none
  else if ((bytes.getD 0 0).toNat <<< 8) + (bytes.getD 1 0).toNat ≠ TOKEN_TYPE_BLIND_RSA then none
  else some (H.sha256 (bytes.take (2 + NONCE_LEN + CHALLENGE_DIGEST_LEN + TOKEN_KEY_ID_LEN)))

/-- A source of octets, which keeps in a `Nat` how far it has been read. -/
abbrev TokenRandom := (byteLength : Nat) → Nat → Octets byteLength × Nat

/-- `fuel` bounds the search, which the source repeats until a draw is coprime to `n`; `none` when
it runs out. -/
def randomCoprime (n : Nat) (draw : TokenRandom) : Nat → Nat → Option (Except Failure Nat)
  | 0, _ => none
  | fuel + 1, drawn =>
    let (bytes, drawn) := draw AUTHENTICATOR_LEN drawn
    if n = 0 then some (.error divisionByZero)
    else
      let r := os2ip bytes.1 % n
      if 1 < r then
        match modInverse r n with
        | .ok _ => some (.ok r)
        | .error _ => randomCoprime n draw fuel drawn
      else randomCoprime n draw fuel drawn

/-- What a caller of `blindToken` may fix, and the source of what it does not. -/
structure BlindOptions where
  nonce : Option (Octets 32) := none
  blind : Option Nat := none
  salt : Option (Octets 48) := none
  random : TokenRandom

/-- `blindToken` from the blinding factor on. -/
def blindWith (pk : IssuerPublicKey) (nonce challengeDigest : Octets 32) (m r : Nat) :
    Except Failure (Octets 256 × TokenClientState) := do
  let rInv ← modInverse r pk.n
  let blinded := m * modPow r pk.e pk.n % pk.n
  let blindedRequest ← i2osp blinded AUTHENTICATOR_LEN
  return (blindedRequest,
    { rInv := rInv.toNat, tokenInput := buildTokenInput nonce challengeDigest pk.keyId, nonce
      challengeDigest, tokenKeyId := pk.keyId })

def blindToken (pk : IssuerPublicKey) (challengeDigest : Octets 32) (opts : BlindOptions)
    (fuel : Nat) : Option (Except Failure (Octets 256 × TokenClientState)) :=
  let (nonce, drawn) := opts.nonce.elim (opts.random NONCE_LEN 0) (·, 0)
  let (salt, drawn) := opts.salt.elim (opts.random HASH_LEN drawn) (·, drawn)
  let tokenInput := buildTokenInput nonce challengeDigest pk.keyId
  match emsaPssEncode H tokenInput.1 (MOD_BITS - 1) salt.1 with
  | .error e => some (.error e)
  | .ok em =>
    let m := os2ip em
    match opts.blind.elim (randomCoprime pk.n opts.random fuel drawn) (some <| .ok ·) with
    | none => none
    | some (.error e) => some (.error e)
    | some (.ok r) => some (blindWith pk nonce challengeDigest m r)

def finalizeToken (pk : IssuerPublicKey) (blindSignature : Bytes) (state : TokenClientState) :
    Except Failure Token :=
  if blindSignature.length ≠ AUTHENTICATOR_LEN then
    .error (tokenIssuerError "blind signature must be 256 bytes")
  else if pk.n = 0 then .error divisionByZero
  else do
    let s := os2ip blindSignature * state.rInv % pk.n
    let sig ← i2osp s AUTHENTICATOR_LEN
    let em ← i2osp (modPow s pk.e pk.n) AUTHENTICATOR_LEN
    if emsaPssVerify H state.tokenInput.1 em.1 (MOD_BITS - 1) then
      return { nonce := state.nonce, challengeDigest := state.challengeDigest
               tokenKeyId := state.tokenKeyId, authenticator := sig }
    else throw (tokenIssuerError "finalized token signature does not verify")

end WarrenSdk.Core
