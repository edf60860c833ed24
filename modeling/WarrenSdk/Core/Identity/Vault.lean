import WarrenSdk.Lib.Base64
import WarrenSdk.Lib.Ideal
import WarrenSdk.Lib.Json
import WarrenSdk.Lib.Utf8

/-!
# The wallet at rest (`identity/vault.ts`, `identity/mnemonic.ts`)

A mnemonic is sealed with a key that is derived from a password, and kept in a text that records the
parameters of its key. `Crypto` is what the platform computes. Where it is `Ideal`, the text opens
with the keys of its password alone, and to the phrase that was sealed (`decryptMnemonic_eq_ok`).
-/

namespace WarrenSdk.Core.Vault
open Lib

def VAULT_ITERATIONS : Nat := 900000

/-- What the vault takes from the platform and from BIP39. -/
structure Crypto where
  sha256 : Bytes → Octets 32
  /-- `deriveKey`, `none` where it rejects. -/
  pbkdf2 (password salt : Bytes) (iterations : Nat) : Option Bytes
  aesGcm : Aead
  /-- `exportKey('jwk', key)` -/
  exportKey (key : Bytes) : Json
  /-- `importKey('jwk', jwk)`, `none` where it rejects; `jwk` may be `undefined`. -/
  importKey (jwk : Option Json) : Option Bytes
  /-- `String(value)` -/
  string (value : Json) : Utf16
  /-- `normalize('NFKD')` -/
  normalize (s : Utf16) : Utf16
  /-- `validateMnemonic` over the English words. -/
  validateMnemonic (s : Utf16) : Bool
  /-- `mnemonicToSeedSync` with no passphrase. -/
  mnemonicToSeed (s : Utf16) : Octets 64

inductive VaultError
  | malformed
  | undecryptable
deriving DecidableEq, Repr

def VaultError.message : VaultError → String
  | malformed => "vault blob is malformed"
  | undecryptable => "vault could not be decrypted (wrong password or corrupt)"

/-- The property of a value, `none` when it has none of that name. -/
def property (key : Utf16) : Json → Option Json
  | .object members => Json.member members key
  | _ => none

/-- Whether `value ? … : …` takes its first branch. -/
def isTruthy : Json → Bool
  | .null => false
  | .bool b => b
  | .number q => q ≠ 0
  | .string s => s ≠ []
  | .array _ | .object _ => true

def toB64 (bytes : Bytes) : Utf16 := base64 (bytes.map UInt8.toNat)

def fromB64 (b64 : Utf16) : Option Bytes := atob b64

/-- A key with the parameters it was derived with. -/
structure DerivedVaultKey where
  key : Bytes
  saltB64 : Utf16
  iterations : Nat

/-- The salt of a key; one that is not given, or is empty, is drawn. -/
def saltFrom (drawn : Octets 32) : Option Utf16 → Option Bytes
  | none | some [] => some drawn.1
  | some saltB64 => fromB64 saltB64

section
variable (C : Crypto)

def deriveVaultKey (drawn : Octets 32) (password : Utf16) (saltB64 : Option Utf16)
    (iterations : Nat) : Option DerivedVaultKey := do
  let salt ← saltFrom drawn saltB64
  let key ← C.pbkdf2 (Utf16.utf8 password) salt iterations
  return { key, saltB64 := toB64 salt, iterations }

/-- The text of a vault. -/
def vaultBlob (saltB64 : Utf16) (iterations : Nat) (iv ct : Utf16) : Json :=
  .object [
    ("v", .number (1 : Nat)),
    ("kdf", .object [
      ("name", .string "PBKDF2"),
      ("hash", .string "SHA-256"),
      ("iterations", .number iterations),
      ("salt", .string saltB64)]),
    ("cipher", .object [
      ("name", .string "AES-GCM"),
      ("iv", .string iv)]),
    ("ct", .string ct)]

/-- With the salt and the initialization vector that are drawn for it. -/
def encryptMnemonic (salt : Octets 32) (iv : Octets 16) (mnemonic password : Utf16) :
    Option Utf16 := do
  let derived ← deriveVaultKey C salt password none VAULT_ITERATIONS
  let plaintext := Utf16.utf8 (C.normalize mnemonic)
  let ct := C.aesGcm.encrypt derived.key iv.1 [] plaintext
  return Json.stringify (vaultBlob derived.saltB64 derived.iterations (toB64 iv.1) (toB64 ct))

/-- What `decryptMnemonic` opens of a text: the initialization vector and the ciphertext. -/
def readBlob (blobJson : Utf16) : Option (Json × Json) := do
  let blob ← Json.parse blobJson
  let .number v ← property "v" blob | none
  let ct ← property "ct" blob
  let iv ← (property "cipher" blob).bind (property "iv")
  let salt ← (property "kdf" blob).bind (property "salt")
  if v = 1 ∧ isTruthy ct ∧ isTruthy iv ∧ isTruthy salt then some (iv, ct) else none

/-- With a key that is given, as the keyring does. -/
def decryptMnemonic (blobJson : Utf16) (key : Bytes) : Except VaultError Utf16 :=
  match readBlob blobJson with
  | none => .error .malformed
  | some (iv, ct) =>
    match fromB64 (C.string iv), fromB64 (C.string ct) with
    | some iv, some ct =>
      match C.aesGcm.decrypt key iv [] ct with
      | some plaintext => .ok (Utf8.decodeText plaintext)
      | none => .error .undecryptable
    | _, _ => .error .undecryptable

def seedFromMnemonic (mnemonic : Utf16) : Option Bytes :=
  let normalized := C.normalize mnemonic
  if C.validateMnemonic normalized then some ((C.mnemonicToSeed normalized).1.take 32) else none

/-- The key of an HMAC, which is all that a derivation takes of its password. -/
def hmacKey (sha256 : Bytes → Octets 32) (password : Bytes) : Bytes :=
  let short := if password.length ≤ 64 then password else (sha256 password).1
  short ++ List.replicate (64 - short.length) 0

/-- Two passwords that no derivation tells apart. -/
def SamePassword (password password' : Utf16) : Prop :=
  hmacKey C.sha256 (Utf16.utf8 password) = hmacKey C.sha256 (Utf16.utf8 password')

instance : DecidableRel (SamePassword C) := fun _ _ => inferInstanceAs (Decidable (_ = _))

end

/-- A platform whose keys tell what they are derived from. -/
structure Crypto.Ideal (C : Crypto) : Prop where
  pbkdf2_congr {password password' : Bytes} (salt : Bytes) (iterations : Nat) :
    hmacKey C.sha256 password = hmacKey C.sha256 password' →
      C.pbkdf2 password salt iterations = C.pbkdf2 password' salt iterations
  pbkdf2_inj {password password' salt salt' key : Bytes} {iterations iterations' : Nat} :
    C.pbkdf2 password salt iterations = some key →
      C.pbkdf2 password' salt' iterations' = some key →
      hmacKey C.sha256 password = hmacKey C.sha256 password'
  /-- It takes the parameters of every vault. -/
  pbkdf2_isSome (password : Bytes) (salt : Octets 32) :
    (C.pbkdf2 password salt.1 VAULT_ITERATIONS).isSome
  aesGcm : C.aesGcm.Ideal 16
  importKey_exportKey (key : Bytes) : C.importKey (some (C.exportKey key)) = some key
  exportKey_plain (key : Bytes) : Json.Plain (C.exportKey key)
  string_string (s : Utf16) : C.string (.string s) = s
  normalize_ascii {s : Utf16} : Utf16.IsAscii s → C.normalize s = s
  ascii_of_valid {s : Utf16} : C.validateMnemonic s = true → Utf16.IsAscii s

variable {C : Crypto} {salt : Octets 32} {iv : Octets 16} {mnemonic password blob : Utf16}

/-! ## What a vault records -/

theorem fromB64_toB64 (bytes : Bytes) : fromB64 (toB64 bytes) = some bytes := atob_base64 bytes

theorem toB64_ne_nil (h : 0 < bytes.length) : toB64 bytes ≠ [] := by
  intro hnil
  have hback := fromB64_toB64 bytes
  rw [hnil] at hback
  cases hback
  exact absurd h (Nat.lt_irrefl 0)

theorem isTruthy_toB64 (h : 0 < bytes.length) : isTruthy (.string (toB64 bytes)) = true :=
  decide_eq_true (toB64_ne_nil h)

theorem plain_vaultBlob (saltB64 : Utf16) (iterations : Nat) (iv ct : Utf16) :
    Json.Plain (vaultBlob saltB64 iterations iv ct) := by
  have hkdf : Json.Plain (.object [("name", .string "PBKDF2"), ("hash", .string "SHA-256"),
      ("iterations", .number iterations), ("salt", .string saltB64)]) := by
    have hkeys : (["name", "hash", "iterations", "salt"] : List Utf16).Nodup := by decide
    refine .object hkeys ?_
    simp only [List.forall_mem_cons]
    exact ⟨.string _, .string _, .number iterations, .string _, List.forall_mem_nil _⟩
  have hcipher : Json.Plain (.object [("name", .string "AES-GCM"), ("iv", .string iv)]) := by
    have hkeys : (["name", "iv"] : List Utf16).Nodup := by decide
    refine .object hkeys ?_
    simp only [List.forall_mem_cons]
    exact ⟨.string _, .string _, List.forall_mem_nil _⟩
  have hkeys : (["v", "kdf", "cipher", "ct"] : List Utf16).Nodup := by decide
  refine .object hkeys ?_
  simp only [List.forall_mem_cons]
  exact ⟨.number 1, hkdf, hcipher, .string _, List.forall_mem_nil _⟩

/-- The text of a vault, in its parts. -/
structure Sealed (C : Crypto) (salt : Octets 32) (iv : Octets 16) (mnemonic password blob : Utf16)
    (key : Bytes) : Prop where
  derives : C.pbkdf2 (Utf16.utf8 password) salt.1 VAULT_ITERATIONS = some key
  parses : Json.parse blob = some (vaultBlob (toB64 salt.1) VAULT_ITERATIONS (toB64 iv.1)
    (toB64 (C.aesGcm.encrypt key iv.1 [] (Utf16.utf8 (C.normalize mnemonic)))))

theorem exists_sealed (h : encryptMnemonic C salt iv mnemonic password = some blob) :
    ∃ key, Sealed C salt iv mnemonic password blob key := by
  obtain ⟨derived, hderived, hblob⟩ := Option.bind_eq_some_iff.mp h
  obtain ⟨key, hkey, hd⟩ := Option.bind_eq_some_iff.mp hderived
  cases hd
  cases hblob
  exact ⟨key, hkey, Json.parse_stringify (plain_vaultBlob ..)⟩

theorem Sealed.readBlob (hC : C.Ideal) (h : Sealed C salt iv mnemonic password blob key) :
    readBlob blob = some (.string (toB64 iv.1),
      .string (toB64 (C.aesGcm.encrypt key iv.1 [] (Utf16.utf8 (C.normalize mnemonic))))) := by
  have hct : 0 < (C.aesGcm.encrypt key iv.1 [] (Utf16.utf8 (C.normalize mnemonic))).length :=
    Nat.lt_of_lt_of_le (by decide) (hC.aesGcm.tag_le ..)
  have hiv : 0 < iv.1.length := by
    rw [iv.2]
    decide
  have hsalt : 0 < salt.1.length := by
    rw [salt.2]
    decide
  rw [Vault.readBlob, h.parses]
  exact if_pos ⟨rfl, isTruthy_toB64 hct, isTruthy_toB64 hiv, isTruthy_toB64 hsalt⟩

/-! ## What opens it -/

theorem decodeText_normalize (hC : C.Ideal) (h : C.validateMnemonic (C.normalize mnemonic) = true) :
    Utf8.decodeText (Utf16.utf8 (C.normalize mnemonic)) = C.normalize mnemonic := by
  have hascii := hC.ascii_of_valid h
  refine Utf8.decodeText_utf8 hascii.wellFormed ?_
  intro hmark
  have hlt := hascii 0xFEFF (List.mem_of_mem_head? hmark)
  exact absurd hlt (by decide)

/-- A phrase that comes out of a vault has the seed of the one that was sealed. -/
theorem seedFromMnemonic_normalize (hC : C.Ideal)
    (h : C.validateMnemonic (C.normalize mnemonic) = true) :
    seedFromMnemonic C (C.normalize mnemonic) = seedFromMnemonic C mnemonic := by
  rw [seedFromMnemonic, hC.normalize_ascii (hC.ascii_of_valid h), seedFromMnemonic]

/-- A vault opens with the key of its password, salt and iterations and with no other, and what
comes out is the phrase that was sealed, as it was normalized. -/
theorem decryptMnemonic_eq_ok (hC : C.Ideal)
    (h : encryptMnemonic C salt iv mnemonic password = some blob)
    (hvalid : C.validateMnemonic (C.normalize mnemonic) = true) :
    decryptMnemonic C blob key = .ok phrase ↔
      C.pbkdf2 (Utf16.utf8 password) salt.1 VAULT_ITERATIONS = some key ∧
        phrase = C.normalize mnemonic := by
  obtain ⟨own, hsealed⟩ := exists_sealed h
  rw [decryptMnemonic, hsealed.readBlob hC, hsealed.derives]
  simp only [hC.string_string, fromB64_toB64]
  constructor
  · intro hok
    split at hok
    next plaintext hopen =>
      obtain rfl := (hC.aesGcm.decrypt_inj hopen (hC.aesGcm.decrypt_encrypt ..)).1
      rw [hC.aesGcm.decrypt_encrypt] at hopen
      cases hopen
      cases hok
      exact ⟨rfl, decodeText_normalize hC hvalid⟩
    next => cases hok
  · intro ⟨hkey, hphrase⟩
    cases hkey
    rw [hC.aesGcm.decrypt_encrypt, hphrase]
    exact congrArg Except.ok (decodeText_normalize hC hvalid)

/-- The two passwords of a derived key and a vault that it opens are one to the derivation. -/
theorem samePassword_of_decrypt (hC : C.Ideal)
    (h : encryptMnemonic C salt iv mnemonic password = some blob)
    (hvalid : C.validateMnemonic (C.normalize mnemonic) = true)
    (hkey : C.pbkdf2 (Utf16.utf8 typed) salt' iterations = some key)
    (hopen : decryptMnemonic C blob key = .ok phrase) : SamePassword C typed password :=
  hC.pbkdf2_inj hkey ((decryptMnemonic_eq_ok hC h hvalid).mp hopen).1

/-- A vault is sealed with whatever salt and vector are drawn. -/
theorem exists_encryptMnemonic (hC : C.Ideal) (salt : Octets 32) (iv : Octets 16)
    (mnemonic password : Utf16) : ∃ blob, encryptMnemonic C salt iv mnemonic password =
        some blob := by
  obtain ⟨key, hkey⟩ := Option.isSome_iff_exists.mp (hC.pbkdf2_isSome (Utf16.utf8 password) salt)
  simp [encryptMnemonic, deriveVaultKey, saltFrom, hkey]

/-! ## A platform of records -/

def SAMPLE_PHRASE : Utf16 :=
  "abandon abandon abandon abandon abandon abandon abandon abandon abandon abandon abandon about"

def exportRecord (key : Bytes) : Json :=
  .object [
    ("alg", .string "A256GCM"),
    ("ext", .bool true),
    ("k", .string (base64Url key)),
    ("key_ops", .array [.string "encrypt", .string "decrypt"]),
    ("kty", .string "oct")]

def importRecord (jwk : Option Json) : Option Bytes :=
  match jwk.bind (property "k") with
  | some (.string k) => ofBase64Url k
  | _ => none

/-- Keys and ciphertexts are records of what they are made of. -/
def recordCrypto : Crypto where
  sha256 _ := Octets.zero 32
  pbkdf2 password salt iterations :=
    some (sized (hmacKey (fun _ => Octets.zero 32) password) ++ (sized salt ++ toLeb iterations))
  aesGcm := recordAead 16
  exportKey := exportRecord
  importKey := importRecord
  string
    | .string s => s
    | value => Json.stringify value
  normalize := fun s => s
  validateMnemonic := fun s => s = SAMPLE_PHRASE
  mnemonicToSeed _ := Octets.zero 64

theorem ideal_recordCrypto : recordCrypto.Ideal where
  pbkdf2_congr salt iterations h :=
    congrArg (fun k => some (sized k ++ (sized salt ++ toLeb iterations))) h
  pbkdf2_inj h h' := (sized_append_inj (Option.some.inj (h.trans h'.symm))).1
  pbkdf2_isSome _ _ := rfl
  aesGcm := ideal_recordAead 16
  importKey_exportKey := ofBase64Url_base64Url
  exportKey_plain key := by
    have hkeys : (["alg", "ext", "k", "key_ops", "kty"] : List Utf16).Nodup := by decide
    have hops : Json.Plain (.array [.string "encrypt", .string "decrypt"]) := by
      refine .array ?_
      simp only [List.forall_mem_cons]
      exact ⟨.string _, .string _, List.forall_mem_nil _⟩
    refine .object hkeys ?_
    simp only [List.forall_mem_cons]
    exact ⟨.string _, .bool true, .string _, hops, .string _, List.forall_mem_nil _⟩
  string_string _ := rfl
  normalize_ascii _ := rfl
  ascii_of_valid h := by
    rw [of_decide_eq_true h]
    decide

theorem valid_SAMPLE_PHRASE :
    recordCrypto.validateMnemonic (recordCrypto.normalize SAMPLE_PHRASE) = true :=
  decide_eq_true (rfl : SAMPLE_PHRASE = SAMPLE_PHRASE)

end WarrenSdk.Core.Vault
