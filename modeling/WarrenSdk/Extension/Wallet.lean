import WarrenSdk.Core.Identity.Vault
import WarrenSdk.Extension.Keyring
import WarrenSdk.Lib.JsonForm

/-!
# The wallet and who opens it (`keyring.ts` over `identity/vault.ts`)

The keyring over the cryptography of the vault. Its service worker is killed at any time, which
loses the phrase and the calls in flight, and the browser is closed, which loses the cached key too.
Whatever is unlocked then was sealed under a password that was given to the wallet
(`unlocked_sealed`), and a vault of which no key is cached is opened by its own password and by no
other (`unlocks_iff`).
-/

namespace WarrenSdk.Extension.Keyring.Wallet
open Lib Core.Vault

/-! ## The texts -/

/-- `JSON.parse(blob).kdf`, whose salt may be left out, and whose iterations then are the
default. -/
def readKdf (blob : Utf16) : Option Kdf := do
  let parsed ← Json.parse blob
  let kdf ← Core.Vault.property "kdf" parsed
  if kdf matches .null then none
  let salt ← match Core.Vault.property "salt" kdf with
    | none => some []
    | some (.string salt) => some salt
    | some _ => none
  let iterations ← match Core.Vault.property "iterations" kdf with
    | none => some VAULT_ITERATIONS
    | some value => value.nat?
  return { salt, iterations }

def cachedKey (jwk : Option Json) : Utf16 := Json.stringify (Json.ofFields [("jwk", jwk)])

/-- `JSON.parse(cachedJson).jwk` -/
def readCachedKey (cachedJson : Utf16) : Option (Option Json) :=
  match Json.parse cachedJson with
  | none | some .null => none
  | some cached => some (Core.Vault.property "jwk" cached)

section
variable (C : Crypto)

def IsValid (mnemonic : Utf16) : Prop := C.validateMnemonic (C.normalize mnemonic) = true

def texts : Texts (Option Json) where
  validMnemonic mnemonic := C.validateMnemonic (C.normalize mnemonic)
  kdf := readKdf
  cachedKey := cachedKey
  jwk := readCachedKey

abbrev WalletState := State Bytes (Option Json)

inductive WalletEvent
  | keyring (event : Event Bytes (Option Json))
  /-- The browser stops the service worker. What it asked of the areas is done. -/
  | killed
  /-- The browser is closed, and with it `storage.session`. -/
  | closed

def step (s : WalletState) : WalletEvent → Option WalletState
  | .keyring event => Keyring.step (texts C) s event
  | .killed => some { disk := s.disk, session := s.session }
  | .closed => some { disk := s.disk, session := fun _ => none }

/-! ## What a wallet is given -/

structure Inputs where
  /-- A password that is given to `unlock`. -/
  typed : Utf16 → Prop
  /-- A phrase that is created or imported, with its password. -/
  stored : Utf16 → Utf16 → Prop
  /-- The phrase and the password of the vault that was there before. -/
  before : Utf16 → Utf16 → Prop

variable (I : Inputs)

def Inputs.given (password : Utf16) : Prop :=
  I.typed password ∨ ∃ mnemonic, I.stored mnemonic password

def Inputs.sealed (mnemonic password : Utf16) : Prop :=
  I.stored mnemonic password ∨ I.before mnemonic password

/-- The calls give the wallet its inputs, `generateMnemonic` draws valid phrases, and what the
cryptography answers it computed. It may always fail. -/
def Honest (s : WalletState) : WalletEvent → Prop
  | .keyring (.call (.create mnemonic password)) => I.stored mnemonic password ∧ IsValid C mnemonic
  | .keyring (.call (.import mnemonic password)) => I.stored mnemonic password
  | .keyring (.call (.unlock password)) => I.typed password
  | .keyring (.encrypted t (.ok blob)) => ∀ mnemonic password answer,
    s.calls t = some (.encrypting mnemonic password answer) →
      ∃ salt iv, encryptMnemonic C salt iv mnemonic password = some blob
  | .keyring (.derived t (.ok key)) => ∀ password kdf purpose,
    s.calls t = some (.deriving password kdf purpose) →
      ∃ drawn derived, deriveVaultKey C drawn password (some kdf.salt) kdf.iterations =
        some derived ∧
        derived.key = key
  | .keyring (.exported t (.ok jwk)) => ∀ key purpose,
    s.calls t = some (.exporting key purpose) → jwk = some (C.exportKey key)
  | .keyring (.imported t (.ok key)) => ∀ jwk blob,
    s.calls t = some (.importing jwk blob) → C.importKey jwk = some key
  | .keyring (.decrypted t (.ok phrase)) => ∀ blob key,
    s.calls t = some (.decrypting blob key) ∨ s.calls t = some (.rehydrating blob key) →
      decryptMnemonic C blob key = .ok phrase
  | _ => True

/-! ## What a wallet holds -/

/-- A vault of a phrase that was sealed. -/
def IsVault (blob : Utf16) : Prop :=
  ∃ salt iv mnemonic password, I.sealed mnemonic password ∧ IsValid C mnemonic ∧
    encryptMnemonic C salt iv mnemonic password = some blob

/-- A key of a password that was given. -/
def IsKey (key : Bytes) : Prop :=
  ∃ password salt iterations, I.given password ∧
    C.pbkdf2 (Utf16.utf8 password) salt iterations = some key

def IsCached (cachedJson : Utf16) : Prop :=
  ∃ key, IsKey C I key ∧ cachedJson = cachedKey (some (C.exportKey key))

/-- A phrase of the seed that was sealed under a password that was given. -/
def IsOpen (phrase : Utf16) : Prop :=
  ∃ mnemonic password typed, I.sealed mnemonic password ∧ I.given typed ∧
    SamePassword C typed password ∧ seedFromMnemonic C phrase = seedFromMnemonic C mnemonic

def GoodPurpose : Purpose → Prop
  | .store mnemonic _ => IsOpen C I mnemonic
  | .unlock blob => IsVault C I blob

/-- What a call carries over an await. -/
def Good : Await Bytes (Option Json) → Prop
  | .encrypting mnemonic password _ | .storingVault mnemonic password _ _ =>
    I.stored mnemonic password ∧ IsValid C mnemonic
  | .requiringVault password blob => I.typed password ∧ ∀ b ∈ blob, IsVault C I b
  | .deriving password _ purpose => I.given password ∧ GoodPurpose C I purpose
  | .decrypting blob key | .rehydrating blob key => IsVault C I blob ∧ IsKey C I key
  | .exporting key purpose => IsKey C I key ∧ GoodPurpose C I purpose
  | .caching purpose => GoodPurpose C I purpose
  | .readingCache cachedJson => ∀ c ∈ cachedJson, IsCached C I c
  | .readingVault cachedJson blob => (∀ c ∈ cachedJson, IsCached C I c) ∧ ∀ b ∈ blob, IsVault C I b
  | .importing jwk blob => (∃ key, IsKey C I key ∧ jwk = some (C.exportKey key)) ∧ IsVault C I blob
  | .forgetting | .removingKey | .removingVault => True

structure Sound (s : WalletState) : Prop where
  disk : ∀ blob ∈ s.disk VAULT_KEY, IsVault C I blob
  session : ∀ cachedJson ∈ s.session SESSION_KEY, IsCached C I cachedJson
  mnemonic : ∀ phrase ∈ s.mnemonic, IsOpen C I phrase
  calls : ∀ t, ∀ a ∈ s.calls t, Good C I a

end

variable {C : Crypto} {I : Inputs} {s u : WalletState}

theorem isOpen_of_stored (h : I.stored mnemonic password) : IsOpen C I mnemonic :=
  ⟨mnemonic, password, password, .inl h, .inr ⟨mnemonic, h⟩, rfl, rfl⟩

theorem IsVault.open (hC : C.Ideal) (h : IsVault C I blob) (hkey : IsKey C I key)
    (hopen : decryptMnemonic C blob key = .ok phrase) : IsOpen C I phrase := by
  obtain ⟨salt, iv, mnemonic, password, hsealed, hvalid, hblob⟩ := h
  obtain ⟨typed, salt', iterations, hgiven, hderived⟩ := hkey
  refine ⟨mnemonic, password, typed, hsealed, hgiven, ?_, ?_⟩
  · exact samePassword_of_decrypt hC hblob hvalid hderived hopen
  · rw [((decryptMnemonic_eq_ok hC hblob hvalid).mp hopen).2]
    exact seedFromMnemonic_normalize hC hvalid

theorem isKey_of_derived {password : Utf16} (hgiven : I.given password)
    (h : deriveVaultKey C drawn password saltB64 iterations = some derived) :
    IsKey C I derived.key := by
  unfold deriveVaultKey at h
  obtain ⟨salt, -, hrest⟩ := Option.bind_eq_some_iff.mp h
  obtain ⟨key, hkey, hd⟩ := Option.bind_eq_some_iff.mp hrest
  cases hd
  exact ⟨password, salt, iterations, hgiven, hkey⟩

/-- A cached key is read as it was exported. -/
theorem readCachedKey_cachedKey (hC : C.Ideal) (key : Bytes) :
    readCachedKey (cachedKey (some (C.exportKey key))) = some (some (C.exportKey key)) := by
  have hplain : Json.Plain (Json.ofFields [("jwk", some (C.exportKey key))]) := by
    have hkeys : ["jwk"].Nodup := List.nodup_singleton _
    exact Json.plain_ofFields hkeys rfl
      (.cons (Json.plain_some (hC.exportKey_plain key)) .nil)
  rw [readCachedKey, cachedKey, Json.parse_stringify hplain]
  rfl

/-! ## What a step keeps -/

theorem forall_mem_set {P : Utf16 → Prop} (key : Utf16) (area : StorageArea) (h : P value) :
    ∀ v ∈ area.set key value key, P v := by
  rw [StorageArea.set, Function.update_self]
  intro v hv
  cases hv
  exact h

theorem forall_mem_remove {P : Utf16 → Prop} (key : Utf16) (area : StorageArea) :
    ∀ v ∈ area.remove key key, P v := by
  rw [StorageArea.remove_self]
  intro v hv
  cases hv

namespace Sound

theorem wake (h : Sound C I s) (t : Nat) : Sound C I (s.wake t) where
  disk := h.disk
  session := h.session
  mnemonic := h.mnemonic
  calls := by
    intro v a ha
    by_cases hv : v = t
    · subst hv
      rw [State.calls_wake] at ha
      cases ha
    · exact h.calls v a ((Function.update_of_ne hv ..).symm.trans ha)

theorem suspend (h : Sound C I s) (t : Nat) (ha : Good C I a) : Sound C I (s.suspend t a) where
  disk := h.disk
  session := h.session
  mnemonic := h.mnemonic
  calls := by
    intro v b hb
    by_cases hv : v = t
    · subst hv
      cases (Function.update_self ..).symm.trans hb
      exact ha
    · exact h.calls v b ((Function.update_of_ne hv ..).symm.trans hb)

theorem settle (h : Sound C I s) (t : Nat) (result : Except Failure Answer) :
    Sound C I (s.settle t result) :=
  ⟨h.disk, h.session, h.mnemonic, h.calls⟩

theorem unlocked (h : Sound C I s) (hphrase : IsOpen C I phrase) :
    Sound C I { s with mnemonic := some phrase } where
  disk := h.disk
  session := h.session
  mnemonic := by
    intro _ hm
    cases hm
    exact hphrase
  calls := h.calls

theorem forgotten (h : Sound C I s) :
    Sound C I { s with session := s.session.remove SESSION_KEY } where
  disk := h.disk
  session := forall_mem_remove SESSION_KEY s.session
  mnemonic := h.mnemonic
  calls := h.calls

theorem lock (h : Sound C I s) : Sound C I s.lock :=
  ⟨h.disk, h.forgotten.session, fun _ hm => (by cases hm), h.calls⟩

theorem start (h : Sound C I s) (t : Nat) (call : Call)
    (ho : Honest C I s (.keyring (.call call))) : Sound C I (s.start (texts C) t call) := by
  cases call with
  | create mnemonic password => exact h.suspend t ho
  | «import» mnemonic password =>
    rw [State.start]
    split
    next hvalid => exact h.suspend t ⟨ho, hvalid⟩
    next => exact h.settle t _
  | unlock password => exact h.suspend t ⟨ho, h.disk⟩
  | rehydrate => exact h.suspend t h.session
  | lock => exact h.lock.settle t _
  | destroy => exact h.lock.suspend t trivial

theorem forget (h : Sound C I s) (t : Nat) : Sound C I (s.forget t) := h.forgotten.suspend t trivial

theorem stored (h : Sound C I s) (hblob : IsVault C I blob) :
    Sound C I { s with disk := s.disk.set VAULT_KEY blob } where
  disk := forall_mem_set VAULT_KEY s.disk hblob
  session := h.session
  mnemonic := h.mnemonic
  calls := h.calls

theorem cached (h : Sound C I s) (hcached : IsCached C I cachedJson) :
    Sound C I { s with session := s.session.set SESSION_KEY cachedJson } where
  disk := h.disk
  session := forall_mem_set SESSION_KEY s.session hcached
  mnemonic := h.mnemonic
  calls := h.calls

theorem deriveVaultKey (h : Sound C I s) (t : Nat) (hgiven : I.given password)
    (hpurpose : GoodPurpose C I purpose) :
    Sound C I (s.deriveVaultKey (texts C) t password blob purpose) := by
  rw [State.deriveVaultKey]
  split
  next => exact h.settle t _
  next => exact h.suspend t ⟨hgiven, hpurpose⟩

theorem vaultRead {blob : Option Utf16} (h : Sound C I s) (t : Nat) (htyped : I.typed password)
    (hblob : ∀ b ∈ blob, IsVault C I b) : Sound C I (s.vaultRead (texts C) t password blob) := by
  unfold State.vaultRead
  split
  next => exact h.settle t _
  next => exact h.settle t _
  next b _ => exact h.deriveVaultKey t (.inl htyped) (hblob b rfl)

theorem cacheRead {cachedJson blob : Option Utf16} (hC : C.Ideal) (h : Sound C I s) (t : Nat)
    (hcached : ∀ c ∈ cachedJson, IsCached C I c) (hblob : ∀ b ∈ blob, IsVault C I b) :
    Sound C I (s.cacheRead (texts C) t cachedJson blob) := by
  unfold State.cacheRead
  split
  case h_5 c b _ _ =>
    obtain ⟨key, hkey, rfl⟩ := hcached c rfl
    have hread : (texts C).jwk (cachedKey (some (C.exportKey key))) =
        some (some (C.exportKey key)) :=
      readCachedKey_cachedKey hC key
    rw [hread]
    exact h.suspend t ⟨⟨key, hkey, rfl⟩, hblob b rfl⟩
  all_goals exact h.settle t _

end Sound

theorem sound_encrypted (hs : Sound C I s) (ho : Honest C I s (.keyring (.encrypted t answer)))
    (h : step C s (.keyring (.encrypted t answer)) = some u) : Sound C I u := by
  simp only [step, Keyring.step] at h
  split at h
  next mnemonic password _ hcall =>
    cases h
    obtain ⟨hstored, hvalid⟩ := hs.calls t _ hcall
    cases answer with
    | error e => exact (hs.wake t).settle t _
    | ok blob =>
      obtain ⟨salt, iv, hblob⟩ := ho _ _ _ hcall
      have hvault : IsVault C I blob :=
        ⟨salt, iv, mnemonic, password, .inl hstored, hvalid, hblob⟩
      exact ((hs.wake t).stored hvault).suspend t ⟨hstored, hvalid⟩
  next => cases h

theorem sound_derived (hs : Sound C I s) (ho : Honest C I s (.keyring (.derived t answer)))
    (h : step C s (.keyring (.derived t answer)) = some u) : Sound C I u := by
  simp only [step, Keyring.step] at h
  split at h
  next password kdf purpose hcall =>
    cases h
    obtain ⟨hgiven, hpurpose⟩ := hs.calls t _ hcall
    cases answer with
    | error e => exact (hs.wake t).settle t _
    | ok key =>
      obtain ⟨drawn, derived, hderived, rfl⟩ := ho _ _ _ hcall
      have hkey := isKey_of_derived hgiven hderived
      cases purpose with
      | store mnemonic answer => exact (hs.wake t).suspend t ⟨hkey, hpurpose⟩
      | unlock blob => exact (hs.wake t).suspend t ⟨hpurpose, hkey⟩
  next => cases h

theorem sound_exported (hs : Sound C I s) (ho : Honest C I s (.keyring (.exported t answer)))
    (h : step C s (.keyring (.exported t answer)) = some u) : Sound C I u := by
  simp only [step, Keyring.step] at h
  split at h
  next key purpose hcall =>
    cases h
    obtain ⟨hkey, hpurpose⟩ := hs.calls t _ hcall
    cases answer with
    | error e => exact (hs.wake t).settle t _
    | ok jwk =>
      have hjwk := ho _ _ hcall
      subst hjwk
      exact ((hs.wake t).cached ⟨key, hkey, rfl⟩).suspend t hpurpose
  next => cases h

theorem sound_imported (hC : C.Ideal) (hs : Sound C I s)
    (ho : Honest C I s (.keyring (.imported t answer)))
    (h : step C s (.keyring (.imported t answer)) = some u) : Sound C I u := by
  simp only [step, Keyring.step] at h
  split at h
  next jwk blob hcall =>
    cases h
    obtain ⟨⟨key, hkey, rfl⟩, hvault⟩ := hs.calls t _ hcall
    cases answer with
    | error e => exact (hs.wake t).forget t
    | ok key' =>
      have hback := (ho _ _ hcall).symm.trans (hC.importKey_exportKey key)
      cases hback
      exact (hs.wake t).suspend t ⟨hvault, hkey⟩
  next => cases h

theorem sound_decrypted (hC : C.Ideal) (hs : Sound C I s)
    (ho : Honest C I s (.keyring (.decrypted t answer)))
    (h : step C s (.keyring (.decrypted t answer)) = some u) : Sound C I u := by
  simp only [step, Keyring.step] at h
  split at h
  next blob key hcall =>
    cases h
    obtain ⟨hvault, hkey⟩ := hs.calls t _ hcall
    cases answer with
    | error e => exact (hs.wake t).settle t _
    | ok phrase =>
      have hopen := hvault.open hC hkey (ho _ _ (.inl hcall))
      exact ((hs.wake t).unlocked hopen).suspend t ⟨hkey, hvault⟩
  next blob key hcall =>
    cases h
    obtain ⟨hvault, hkey⟩ := hs.calls t _ hcall
    cases answer with
    | error e => exact (hs.wake t).forget t
    | ok phrase =>
      have hopen := hvault.open hC hkey (ho _ _ (.inr hcall))
      exact ((hs.wake t).unlocked hopen).settle t _
  next => cases h

/-- A call goes on from an operation of its storage. -/
theorem sound_served (hC : C.Ideal) (hs : Sound C I s)
    (h : step C s (.keyring (.served t)) = some u) : Sound C I u := by
  have hwake := hs.wake t
  simp only [step, Keyring.step] at h
  split at h
  next mnemonic password blob answer hcall =>
    cases h
    obtain ⟨hstored, -⟩ := hs.calls t _ hcall
    exact hwake.deriveVaultKey t (.inr ⟨mnemonic, hstored⟩) (isOpen_of_stored hstored)
  next password blob hcall =>
    cases h
    obtain ⟨htyped, hblob⟩ := hs.calls t _ hcall
    exact hwake.vaultRead t htyped hblob
  next purpose hcall =>
    cases h
    have hpurpose := hs.calls t _ hcall
    cases purpose with
    | store mnemonic answer => exact (hwake.unlocked hpurpose).settle t _
    | unlock blob => exact hwake.settle t _
  next cachedJson hcall =>
    cases h
    exact hwake.suspend t ⟨hs.calls t _ hcall, hs.disk⟩
  next cachedJson blob hcall =>
    cases h
    obtain ⟨hcached, hblob⟩ := hs.calls t _ hcall
    exact hwake.cacheRead hC t hcached hblob
  next =>
    cases h
    exact hwake.settle t _
  next =>
    -- a `destroy` removes the vault
    cases h
    have hremoved : Sound C I { s with disk := s.disk.remove VAULT_KEY } :=
      ⟨forall_mem_remove VAULT_KEY s.disk, hs.session, hs.mnemonic, hs.calls⟩
    exact hremoved.suspend t trivial
  next =>
    cases h
    exact hwake.settle t _
  next => cases h

theorem sound_step (hC : C.Ideal) (hs : Sound C I s) (ho : Honest C I s e)
    (h : step C s e = some u) : Sound C I u := by
  cases e with
  | killed =>
    cases h
    exact ⟨hs.disk, hs.session, fun _ hm => (by cases hm), fun _ _ ha => (by cases ha)⟩
  | closed =>
    cases h
    exact ⟨hs.disk, fun _ hc => (by cases hc), fun _ hm => (by cases hm),
      fun _ _ ha => (by cases ha)⟩
  | keyring e =>
    cases e with
    | call call =>
      cases h
      have hnext : Sound C I { s with nextCall := s.nextCall + 1, last := some call } :=
        ⟨hs.disk, hs.session, hs.mnemonic, hs.calls⟩
      exact hnext.start _ call (by cases call <;> exact ho)
    | encrypted t answer => exact sound_encrypted hs ho h
    | derived t answer => exact sound_derived hs ho h
    | exported t answer => exact sound_exported hs ho h
    | imported t answer => exact sound_imported hC hs ho h
    | decrypted t answer => exact sound_decrypted hC hs ho h
    | served t => exact sound_served hC hs h

/-! ## Who opens a wallet -/

theorem sound_start {disk session : StorageArea} (hdisk : ∀ blob ∈ disk VAULT_KEY, IsVault C I blob)
    (hsession : session SESSION_KEY = none) : Sound C I { disk, session } where
  disk := hdisk
  session := by
    intro cachedJson hc
    cases hsession.symm.trans hc
  mnemonic := fun _ hm => by cases hm
  calls := fun _ _ ha => by cases ha

theorem saltFrom_toB64 (drawn salt : Octets 32) :
    saltFrom drawn (some (toB64 salt.1)) = some salt.1 := by
  have hne : toB64 salt.1 ≠ [] := toB64_ne_nil (by rw [salt.2]; decide)
  obtain ⟨u, rest, hb64⟩ := List.exists_cons_of_ne_nil hne
  have hback := fromB64_toB64 salt.1
  rw [hb64] at hback ⊢
  exact hback

theorem readKdf_sealed (h : Sealed C salt iv mnemonic password blob key) :
    readKdf blob = some { salt := toB64 salt.1, iterations := VAULT_ITERATIONS } := by
  rw [readKdf, h.parses]
  rfl

section
variable {typed : Utf16 → Prop} {disk session : StorageArea}

/-- Passwords are entered, and nothing is stored. -/
def entering (typed : Utf16 → Prop) (mnemonic password : Utf16) : Inputs where
  typed := typed
  stored := fun _ _ => False
  before := fun m p => m = mnemonic ∧ p = password

/-- `unlock` with a password of the vault, up to where the phrase is in memory. -/
theorem exists_unlock (hC : C.Ideal) (hvalid : IsValid C mnemonic)
    (hblob : encryptMnemonic C salt iv mnemonic password = some blob)
    (hdisk : disk VAULT_KEY = some blob) (hentered : I.typed entered)
    (hsame : SamePassword C entered password) :
    ∃ s, Run (step C) (Honest C I) { disk, session } s ∧
      s.mnemonic = some (C.normalize mnemonic) := by
  obtain ⟨key, hsealed⟩ := exists_sealed hblob
  have hderives : C.pbkdf2 (Utf16.utf8 entered) salt.1 VAULT_ITERATIONS = some key :=
    (hC.pbkdf2_congr salt.1 VAULT_ITERATIONS hsame).trans hsealed.derives
  have hopen : decryptMnemonic C blob key = .ok (C.normalize mnemonic) :=
    (decryptMnemonic_eq_ok hC hblob hvalid).mpr ⟨hsealed.derives, rfl⟩
  have hne : blob ≠ [] := by
    rintro rfl
    have hparses := hsealed.parses
    cases hparses
  let kdf : Kdf := { salt := toB64 salt.1, iterations := VAULT_ITERATIONS }
  let s₀ : WalletState := { disk, session, nextCall := 1, last := some (.unlock entered) }
  let s₁ : WalletState := s₀.suspend 0 (.requiringVault entered (disk VAULT_KEY))
  let s₂ : WalletState := (s₁.wake 0).suspend 0 (.deriving entered kdf (.unlock blob))
  let s₃ : WalletState := (s₂.wake 0).suspend 0 (.decrypting blob key)
  have hkdf : (texts C).kdf blob = some kdf := readKdf_sealed hsealed
  have hread : (s₁.wake 0).vaultRead (texts C) 0 entered (disk VAULT_KEY) = s₂ := by
    rw [hdisk, State.vaultRead, State.deriveVaultKey, hkdf]
    exact hne
  have hderived : deriveVaultKey C salt entered (some kdf.salt) kdf.iterations =
      some { key, saltB64 := toB64 salt.1, iterations := VAULT_ITERATIONS } := by
    rw [deriveVaultKey, saltFrom_toB64, Option.bind_eq_bind, Option.bind_some]
    exact congrArg (Option.bind · _) hderives
  have hcalls₂ : s₂.calls 0 = some (.deriving entered kdf (.unlock blob)) := rfl
  have hcalls₃ : s₃.calls 0 = some (.decrypting blob key) := rfl
  have ho₁ : Honest C I { disk, session } (.keyring (.call (.unlock entered))) := hentered
  have ho₂ : Honest C I s₁ (.keyring (.served 0)) := trivial
  have ho₃ : Honest C I s₂ (.keyring (.derived 0 (.ok key))) := by
    intro _ _ _ hcall
    cases hcalls₂.symm.trans hcall
    exact ⟨salt, _, hderived, rfl⟩
  have ho₄ : Honest C I s₃ (.keyring (.decrypted 0 (.ok (C.normalize mnemonic)))) := by
    intro _ _ hcall
    rcases hcall with hcall | hcall
    · cases hcalls₃.symm.trans hcall
      exact hopen
    · cases hcalls₃.symm.trans hcall
  have h₁ : Run (step C) (Honest C I) { disk, session } s₁ := .single ho₁ rfl
  have h₂ : Run (step C) (Honest C I) { disk, session } s₂ :=
    h₁.tail ho₂ (congrArg some hread)
  have h₃ : Run (step C) (Honest C I) { disk, session } s₃ := h₂.tail ho₃ rfl
  exact ⟨_, h₃.tail ho₄ rfl, rfl⟩

/-- A disk with a vault of the sample phrase. -/
theorem exists_sampleDisk : ∃ (disk : StorageArea) (blob : Utf16), disk VAULT_KEY = some blob ∧
    encryptMnemonic recordCrypto (Octets.zero 32) (Octets.zero 16) SAMPLE_PHRASE "correct horse" =
      some blob := by
  obtain ⟨blob, hblob⟩ := exists_encryptMnemonic ideal_recordCrypto (Octets.zero 32)
    (Octets.zero 16)
    SAMPLE_PHRASE "correct horse"
  exact ⟨StorageArea.set VAULT_KEY blob fun _ => none, blob, Function.update_self .., hblob⟩

theorem isVault_entering (hvalid : IsValid C mnemonic)
    (hblob : encryptMnemonic C salt iv mnemonic password = some blob)
    (hdisk : disk VAULT_KEY = some blob) :
    ∀ b ∈ disk VAULT_KEY, IsVault C (entering typed mnemonic password) b := by
  intro b hb
  cases hdisk.symm.trans hb
  exact ⟨salt, iv, mnemonic, password, .inr ⟨rfl, rfl⟩, hvalid, hblob⟩

/-- In every run of a wallet that starts with no key cached, whatever the order in which its calls
go on, and however often the worker is killed and the browser closed: a phrase that is handed out
has the seed of one that was sealed under a password which was given, and what is on disk is a
vault. -/
theorem unlocked_sealed (hC : C.Ideal)
    (hdisk : ∀ blob ∈ disk VAULT_KEY, IsVault C I blob) (hsession : session SESSION_KEY = none)
    (h : Run (step C) (Honest C I) { disk, session } s) :
    (∀ phrase, s.getMnemonic = .ok phrase →
        ∃ mnemonic password typed, I.sealed mnemonic password ∧ I.given typed ∧
          SamePassword C typed password ∧ seedFromMnemonic C phrase = seedFromMnemonic C mnemonic) ∧
      ∀ blob ∈ s.disk VAULT_KEY, IsVault C I blob := by
  have hs : Sound C I s :=
    h.invariant (fun hs ho hstep => sound_step hC hs ho hstep) (sound_start hdisk hsession)
  refine ⟨fun phrase hphrase => hs.mnemonic phrase ?_, hs.disk⟩
  unfold State.getMnemonic at hphrase
  split at hphrase
  next => cases hphrase
  next mnemonic hm =>
    cases hphrase
    exact hm

/-- A wallet is unlocked with its password. -/
theorem unlocked_sealed_sample :
    let I := entering (· = "correct horse") SAMPLE_PHRASE "correct horse"
    ∃ (disk : StorageArea) (s : WalletState),
      Run (step recordCrypto) (Honest recordCrypto I) { disk, session := fun _ => none } s ∧
        s.getMnemonic = .ok SAMPLE_PHRASE ∧
            ∀ blob ∈ s.disk VAULT_KEY, IsVault recordCrypto I blob := by
  obtain ⟨disk, blob, hdisk, hblob⟩ := exists_sampleDisk
  obtain ⟨s, h, hm⟩ := exists_unlock
    (I := entering (· = "correct horse") SAMPLE_PHRASE "correct horse")
    ideal_recordCrypto valid_SAMPLE_PHRASE hblob hdisk rfl rfl
  refine ⟨disk, s, h, ?_,
    (unlocked_sealed ideal_recordCrypto (isVault_entering valid_SAMPLE_PHRASE hblob hdisk) rfl h).2⟩
  rw [State.getMnemonic, hm]
  rfl

/-- A wallet of which no key is cached is unlocked in some run exactly when a password is entered
that is the one of its vault, as far as the derivation tells them apart. -/
theorem unlocks_iff (hC : C.Ideal) (hvalid : IsValid C mnemonic)
    (hblob : encryptMnemonic C salt iv mnemonic password = some blob)
    (hdisk : disk VAULT_KEY = some blob) (hsession : session SESSION_KEY = none) :
    (∃ s, Run (step C) (Honest C (entering typed mnemonic password)) { disk, session } s ∧
        s.isUnlocked = true) ↔
      ∃ entered, typed entered ∧ SamePassword C entered password := by
  constructor
  · intro ⟨s, h, hunlocked⟩
    obtain ⟨phrase, hphrase⟩ := Option.isSome_iff_exists.mp hunlocked
    have hget : s.getMnemonic = .ok phrase := by rw [State.getMnemonic, hphrase]
    obtain ⟨m, p, entered, hsealed, hgiven, hsame, -⟩ :=
      (unlocked_sealed hC (isVault_entering hvalid hblob hdisk) hsession h).1 phrase hget
    obtain hstored | ⟨rfl, rfl⟩ := hsealed
    · exact hstored.elim
    · obtain hentered | ⟨_, hstored⟩ := hgiven
      · exact ⟨entered, hentered, hsame⟩
      · exact hstored.elim
  · intro ⟨entered, hentered, hsame⟩
    obtain ⟨s, h, hm⟩ := exists_unlock (I := entering typed mnemonic password) hC hvalid hblob hdisk
      hentered hsame
    exact ⟨s, h, by rw [State.isUnlocked, hm]; rfl⟩

/-- Another password opens nothing. -/
theorem unlocks_iff_other :
    ∃ (disk : StorageArea) (blob : Utf16), disk VAULT_KEY = some blob ∧
      ¬ ∃ s, Run (step recordCrypto)
          (Honest recordCrypto (entering (· = "battery staple") SAMPLE_PHRASE "correct horse"))
          { disk, session := fun _ => none } s ∧ s.isUnlocked = true := by
  obtain ⟨disk, blob, hdisk, hblob⟩ := exists_sampleDisk
  refine ⟨disk, blob, hdisk, ?_⟩
  rw [unlocks_iff ideal_recordCrypto valid_SAMPLE_PHRASE hblob hdisk rfl]
  rintro ⟨entered, rfl, hsame⟩
  exact absurd hsame (by decide)

end

end WarrenSdk.Extension.Keyring.Wallet
