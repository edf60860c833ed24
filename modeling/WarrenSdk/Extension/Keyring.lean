import Mathlib.Logic.Function.Basic
import WarrenSdk.Lib.Run
import WarrenSdk.Lib.Utf16

/-!
# The wallet inside the extension (`keyring.ts`)

One keyring over its two storage areas, and its calls in flight. A call runs undisturbed from one of
its awaits to the next; an `Await` is where one is suspended, and `step` runs one event: a method
called, an answer of the vault's cryptography, or a call that goes on after a storage area served
it. An area serves its operations in the order it is asked, so each one is applied where it is
asked, whenever its promise settles.
-/

namespace WarrenSdk.Extension.Keyring
open Lib

def VAULT_KEY : Utf16 := Utf16.ofString "warren.vault"

def SESSION_KEY : Utf16 := Utf16.ofString "warren.sessionKey"

/-- A `KeyringStorageArea`, as what it holds. -/
abbrev StorageArea := Utf16 → Option Utf16

namespace StorageArea

def set (key value : Utf16) (area : StorageArea) : StorageArea :=
  Function.update area key (some value)

def remove (key : Utf16) (area : StorageArea) : StorageArea := Function.update area key none

@[simp] theorem remove_self (key : Utf16) (area : StorageArea) : area.remove key key = none :=
  Function.update_self ..

end StorageArea

inductive Failure
  | error (message : String)
  /-- Whatever a function of the core, or `JSON.parse`, threw. -/
  | thrown
deriving DecidableEq, Repr

/-- The parameters a vault records for its key. -/
structure Kdf where
  salt : Utf16
  iterations : Nat
deriving DecidableEq

/-- What a keyring reads and writes texts with. -/
structure Texts (Jwk : Type) where
  /-- Whether `seedFromMnemonic` takes the phrase. -/
  validMnemonic : Utf16 → Bool
  /-- `JSON.parse(blob).kdf`, `none` where that throws. -/
  kdf : Utf16 → Option Kdf
  /-- `JSON.stringify({ jwk })` -/
  cachedKey : Jwk → Utf16
  /-- `JSON.parse(cachedJson).jwk`, `none` where that throws. -/
  jwk : Utf16 → Option Jwk

inductive Call
  /-- With the phrase that `generateMnemonic` draws. -/
  | create (mnemonic password : Utf16)
  | «import» (mnemonic password : Utf16)
  | unlock (password : Utf16)
  | rehydrate
  | lock
  | destroy
deriving DecidableEq

/-- What a call resolves with. -/
inductive Answer
  | phrase (mnemonic : Utf16)
  | rehydrated (found : Bool)
  | done
deriving DecidableEq

/-- Who derives a key, with what it does once the key is cached. -/
inductive Purpose
  /-- `store`, which unlocks the keyring and answers the call. -/
  | store (mnemonic : Utf16) (answer : Answer)
  /-- `unlock` of the vault. -/
  | unlock (blob : Utf16)
deriving DecidableEq

/-- The awaits of the calls. -/
inductive Await (Key Jwk : Type)
  /-- At `encryptMnemonic`. -/
  | encrypting (mnemonic password : Utf16) (answer : Answer)
  /-- At `storage.local.set`. -/
  | storingVault (mnemonic password blob : Utf16) (answer : Answer)
  /-- At `storage.local.get` of `requireVault`, with what it reads. -/
  | requiringVault (password : Utf16) (blob : Option Utf16)
  /-- At `deriveVaultKey`. -/
  | deriving (password : Utf16) (kdf : Kdf) (purpose : Purpose)
  /-- At `decryptMnemonic` of `unlock`. -/
  | decrypting (blob : Utf16) (key : Key)
  /-- At `exportVaultKey`. -/
  | exporting (key : Key) (purpose : Purpose)
  /-- At `storage.session.set`. -/
  | caching (purpose : Purpose)
  /-- At `storage.session.get` of `rehydrate`, with what it reads. -/
  | readingCache (cachedJson : Option Utf16)
  /-- At `storage.local.get` of `rehydrate`, with what it reads. -/
  | readingVault (cachedJson blob : Option Utf16)
  /-- At `importVaultKey`. -/
  | importing (jwk : Jwk) (blob : Utf16)
  /-- At `decryptMnemonic` of `rehydrate`. -/
  | rehydrating (blob : Utf16) (key : Key)
  /-- At `storage.session.remove` of `rehydrate`. -/
  | forgetting
  /-- At `storage.session.remove` of `destroy`. -/
  | removingKey
  /-- At `storage.local.remove` of `destroy`. -/
  | removingVault

/-- A `WarrenKeyring` with its storage and its calls. -/
structure State (Key Jwk : Type) where
  /-- `storage.local` -/
  disk : StorageArea
  /-- `storage.session` -/
  session : StorageArea
  mnemonic : Option Utf16 := none
  calls : Nat → Option (Await Key Jwk) := fun _ => none
  nextCall : Nat := 0
  /-- The last call to start. -/
  last : Option Call := none
  /-- How the calls settled. -/
  settled : List (Nat × Except Failure Answer) := []

variable {Key Jwk : Type} (T : Texts Jwk)

namespace State

def isUnlocked (s : State Key Jwk) : Bool := s.mnemonic.isSome

def hasVault (s : State Key Jwk) : Bool := (s.disk VAULT_KEY).isSome

def suspend (t : Nat) (a : Await Key Jwk) (s : State Key Jwk) : State Key Jwk :=
  { s with calls := Function.update s.calls t (some a) }

def wake (t : Nat) (s : State Key Jwk) : State Key Jwk :=
  { s with calls := Function.update s.calls t none }

def settle (t : Nat) (result : Except Failure Answer) (s : State Key Jwk) : State Key Jwk :=
  { s with settled := s.settled ++ [(t, result)] }

/-- `store` up to its first await. -/
def store (t : Nat) (mnemonic password : Utf16) (answer : Answer) (s : State Key Jwk) :
    State Key Jwk :=
  s.suspend t (.encrypting mnemonic password answer)

def lock (s : State Key Jwk) : State Key Jwk :=
  { s with mnemonic := none, session := s.session.remove SESSION_KEY }

/-- A call up to its first await. -/
def start (t : Nat) (s : State Key Jwk) : Call → State Key Jwk
  | .create mnemonic password => s.store t mnemonic password (.phrase mnemonic)
  | .import mnemonic password =>
    if T.validMnemonic mnemonic then s.store t mnemonic password .done
    else s.settle t (.error .thrown)
  | .unlock password => s.suspend t (.requiringVault password (s.disk VAULT_KEY))
  | .rehydrate => s.suspend t (.readingCache (s.session SESSION_KEY))
  | .lock => s.lock.settle t (.ok .done)
  | .destroy =>
    { s with mnemonic := none, session := s.session.remove SESSION_KEY }.suspend t .removingKey

/-- `encryptMnemonic` answers `store`. -/
def encrypted (t : Nat) (mnemonic password : Utf16) (answer : Answer)
    (blob : Except Failure Utf16) (s : State Key Jwk) : State Key Jwk :=
  match blob with
  | .error e => s.settle t (.error e)
  | .ok blob =>
    { s with disk := s.disk.set VAULT_KEY blob }.suspend t
      (.storingVault mnemonic password blob answer)

/-- `deriveVaultKey` with the parameters of a vault. -/
def deriveVaultKey (t : Nat) (password blob : Utf16) (purpose : Purpose) (s : State Key Jwk) :
    State Key Jwk :=
  match T.kdf blob with
  | none => s.settle t (.error .thrown)
  | some kdf => s.suspend t (.deriving password kdf purpose)

/-- `unlock` with what `requireVault` read; an empty text is no vault. -/
def vaultRead (t : Nat) (password : Utf16) (blob : Option Utf16) (s : State Key Jwk) :
    State Key Jwk :=
  match blob with
  | none | some [] => s.settle t (.error (.error "no vault to unlock"))
  | some blob => s.deriveVaultKey T t password blob (.unlock blob)

/-- `deriveVaultKey` answers. -/
def derived (t : Nat) (purpose : Purpose) (key : Except Failure Key) (s : State Key Jwk) :
    State Key Jwk :=
  match key, purpose with
  | .error e, _ => s.settle t (.error e)
  | .ok key, .store mnemonic answer => s.suspend t (.exporting key (.store mnemonic answer))
  | .ok key, .unlock blob => s.suspend t (.decrypting blob key)

/-- `decryptMnemonic` answers `unlock`. -/
def decrypted (t : Nat) (blob : Utf16) (key : Key) (mnemonic : Except Failure Utf16)
    (s : State Key Jwk) : State Key Jwk :=
  match mnemonic with
  | .error e => s.settle t (.error e)
  | .ok mnemonic => { s with mnemonic := some mnemonic }.suspend t (.exporting key (.unlock blob))

/-- `exportVaultKey` answers `cacheKey`. -/
def exported (t : Nat) (purpose : Purpose) (jwk : Except Failure Jwk) (s : State Key Jwk) :
    State Key Jwk :=
  match jwk with
  | .error e => s.settle t (.error e)
  | .ok jwk =>
    { s with session := s.session.set SESSION_KEY (T.cachedKey jwk) }.suspend t (.caching purpose)

/-- The key is cached. -/
def cached (t : Nat) (purpose : Purpose) (s : State Key Jwk) : State Key Jwk :=
  match purpose with
  | .store mnemonic answer => { s with mnemonic := some mnemonic }.settle t (.ok answer)
  | .unlock _ => s.settle t (.ok .done)

/-- The `catch` of `rehydrate`. -/
def forget (t : Nat) (s : State Key Jwk) : State Key Jwk :=
  { s with session := s.session.remove SESSION_KEY }.suspend t .forgetting

/-- `rehydrate` with what the two areas held. -/
def cacheRead (t : Nat) (cachedJson blob : Option Utf16) (s : State Key Jwk) : State Key Jwk :=
  match cachedJson, blob with
  | none, _ | some [], _ | _, none | _, some [] => s.settle t (.ok (.rehydrated false))
  | some cachedJson, some blob =>
    match T.jwk cachedJson with
    | none => s.forget t
    | some jwk => s.suspend t (.importing jwk blob)

/-- `importVaultKey` answers `rehydrate`. -/
def imported (t : Nat) (blob : Utf16) (key : Except Failure Key) (s : State Key Jwk) :
    State Key Jwk :=
  match key with
  | .error _ => s.forget t
  | .ok key => s.suspend t (.rehydrating blob key)

/-- `decryptMnemonic` answers `rehydrate`. -/
def rehydrated (t : Nat) (mnemonic : Except Failure Utf16) (s : State Key Jwk) : State Key Jwk :=
  match mnemonic with
  | .error _ => s.forget t
  | .ok mnemonic => { s with mnemonic := some mnemonic }.settle t (.ok (.rehydrated true))

def getMnemonic (s : State Key Jwk) : Except Failure Utf16 :=
  match s.mnemonic with
  | none => .error (.error "keyring is locked")
  | some mnemonic => .ok mnemonic

end State

/-- What can happen next. -/
inductive Event (Key Jwk : Type)
  | call (call : Call)
  | encrypted (t : Nat) (blob : Except Failure Utf16)
  | derived (t : Nat) (key : Except Failure Key)
  | exported (t : Nat) (jwk : Except Failure Jwk)
  | imported (t : Nat) (key : Except Failure Key)
  | decrypted (t : Nat) (mnemonic : Except Failure Utf16)
  /-- The storage operation that a call waits for is done, and the call goes on. -/
  | served (t : Nat)

/-- One event in state `s`, `none` when no call waits for it. -/
def step (s : State Key Jwk) : Event Key Jwk → Option (State Key Jwk)
  | .call call =>
    some ({ s with nextCall := s.nextCall + 1, last := some call }.start T s.nextCall call)
  | .encrypted t blob =>
    match s.calls t with
    | some (.encrypting mnemonic password answer) =>
      some ((s.wake t).encrypted t mnemonic password answer blob)
    | _ => none
  | .derived t key =>
    match s.calls t with
    | some (.deriving _ _ purpose) => some ((s.wake t).derived t purpose key)
    | _ => none
  | .exported t jwk =>
    match s.calls t with
    | some (.exporting _ purpose) => some ((s.wake t).exported T t purpose jwk)
    | _ => none
  | .imported t key =>
    match s.calls t with
    | some (.importing _ blob) => some ((s.wake t).imported t blob key)
    | _ => none
  | .decrypted t mnemonic =>
    match s.calls t with
    | some (.decrypting blob key) => some ((s.wake t).decrypted t blob key mnemonic)
    | some (.rehydrating _ _) => some ((s.wake t).rehydrated t mnemonic)
    | _ => none
  | .served t =>
    match s.calls t with
    | some (.storingVault mnemonic password blob answer) =>
      some ((s.wake t).deriveVaultKey T t password blob (.store mnemonic answer))
    | some (.requiringVault password blob) => some ((s.wake t).vaultRead T t password blob)
    | some (.caching purpose) => some ((s.wake t).cached t purpose)
    | some (.readingCache cachedJson) =>
      some ((s.wake t).suspend t (.readingVault cachedJson (s.disk VAULT_KEY)))
    | some (.readingVault cachedJson blob) => some ((s.wake t).cacheRead T t cachedJson blob)
    | some .forgetting => some ((s.wake t).settle t (.ok (.rehydrated false)))
    | some .removingKey =>
      some ({ s with disk := s.disk.remove VAULT_KEY }.suspend t .removingVault)
    | some .removingVault => some ((s.wake t).settle t (.ok .done))
    | _ => none

/-! ## The last lock

`lock` and `destroy` clear the phrase and the cached key at once; what can undo them is a call that
was in flight when they started. -/

namespace State

/-- The last call to start was a `lock` or a `destroy`. -/
def Ended (s : State Key Jwk) : Prop := s.last = some .lock ∨ s.last = some .destroy

/-- No phrase in memory, and no key in the session area. -/
def Locked (s : State Key Jwk) : Prop := s.mnemonic = none ∧ s.session SESSION_KEY = none

/-- A `destroy` in flight still has to remove the vault. -/
def Erasing (s : State Key Jwk) : Prop := ∃ t, s.calls t = some .removingKey

/-- What the last `lock` or `destroy` is owed while calls are in flight. -/
structure Wiped (s : State Key Jwk) : Prop where
  locked : s.Ended → s.Locked
  erased : s.last = some .destroy → s.disk VAULT_KEY = none ∨ s.Erasing

/-- A change that reveals nothing: what is locked stays so, the vault and the calls of `destroy` are
as before. -/
structure Aside (s t : State Key Jwk) : Prop where
  last : t.last = s.last
  locked : s.Locked → t.Locked
  disk : t.disk = s.disk
  erasing : s.Erasing → t.Erasing

theorem Aside.trans {s t u : State Key Jwk} (h₁ : s.Aside t) (h₂ : t.Aside u) : s.Aside u where
  last := h₂.last.trans h₁.last
  locked := fun h => h₂.locked (h₁.locked h)
  disk := h₂.disk.trans h₁.disk
  erasing := fun h => h₂.erasing (h₁.erasing h)

theorem Aside.wiped {s t : State Key Jwk} (h : s.Aside t) (hs : s.Wiped) : t.Wiped where
  locked := by
    intro ht
    rw [Ended, h.last] at ht
    exact h.locked (hs.locked ht)
  erased := by
    intro ht
    rw [h.last] at ht
    rw [h.disk]
    exact (hs.erased ht).imp_right h.erasing

theorem wiped_of_not_ended {s : State Key Jwk} (h : ¬ s.Ended) : s.Wiped where
  locked := fun hs => absurd hs h
  erased := fun hs => absurd (.inr hs) h

theorem aside_wake {s : State Key Jwk} (h : s.calls t = some a) (ha : a ≠ .removingKey) :
    s.Aside (s.wake t) where
  last := rfl
  locked := id
  disk := rfl
  erasing := by
    intro ⟨u, hu⟩
    refine ⟨u, ?_⟩
    have hne : u ≠ t := by
      intro heq
      rw [heq, h] at hu
      exact ha (Option.some.inj hu)
    exact (Function.update_of_ne hne ..).trans hu

@[simp] theorem calls_wake (t : Nat) (s : State Key Jwk) : (s.wake t).calls t = none :=
  Function.update_self ..

theorem aside_suspend {s : State Key Jwk} (h : s.calls t = none) (a : Await Key Jwk) :
    s.Aside (s.suspend t a) where
  last := rfl
  locked := id
  disk := rfl
  erasing := by
    intro ⟨u, hu⟩
    refine ⟨u, ?_⟩
    have hne : u ≠ t := by
      intro heq
      rw [heq, h] at hu
      cases hu
    exact (Function.update_of_ne hne ..).trans hu

theorem aside_settle (t : Nat) (result : Except Failure Answer) (s : State Key Jwk) :
    s.Aside (s.settle t result) :=
  ⟨rfl, id, rfl, id⟩

theorem aside_forget {s : State Key Jwk} (h : s.calls t = none) : s.Aside (s.forget t) := by
  let removed := { s with session := s.session.remove SESSION_KEY }
  have hremoved : s.Aside removed :=
    ⟨rfl, fun hs => ⟨hs.1, StorageArea.remove_self SESSION_KEY s.session⟩, rfl, id⟩
  exact hremoved.trans (aside_suspend (s := removed) h _)

theorem aside_deriveVaultKey {s : State Key Jwk} (h : s.calls t = none)
    (password blob : Utf16) (purpose : Purpose) :
    s.Aside (s.deriveVaultKey T t password blob purpose) := by
  unfold deriveVaultKey
  split
  · exact aside_settle ..
  · exact aside_suspend h _

theorem aside_vaultRead {s : State Key Jwk} (h : s.calls t = none)
    (password : Utf16) (blob : Option Utf16) : s.Aside (s.vaultRead T t password blob) := by
  unfold vaultRead
  split
  · exact aside_settle ..
  · exact aside_settle ..
  · exact aside_deriveVaultKey T h ..

theorem aside_derived {s : State Key Jwk} (h : s.calls t = none)
    (purpose : Purpose) (key : Except Failure Key) : s.Aside (s.derived t purpose key) := by
  unfold derived
  split
  · exact aside_settle ..
  · exact aside_suspend h _
  · exact aside_suspend h _

theorem aside_cacheRead {s : State Key Jwk} (h : s.calls t = none)
    (cachedJson blob : Option Utf16) : s.Aside (s.cacheRead T t cachedJson blob) := by
  unfold cacheRead
  split
  case h_5 =>
    split
    · exact aside_forget h
    · exact aside_suspend h _
  all_goals exact aside_settle ..

theorem aside_imported {s : State Key Jwk} (h : s.calls t = none)
    (blob : Utf16) (key : Except Failure Key) : s.Aside (s.imported t blob key) := by
  unfold imported
  split
  · exact aside_forget h
  · exact aside_suspend h _

end State

/-- The events by which a call in flight reveals the phrase or a key: a decryption succeeds, a key
is exported to be cached, or `store` goes on from caching it. -/
def Reveals (s : State Key Jwk) : Event Key Jwk → Prop
  | .decrypted _ mnemonic => ∃ phrase, mnemonic = .ok phrase
  | .exported _ jwk => ∃ key, jwk = .ok key
  | .served t => ∃ mnemonic answer, s.calls t = some (.caching (.store mnemonic answer))
  | _ => False

/-- The events by which a call in flight writes a vault. -/
def Stores : Event Key Jwk → Prop
  | .encrypted _ blob => ∃ text, blob = .ok text
  | _ => False

/-- While the last call to start is a `lock` or a `destroy`, no call reveals anything, and once
every `destroy` went on to remove the vault, none writes one. -/
def Yields (s : State Key Jwk) (e : Event Key Jwk) : Prop :=
  (s.Ended → ¬ Reveals s e) ∧ (s.last = some .destroy → Stores e → s.Erasing)

theorem yields_of_not {s : State Key Jwk} (hr : ¬ Reveals s e) (hs : ¬ Stores e) : Yields s e :=
  ⟨fun _ => hr, fun _ h => absurd h hs⟩

namespace State

theorem locked_lock (s : State Key Jwk) : s.lock.Locked :=
  ⟨rfl, StorageArea.remove_self SESSION_KEY s.session⟩

/-- A call starts: `lock` and `destroy` clear what they own at once, but for the vault. -/
theorem wiped_start {s : State Key Jwk} (t : Nat) (h : s.last = some call) :
    (s.start T t call).Wiped := by
  cases call with
  | lock =>
    refine ⟨fun _ => locked_lock s, fun hlast => ?_⟩
    cases h.symm.trans hlast
  | destroy => exact ⟨fun _ => locked_lock s, fun _ => .inr ⟨t, Function.update_self ..⟩⟩
  | «import» mnemonic password =>
    refine wiped_of_not_ended fun hs => ?_
    rw [start] at hs
    split at hs
    · rcases hs with hs | hs <;> cases h.symm.trans hs
    · rcases hs with hs | hs <;> cases h.symm.trans hs
  | create _ _ | unlock _ | rehydrate =>
    refine wiped_of_not_ended fun hs => ?_
    rcases hs with hs | hs <;> cases h.symm.trans hs

/-- `store` writes its vault: the last `destroy`, if any, still has to remove it. -/
theorem wiped_encrypted {s : State Key Jwk} (hs : s.Wiped) (h : s.calls t = none)
    (mnemonic password : Utf16) (answer : Answer) (blob : Except Failure Utf16)
    (hy : s.last = some .destroy → (∃ text, blob = .ok text) → s.Erasing) :
    (s.encrypted t mnemonic password answer blob).Wiped := by
  unfold encrypted
  split
  next => exact (aside_settle ..).wiped hs
  next text =>
    refine ⟨fun hlast => hs.locked hlast, fun hlast => .inr ?_⟩
    exact (aside_suspend h (.storingVault mnemonic password text answer)).erasing
      (hy hlast ⟨text, rfl⟩)

theorem wiped_exported {s : State Key Jwk} (hs : s.Wiped)
    (purpose : Purpose) (jwk : Except Failure Jwk) (hy : s.Ended → ¬ ∃ key, jwk = .ok key) :
    (s.exported T t purpose jwk).Wiped := by
  unfold exported
  split
  next => exact (aside_settle ..).wiped hs
  next key => exact wiped_of_not_ended fun hlast => hy hlast ⟨key, rfl⟩

theorem wiped_decrypted {s : State Key Jwk} (hs : s.Wiped)
    (blob : Utf16) (key : Key) (mnemonic : Except Failure Utf16)
    (hy : s.Ended → ¬ ∃ phrase, mnemonic = .ok phrase) :
    (s.decrypted t blob key mnemonic).Wiped := by
  unfold decrypted
  split
  next => exact (aside_settle ..).wiped hs
  next phrase => exact wiped_of_not_ended fun hlast => hy hlast ⟨phrase, rfl⟩

theorem wiped_rehydrated {s : State Key Jwk} (hs : s.Wiped) (h : s.calls t = none)
    (mnemonic : Except Failure Utf16) (hy : s.Ended → ¬ ∃ phrase, mnemonic = .ok phrase) :
    (s.rehydrated t mnemonic).Wiped := by
  unfold rehydrated
  split
  next => exact (aside_forget h).wiped hs
  next phrase => exact wiped_of_not_ended fun hlast => hy hlast ⟨phrase, rfl⟩

theorem wiped_cached {s : State Key Jwk} (hs : s.Wiped) (purpose : Purpose)
    (hy : s.Ended → ∀ mnemonic answer, purpose ≠ .store mnemonic answer) :
    (s.cached t purpose).Wiped := by
  cases purpose with
  | store mnemonic answer => exact wiped_of_not_ended fun hlast => hy hlast mnemonic answer rfl
  | unlock blob => exact (aside_settle ..).wiped hs

end State

/-- The last `lock` or `destroy` keeps what it is owed at every step at which the calls in flight
yield to it. -/
theorem step_wiped {s : State Key Jwk} (hs : s.Wiped) (hy : Yields s e) (h : step T s e = some u) :
    u.Wiped := by
  cases e with
  | call call =>
    cases h
    exact State.wiped_start T _ rfl
  | encrypted t blob =>
    simp only [step] at h
    split at h
    next mnemonic password answer hcall =>
      cases h
      have hwake := State.aside_wake hcall nofun
      refine State.wiped_encrypted (hwake.wiped hs) (s.calls_wake t) _ _ _ _ ?_
      intro hlast hstores
      exact hwake.erasing (hy.2 hlast hstores)
    next => cases h
  | derived t key =>
    simp only [step] at h
    split at h
    next password kdf purpose hcall =>
      cases h
      have hwake := State.aside_wake hcall nofun
      exact (hwake.trans (State.aside_derived (s.calls_wake t) ..)).wiped hs
    next => cases h
  | exported t jwk =>
    simp only [step] at h
    split at h
    next key purpose hcall =>
      cases h
      exact State.wiped_exported T ((State.aside_wake hcall nofun).wiped hs) _ _ hy.1
    next => cases h
  | imported t key =>
    simp only [step] at h
    split at h
    next jwk blob hcall =>
      cases h
      have hwake := State.aside_wake hcall nofun
      exact (hwake.trans (State.aside_imported (s.calls_wake t) ..)).wiped hs
    next => cases h
  | decrypted t mnemonic =>
    simp only [step] at h
    split at h
    next blob key hcall =>
      cases h
      exact State.wiped_decrypted ((State.aside_wake hcall nofun).wiped hs) _ _ _ hy.1
    next blob key hcall =>
      cases h
      exact State.wiped_rehydrated ((State.aside_wake hcall nofun).wiped hs) (s.calls_wake t) _ hy.1
    next => cases h
  | served t =>
    have hfree := s.calls_wake t
    simp only [step] at h
    split at h
    next mnemonic password blob answer hcall =>
      cases h
      have hwake := State.aside_wake hcall nofun
      exact (hwake.trans (State.aside_deriveVaultKey T hfree ..)).wiped hs
    next password blob hcall =>
      cases h
      have hwake := State.aside_wake hcall nofun
      exact (hwake.trans (State.aside_vaultRead T hfree ..)).wiped hs
    next purpose hcall =>
      cases h
      refine State.wiped_cached ((State.aside_wake hcall nofun).wiped hs) _ ?_
      intro hlast mnemonic answer heq
      exact hy.1 hlast ⟨mnemonic, answer, heq ▸ hcall⟩
    next cachedJson hcall =>
      cases h
      have hwake := State.aside_wake hcall nofun
      exact (hwake.trans (State.aside_suspend hfree _)).wiped hs
    next cachedJson blob hcall =>
      cases h
      have hwake := State.aside_wake hcall nofun
      exact (hwake.trans (State.aside_cacheRead T hfree ..)).wiped hs
    next hcall =>
      cases h
      exact ((State.aside_wake hcall nofun).trans (State.aside_settle ..)).wiped hs
    next hcall =>
      -- a `destroy` removes the vault
      cases h
      exact ⟨hs.locked, fun _ => .inl (StorageArea.remove_self VAULT_KEY s.disk)⟩
    next hcall =>
      cases h
      exact ((State.aside_wake hcall nofun).trans (State.aside_settle ..)).wiped hs
    next => cases h

/-- A lock wins: in every run whose calls yield to it, once no call is in flight, a keyring whose
last call to start was a `lock` or a `destroy` is locked, with no key cached, and after a `destroy`
there is no vault. -/
theorem lock_wins {disk session : StorageArea}
    (h : Run (step T) Yields ({ disk, session } : State Key Jwk) s)
    (hquiet : ∀ t, s.calls t = none) :
    (s.last = some .lock ∨ s.last = some .destroy →
        s.isUnlocked = false ∧ s.session SESSION_KEY = none) ∧
      (s.last = some .destroy → s.hasVault = false) := by
  have hs : s.Wiped := by
    refine h.invariant (fun hs hy hstep => step_wiped T hs hy hstep) (State.wiped_of_not_ended ?_)
    intro hlast
    rcases hlast with hlast | hlast <;> cases hlast
  constructor
  · intro hlast
    obtain ⟨hmnemonic, hkey⟩ := hs.locked hlast
    refine ⟨?_, hkey⟩
    rw [State.isUnlocked, hmnemonic]
    rfl
  · intro hlast
    rcases hs.erased hlast with hvault | ⟨t, ht⟩
    · rw [State.hasVault, hvault]
      rfl
    · rw [hquiet t] at ht
      cases ht

/-- Texts whose vaults and keys all read back. -/
def plainTexts : Texts Utf16 where
  validMnemonic := fun _ => true
  kdf := fun _ => some ⟨[1], 900000⟩
  cachedKey := id
  jwk := some

/-- A keyring over a vault, with no key cached. -/
def withVault : State Unit Utf16 where
  disk := StorageArea.set VAULT_KEY [1] fun _ => none
  session := fun _ => none

/-- A `destroy` starts while an `unlock` with a wrong password is in flight. -/
theorem lock_wins_wrong_password :
    ∃ s, Run (step plainTexts) Yields withVault s ∧
      s.isUnlocked = false ∧ s.session SESSION_KEY = none ∧ s.hasVault = false := by
  have hrun : ∃ s, Run (step plainTexts) Yields withVault s ∧
      s.last = some .destroy ∧ ∀ t, s.calls t = none := by
    have h₁ : Run (step plainTexts) Yields withVault _ :=
      .single (e := .call (.unlock [2])) (yields_of_not nofun nofun) rfl
    have h₂ := h₁.tail (e := .served 0) (yields_of_not nofun nofun) rfl
    have h₃ := h₂.tail (e := .call .destroy) (yields_of_not nofun nofun) rfl
    have h₄ := h₃.tail (e := .derived 0 (.ok ())) (yields_of_not nofun nofun) rfl
    have h₅ := h₄.tail (e := .decrypted 0 (.error .thrown)) (yields_of_not nofun nofun) rfl
    have h₆ := h₅.tail (e := .served 1) (yields_of_not nofun nofun) rfl
    have h₇ := h₆.tail (e := .served 1) (yields_of_not nofun nofun) rfl
    refine ⟨_, h₇, rfl, fun t => ?_⟩
    match t with
    | 0 | 1 | n + 2 => rfl
  obtain ⟨s, h, hlast, hquiet⟩ := hrun
  obtain ⟨hlocked, hvault⟩ := lock_wins plainTexts h hquiet
  exact ⟨s, h, (hlocked (.inr hlast)).1, (hlocked (.inr hlast)).2, hvault hlast⟩

/-- An `unlock` is in flight when `lock` is called, and goes on. -/
theorem not_lock_wins_unlock :
    ¬ ∀ s, Run (step plainTexts) (fun _ _ => True) withVault s →
      (∀ t, s.calls t = none) → s.last = some .lock → s.isUnlocked = false := by
  intro hclaim
  have h₁ : Run (step plainTexts) (fun _ _ => True) withVault _ :=
    .single (e := .call (.unlock [2])) trivial rfl
  have h₂ := h₁.tail (e := .served 0) trivial rfl
  have h₃ := h₂.tail (e := .call .lock) trivial rfl
  have h₄ := h₃.tail (e := .derived 0 (.ok ())) trivial rfl
  have h₅ := h₄.tail (e := .decrypted 0 (.ok [3])) trivial rfl
  have h₆ := h₅.tail (e := .exported 0 (.ok [4])) trivial rfl
  have h₇ := h₆.tail (e := .served 0) trivial rfl
  have hlocked := hclaim _ h₇ (fun t => by match t with | 0 | n + 1 => rfl) rfl
  cases hlocked

end WarrenSdk.Extension.Keyring
