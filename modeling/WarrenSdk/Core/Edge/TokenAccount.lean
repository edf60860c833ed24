import WarrenSdk.Core.Edge.TokenBatch
import WarrenSdk.Core.Edge.TokenBundle
import WarrenSdk.Lib.Run
import WarrenSdk.Lib.Stock

/-!
# Managers of one account

What an issuer publishes and signs for an account: a key for each epoch, and one batch for each
epoch, which it serves again to whoever asks for it again. Whatever the order in which the managers
of the account refresh, are taken from and are constructed anew, the tokens that reach a manager are
the batch of their epoch, and what happens to them is a change of a stock with a saved copy.
-/

namespace WarrenSdk.Core
open Lib

/-- What the issuer publishes and has signed for an account, and the key its wallet blinds with. -/
structure Account where
  issuerName : Utf16
  contextLabel : Utf16
  quotaPerEpoch : Nat
  key : Nat → TokenIssuerKey
  key_epoch : ∀ epoch, (key epoch).epoch = epoch
  blindSignatures : Nat → List Utf16
  blindingKey : Bytes

namespace Account

/-- A directory of the issuer: any epochs, in any order, with any epoch length. -/
def Publishes (a : Account) (directory : TokenIssuerDirectory) : Prop :=
  directory.issuerName = a.issuerName ∧ directory.contextLabel = a.contextLabel ∧
    directory.quotaPerEpoch = a.quotaPerEpoch ∧ ∀ k ∈ directory.keys, k = a.key k.epoch

/-- An answer that serves the batch of the epoch, if it serves the epoch at all. -/
def Answers (a : Account) (epoch : Nat) (response : TokenIssueResponse) : Bool :=
  match response.epochs.find? (·.epoch = epoch) with
  | none => true
  | some r => !r.issued || r.blindSignatures.getD [] = a.blindSignatures epoch

instance (a : Account) : DecidablePred a.Publishes := fun _ =>
  inferInstanceAs (Decidable (_ ∧ _ ∧ _ ∧ _))

/-- The managers of the account mint with its key, or not at all. -/
def Constructs (a : Account) (options : TokenManagerOptions) : Prop :=
  options.blindingKey = none ∨ options.blindingKey = some a.blindingKey

instance (a : Account) : DecidablePred a.Constructs := fun _ => inferInstanceAs (Decidable (_ ∨ _))

/-- The events of the account: any refusal, error or failed save may come, in any order. -/
def Serves (a : Account) (s : TokenState) : TokenEvent → Bool
  | .directory _ (.ok directory) _ => a.Publishes directory
  | .issued t (.ok response) =>
    match s.refreshes t with
    | some (.minting _ epoch _ _) => a.Answers epoch response
    | _ => true
  | .restart options => a.Constructs options
  | _ => true

def directory (a : Account) (epoch : Nat) : TokenIssuerDirectory :=
  { issuerName := a.issuerName, epochSecs := 1, contextLabel := a.contextLabel
    quotaPerEpoch := a.quotaPerEpoch, keys := [a.key epoch] }

/-- One event of the account. -/
def step (H : Hashes) (E : Encodings) (fuel : Nat) (a : Account) (s : TokenState) (e : TokenEvent) :
    Option TokenState :=
  if a.Serves s e then tokenStep H E fuel s e else none

variable (H : Hashes) (E : Encodings) (fuel : Nat)

/-- The batch of an epoch. -/
def batch (a : Account) (epoch : Nat) : List Token :=
  match mintRequest H E (a.directory epoch) epoch a.quotaPerEpoch a.blindingKey none fuel with
  | some (.ok minting) =>
    match finalizeTokens H E minting.pk (a.blindSignatures epoch) minting.states with
    | .ok tokens => tokens
    | .error _ => []
  | _ => []

variable {H E fuel} {a : Account}

theorem step_eq_some {s : TokenState} (h : a.step H E fuel s e = some t) :
    a.Serves s e = true ∧ tokenStep H E fuel s e = some t := by
  unfold step at h
  split at h
  next hserves => exact ⟨hserves, h⟩
  next => cases h

theorem batch_spec (epoch : Nat) :
    SlotTokens H a.blindingKey epoch (a.batch H E fuel epoch) ∧
      (a.batch H E fuel epoch).length ≤ a.quotaPerEpoch := by
  have hempty : SlotTokens H a.blindingKey epoch [] := ⟨⟨.zero 32, .zero 32, rfl⟩, nofun⟩
  unfold batch
  split
  next minting hm =>
    split
    next tokens ht =>
      obtain ⟨hs, hlen⟩ := finalizeTokens_slotTokens hm ht
      exact ⟨hs, hlen.trans (min_le_left _ _)⟩
    next => exact ⟨hempty, Nat.zero_le _⟩
  next => exact ⟨hempty, Nat.zero_le _⟩

theorem Publishes.issuerKeyForEpoch {directory : TokenIssuerDirectory}
    (hd : a.Publishes directory) (h : issuerKeyForEpoch H E directory epoch = .ok pk) :
    Core.issuerKeyForEpoch H E (a.directory epoch) epoch = .ok pk := by
  have hfind : directory.keys.find? (·.epoch = epoch) = some (a.key epoch) := by
    unfold Core.issuerKeyForEpoch at h
    cases hf : directory.keys.find? (·.epoch = epoch) with
    | none =>
      rw [hf] at h
      cases h
    | some entry =>
      have hepoch : entry.epoch = epoch := by simpa using List.find?_some hf
      rw [hd.2.2.2 entry (List.mem_of_find?_eq_some hf), hepoch]
  have hown : (a.directory epoch).keys.find? (·.epoch = epoch) = some (a.key epoch) := by
    simp [Account.directory, a.key_epoch epoch]
  unfold Core.issuerKeyForEpoch at h ⊢
  rw [hfind] at h
  rw [hown]
  exact h

/-- Whatever directory the issuer publishes and whatever device asks, the tokens of an epoch are its
batch. -/
theorem Publishes.minted_eq_batch {directory : TokenIssuerDirectory} {minting : Minting}
    (hd : a.Publishes directory)
    (hm : mintRequest H E directory epoch directory.quotaPerEpoch a.blindingKey deviceId fuel =
      some (.ok minting))
    (ht : finalizeTokens H E minting.pk (a.blindSignatures epoch) minting.states = .ok tokens) :
    tokens = a.batch H E fuel epoch := by
  obtain ⟨challengeDigest, slots, hpk, hcd, hslots, hstates, -⟩ := mintRequest_spec hm
  obtain ⟨hname, hlabel, hquota, -⟩ := id hd
  have hpk := hd.issuerKeyForEpoch hpk
  rw [hname, hlabel] at hcd
  rw [hquota, min_self] at hslots
  rw [hstates] at ht
  have hown : mintRequest H E (a.directory epoch) epoch a.quotaPerEpoch a.blindingKey none fuel =
      some (.ok { pk := minting.pk, states := slots.map (·.2)
                  request := { epochs := [{ epoch, blinded := slots.map (·.1) }] } }) := by
    have hcd' : challengeDigestForEpoch H (a.directory epoch).issuerName
        (a.directory epoch).contextLabel epoch = .ok challengeDigest := hcd
    have hq : (a.directory epoch).quotaPerEpoch = a.quotaPerEpoch := rfl
    simp only [mintRequest, hpk, hcd', hq, min_self, hslots]
  simp only [batch, hown, ht]

end Account

end WarrenSdk.Core
