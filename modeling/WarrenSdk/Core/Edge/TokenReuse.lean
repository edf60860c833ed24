import WarrenSdk.Core.Edge.TokenService

/-!
# Tokens are stocked and spent once

Over the runs of an account's managers, from a first one over an empty persistence: when no refresh
stocks the batch of an epoch while a token of it is held, no token is held twice, and when none
stocks a batch of which a token is held or was taken, no token is taken twice.
-/

namespace WarrenSdk.Core
open Lib

variable {H : Hashes} {E : Encodings} {fuel : Nat} {a : Account}

namespace TokenState

/-- The first manager of a run. -/
def initial (E : Encodings) (options : TokenManagerOptions) : TokenState :=
  { manager := .new E options none }

/-- No epoch holds two tokens of one serial, or more tokens than the issuer's quota. -/
def StockedOnce (H : Hashes) (a : Account) (s : TokenState) : Prop :=
  ∀ epoch, ((s.manager.stored epoch).map fun token => tokenSerial H token.1).Nodup ∧
    (s.manager.stored epoch).length ≤ a.quotaPerEpoch

/-- The epoch that an event stocks holds nothing. -/
def Vacant (s : TokenState) (e : TokenEvent) : Prop :=
  ∀ {epoch tokens}, s.stocking e = some (epoch, tokens) →
    tokens = [] ∨ s.manager.stored epoch = []

/-- The tokens that an event stocks are neither held, in any epoch, nor were they taken. -/
def Unused (H : Hashes) (s : TokenState) (e : TokenEvent) : Prop :=
  ∀ {epoch tokens}, s.stocking e = some (epoch, tokens) → ∀ token ∈ tokens,
    (∀ j, ∀ held ∈ s.manager.stored j,
      tokenSerial H token.serialize.1 ≠ tokenSerial H held.1) ∧
    ∀ taken ∈ s.taken, tokenSerial H token.serialize.1 ≠ tokenSerial H taken.1

theorem initial_ofAccount {options : TokenManagerOptions} (ho : a.Constructs options) :
    (initial E options).OfAccount H E fuel a :=
  ⟨by rw [initial, TokenManager.blindingKey_new]; exact ho, nofun⟩

end TokenState

namespace Account

/-- The batch of an epoch as it is stored. -/
def batchBytes (H : Hashes) (E : Encodings) (fuel : Nat) (a : Account) (epoch : Nat) :
    List TokenBytes := (a.batch H E fuel epoch).map (·.serialize)

theorem batchBytes_nodup (hc : CollisionFree H a.blindingKey) (epoch : Nat) :
    ((a.batchBytes H E fuel epoch).map fun token => tokenSerial H token.1).Nodup := by
  rw [batchBytes, List.map_map]
  exact (a.batch_spec epoch).1.nodup_serials hc

theorem batchBytes_length (epoch : Nat) :
    (a.batchBytes H E fuel epoch).length ≤ a.quotaPerEpoch := by
  rw [batchBytes, List.length_map]
  exact (a.batch_spec epoch).2

/-- Every epoch holds the first tokens of its batch, in memory and in what was saved. -/
structure Once (H : Hashes) (E : Encodings) (fuel : Nat) (a : Account) (s : TokenState) : Prop where
  ofAccount : s.OfAccount H E fuel a
  prefixes : (s.stock E).Both (Stock.PrefixOf (a.batchBytes H E fuel))

theorem Once.initial {options : TokenManagerOptions} (ho : a.Constructs options) :
    a.Once H E fuel (.initial E options) where
  ofAccount := TokenState.initial_ofAccount ho
  prefixes := ⟨fun _ => List.nil_prefix, fun _ => List.nil_prefix⟩

theorem Once.stockedOnce (hc : CollisionFree H a.blindingKey) (hs : a.Once H E fuel s) :
    s.StockedOnce H a := by
  intro epoch
  have hpre : s.manager.stored epoch <+: a.batchBytes H E fuel epoch := hs.prefixes.1 epoch
  exact ⟨(batchBytes_nodup hc epoch).sublist (hpre.sublist.map _),
    hpre.length_le.trans (batchBytes_length epoch)⟩

/-- An event that stocks nothing, or stocks a batch where nothing is held, keeps it so. -/
theorem Once.step (hs : a.Once H E fuel s) (hv : s.Vacant e) (h : a.step H E fuel s e = some t) :
    a.Once H E fuel t := by
  obtain ⟨hserves, h⟩ := step_eq_some h
  have heffect := TokenState.tokenStep_effect hs.ofAccount hserves h
  refine ⟨heffect.ofAccount hs.ofAccount, ?_⟩
  let may : Stock Nat TokenBytes → Nat → List TokenBytes → Prop := fun v epoch items =>
    items = a.batchBytes H E fuel epoch ∧ (items = [] ∨ v.memory epoch = [])
  have hkeeps : Stock.Keeps may (Stock.PrefixOf (a.batchBytes H E fuel)) := by
    refine Stock.prefixOf_keeps _ ?_
    rintro v epoch items ⟨hitems, rfl | hempty⟩ hpre
    · rwa [List.append_nil]
    · rw [hempty, hitems]
      exact List.prefix_rfl
  refine hkeeps.changes (heffect.changes ?_) hs.prefixes
  rintro epoch tokens hstock rfl
  refine ⟨rfl, (hv hstock).imp_left ?_⟩
  intro hnil
  rw [hnil, List.map_nil]

/-- A batch stocked where some of it is held is held twice. -/
theorem Once.not_stockedOnce (hs : a.Once H E fuel s) (hv : ¬ s.Vacant e)
    (h : a.step H E fuel s e = some t) : ¬ t.StockedOnce H a := by
  intro ht
  refine hv ?_
  intro epoch tokens hstock
  by_contra hboth
  rw [not_or] at hboth
  obtain ⟨htokens, hgoes⟩ :=
    TokenState.tokenStep_stocking hs.ofAccount hstock (step_eq_some h).2
  have hstored : t.manager.stored epoch =
      s.manager.stored epoch ++ tokens.map (·.serialize) := by
    rw [hgoes.stored, TokenManager.stored_stock, Function.update_self]
  have hpre : s.manager.stored epoch <+: tokens.map (·.serialize) :=
    htokens ▸ hs.prefixes.1 epoch
  obtain ⟨first, rest, hfirst⟩ := List.exists_cons_of_ne_nil hboth.2
  have hin : first ∈ tokens.map (·.serialize) := hpre.subset (hfirst ▸ List.mem_cons_self)
  have hnodup := (ht epoch).1
  rw [hstored, List.map_append, List.nodup_append] at hnodup
  exact hnodup.2.2 _ (List.mem_map_of_mem (hfirst ▸ List.mem_cons_self)) _
    (List.mem_map_of_mem hin) rfl

/-! ## Spending -/

/-- No two tokens that are held or were taken have the same serial, in memory and in what was
saved. -/
structure Unspent (H : Hashes) (E : Encodings) (fuel : Nat) (a : Account) (s : TokenState) :
    Prop where
  ofAccount : s.OfAccount H E fuel a
  distinct : (s.stock E).Both (Stock.Distinct fun token => tokenSerial H token.1)

theorem Unspent.initial {options : TokenManagerOptions} (ho : a.Constructs options) :
    a.Unspent H E fuel (.initial E options) where
  ofAccount := TokenState.initial_ofAccount ho
  distinct := by
    have hempty : Stock.Distinct (fun token : TokenBytes => tokenSerial H token.1)
        (fun _ : Nat => []) [] :=
      ⟨List.nodup_nil, fun _ => List.nodup_nil, fun _ _ => nofun, fun _ => nofun⟩
    exact ⟨hempty, hempty⟩

theorem Unspent.step (hc : CollisionFree H a.blindingKey) (hs : a.Unspent H E fuel s)
    (hu : s.Unused H e) (h : a.step H E fuel s e = some t) : a.Unspent H E fuel t := by
  obtain ⟨hserves, h⟩ := step_eq_some h
  have heffect := TokenState.tokenStep_effect hs.ofAccount hserves h
  refine ⟨heffect.ofAccount hs.ofAccount, ?_⟩
  have hkeeps := Stock.distinct_keeps (κ := Nat) (fun token : TokenBytes => tokenSerial H token.1)
    (fun h => h)
  refine hkeeps.changes (heffect.changes ?_) hs.distinct
  rintro epoch tokens hstock rfl
  refine ⟨batchBytes_nodup hc epoch, ?_, ?_⟩
  · intro j item hitem held hheld
    obtain ⟨token, htoken, rfl⟩ := List.mem_map.mp hitem
    exact (hu hstock token htoken).1 j held hheld
  · intro item hitem taken htaken
    obtain ⟨token, htoken, rfl⟩ := List.mem_map.mp hitem
    exact (hu hstock token htoken).2 taken htaken

/-! ## A batch that is served again -/

/-- One refresh at a time, every save succeeds, and the clock does not go back. -/
def Orderly (s : TokenState) : TokenEvent → Bool
  | .refresh now =>
    s.clock ≤ now && (List.range s.nextRefresh).all fun u => (s.refreshes u).isNone
  | .takeCurrentStack now saved => s.clock ≤ now && saved
  | .registered _ _ saved => saved
  | .directory _ _ saved => saved
  | .resume _ saved => saved
  | _ => true

theorem stored_adopted (m : TokenManager) (a : Account) (epoch : Nat) :
    (m.adoptDirectory (a.hourly epoch) epoch).stored epoch = m.stored epoch := by
  simp [TokenManager.stored, TokenManager.adoptDirectory, TokenManager.pruneBefore,
    OrderedMap.get_filterKeys]

/-- The options of a manager that mints for the account. -/
def options (a : Account) : TokenManagerOptions := { blindingKey := some a.blindingKey }

/-- A refresh of a new manager stocks the batch on top of what was saved. -/
theorem exec_refresh_new {s : TokenState} (hmanager : s.manager = .new E a.options raw)
    (hidle : ∀ u, s.refreshes u = none) (hnext : s.nextRefresh = u)
    (hclock : s.clock ≤ 3600 * epoch) (hbatch : a.batch H E fuel epoch ≠ []) :
    ∃ t, exec (a.step H E fuel) Orderly s (a.refreshEvents epoch u) = some t ∧
      t.manager.stored epoch =
        (TokenManager.new E {} raw).stored epoch ++ a.batchBytes H E fuel epoch ∧
      t.manager.epochSecs = some 3600 ∧ t.persisted = some (t.manager.bundle E) ∧
      t.taken = s.taken ∧ t.nextRefresh = u + 1 ∧ t.clock = 3600 * epoch := by
  subst hnext
  obtain ⟨store, epochSecs, hnew⟩ := TokenManager.new_eq (E := E) a.options raw
  have hok : Orderly s (.refresh (3600 * epoch)) = true := by
    simp [Orderly, hclock, hidle]
  have hrest : ∀ t, ∀ e ∈ (a.refreshEvents epoch s.nextRefresh).tail, Orderly t e = true := by
    intro t
    simp [refreshEvents, Orderly]
  obtain ⟨-, t, -, -, -, -, ht, hm, hpersisted, htaken, hnext, hclock'⟩ :=
    exec_refreshEvents fuel Orderly hok hrest (by rw [hmanager, hnew]; rfl) (by rw [hmanager, hnew])
      (by rw [hmanager, hnew]; rfl) (by rw [hmanager, hnew]; exact List.not_mem_nil) hbatch
  refine ⟨t, ht, ?_, ?_, hpersisted, htaken, hnext, hclock'⟩
  · rw [hm, TokenManager.stored_stock, Function.update_self, stored_adopted, hmanager,
      TokenManager.stored_new a.options {}]
    rfl
  · rw [hm, TokenManager.epochSecs_stock]
    rfl

/-- The last token of the epoch is taken, and its removal saved. -/
theorem exec_take (fuel : Nat) {s : TokenState} (hsecs : s.manager.epochSecs = some 3600)
    (hclock : s.clock ≤ 3600 * epoch) (hstored : s.manager.stored epoch = rest ++ [token]) :
    ∃ t, exec (a.step H E fuel) Orderly s [.takeCurrentStack (3600 * epoch) true] = some t ∧
      t.manager.stored epoch = rest ∧ t.persisted = some (t.manager.bundle E) ∧
      t.taken = s.taken ++ [token] ∧ t.nextRefresh = s.nextRefresh ∧ t.clock = 3600 * epoch := by
  have hepoch : s.manager.epochAt (3600 * epoch) = some epoch := by
    simp [TokenManager.epochAt, hsecs]
  have hget : s.manager.store.get epoch = some (rest ++ [token]) := by
    cases hget : s.manager.store.get epoch with
    | none => simp [TokenManager.stored, hget] at hstored
    | some tokens => simpa [TokenManager.stored, hget] using hstored
  obtain ⟨m, hpop⟩ : ∃ m, s.manager.popCurrent (3600 * epoch) = some (token, m) := by
    simp [TokenManager.popCurrent, hepoch, hget]
  obtain ⟨j, rest', hj, hheld, hrest, -⟩ := TokenManager.popCurrent_spec hpop
  cases hepoch.symm.trans hj
  have hrest' : rest' = rest := List.append_cancel_right (hheld.symm.trans hstored)
  have hstep : a.step H E fuel s (.takeCurrentStack (3600 * epoch) true) =
      some { s with manager := m, persisted := some (m.bundle E), taken := s.taken ++ [token]
                    clock := 3600 * epoch } := by
    simp only [step, Serves, if_true, tokenStep, TokenState.takeCurrentStack, hpop]
    rfl
  refine ⟨_, exec_cons_of_step [] (by simp [Orderly, hclock]) hstep, ?_, rfl, rfl, rfl, rfl⟩
  rw [hrest, Function.update_self, hrest']

@[simp] theorem initial_manager (options : TokenManagerOptions) :
    (TokenState.initial E options).manager = .new E options none := rfl

/-- A new manager over the same persistence. -/
theorem exec_restart (s : TokenState) :
    exec (a.step H E fuel) Orderly s [.restart a.options] = some (s.restart E a.options) := by
  have hconstructs : a.Constructs a.options := .inr rfl
  rw [exec_cons_of_step (t := s.restart E a.options) _ rfl, exec]
  simp [step, Serves, hconstructs, tokenStep]

/-- The events in which a batch is stocked, and stocked again after a restart. -/
def restockEvents (a : Account) (epoch : Nat) : List TokenEvent :=
  a.refreshEvents epoch 0 ++ [.restart a.options] ++ a.refreshEvents epoch 1

/-- The same with a token taken after each refresh. -/
def respendEvents (a : Account) (epoch : Nat) : List TokenEvent :=
  a.refreshEvents epoch 0 ++ [.takeCurrentStack (3600 * epoch) true] ++ [.restart a.options] ++
    a.refreshEvents epoch 1 ++ [.takeCurrentStack (3600 * epoch) true]

theorem exec_restockEvents (hbatch : a.batch H E fuel epoch ≠ []) :
    ∃ t, exec (a.step H E fuel) Orderly (.initial E a.options) (a.restockEvents epoch) = some t ∧
      t.manager.stored epoch = a.batchBytes H E fuel epoch ++ a.batchBytes H E fuel epoch := by
  obtain ⟨t₁, h₁, hstored₁, -, hpersisted₁, -, hnext₁, hclock₁⟩ :=
    exec_refresh_new (u := 0) (initial_manager a.options) (fun _ => rfl) rfl (Nat.zero_le _) hbatch
  obtain ⟨t₂, h₂, hstored₂, -⟩ :=
    exec_refresh_new (s := t₁.restart E a.options) rfl (fun _ => rfl) hnext₁ hclock₁.le hbatch
  refine ⟨t₂, ?_, ?_⟩
  · rw [restockEvents, List.append_assoc, exec_append h₁, exec_append (exec_restart t₁), h₂]
  · rw [hstored₂, hpersisted₁, TokenManager.stored_new_bundle, hstored₁]
    rfl

theorem exec_respendEvents (hbatch : a.batchBytes H E fuel epoch = rest ++ [token]) :
    ∃ t, exec (a.step H E fuel) Orderly (.initial E a.options) (a.respendEvents epoch) = some t ∧
      t.taken = [token, token] := by
  have hne : a.batch H E fuel epoch ≠ [] := by
    intro hnil
    simp [batchBytes, hnil] at hbatch
  obtain ⟨t₁, h₁, hstored₁, hsecs₁, -, htaken₁, hnext₁, hclock₁⟩ :=
    exec_refresh_new (u := 0) (initial_manager a.options) (fun _ => rfl) rfl (Nat.zero_le _) hne
  have hstored₁ : t₁.manager.stored epoch = rest ++ [token] := hstored₁.trans hbatch
  obtain ⟨t₂, h₂, hstored₂, hpersisted₂, htaken₂, hnext₂, hclock₂⟩ :=
    exec_take (a := a) (H := H) fuel hsecs₁ hclock₁.le hstored₁
  obtain ⟨t₃, h₃, hstored₃, hsecs₃, -, htaken₃, hnext₃, hclock₃⟩ :=
    exec_refresh_new (s := t₂.restart E a.options) rfl (fun _ => rfl) (hnext₂.trans hnext₁)
      hclock₂.le hne
  have hstored₃ : t₃.manager.stored epoch = (rest ++ rest) ++ [token] := by
    rw [hstored₃, hpersisted₂, TokenManager.stored_new_bundle, hstored₂, hbatch, List.append_assoc]
  obtain ⟨t₄, h₄, -, -, htaken₄, -⟩ :=
    exec_take (a := a) (H := H) fuel hsecs₃ hclock₃.le hstored₃
  refine ⟨t₄, ?_, ?_⟩
  · rw [respendEvents, List.append_assoc, List.append_assoc, List.append_assoc, exec_append h₁,
      exec_append h₂, exec_append (exec_restart t₂), exec_append h₃, h₄]
  · rw [htaken₄, htaken₃]
    show t₂.taken ++ [token] = _
    rw [htaken₂, htaken₁]
    rfl

end Account

/-! ## An account -/

/-- The DER encoding of the sample key. -/
def sampleSpki : Bytes :=
  [0x30, 0x82, 0x01, 0x22, 0x30, 0x0d, 0x06, 0x09, 0x2a, 0x86, 0x48, 0x86, 0xf7, 0x0d, 0x01, 0x01,
    0x01, 0x05, 0x00, 0x03, 0x82, 0x01, 0x0f, 0x00, 0x30, 0x82, 0x01, 0x0a, 0x02, 0x82, 0x01, 0x01,
    0x00] ++ toBE 6 (16770781 * 16754917) ++ List.replicate 121 0 ++ toBE 4 (16770781 + 16754917) ++
    List.replicate 124 0 ++ [0x01, 0x02, 0x03, 0x01, 0x00, 0x01]

def sampleIssuerKey : IssuerPublicKey :=
  { n := sampleKey.n, e := sampleKey.e, keyId := sampleHashes.sha256 sampleSpki }

theorem sampleIssuerKey_matches : Matches sampleIssuerKey sampleKey where
  n := rfl
  e := rfl
  lower := samplePublicKey_matches.lower
  upper := samplePublicKey_matches.upper

theorem issuerPublicKeyFromSpki_sample :
    issuerPublicKeyFromSpki sampleHashes sampleSpki = .ok sampleIssuerKey := by
  have houter : readTlv sampleSpki 0 = { tag := 0x30, start := 4, stop := 294 } := by
    decide +kernel
  have halg : readTlv sampleSpki 4 = { tag := 0x30, start := 6, stop := 19 } := by decide +kernel
  have hbits : readTlv sampleSpki 19 = { tag := 0x03, start := 23, stop := 294 } := by
    decide +kernel
  have hrsa : readTlv sampleSpki (23 + 1) = { tag := 0x30, start := 28, stop := 294 } := by
    decide +kernel
  have hn : readTlv sampleSpki 28 = { tag := 0x02, start := 32, stop := 289 } := by decide +kernel
  have he : readTlv sampleSpki 289 = { tag := 0x02, start := 291, stop := 294 } := by
    decide +kernel
  simp only [issuerPublicKeyFromSpki, houter, halg, hbits, hrsa, hn, he, ne_eq, not_true, if_false,
    issuerPublicKey, sampleIssuerKey]
  have hn' : os2ip (strip (subarray sampleSpki 32 289)) = sampleKey.n := by decide +kernel
  have he' : os2ip (strip (subarray sampleSpki 291 294)) = sampleKey.e := by decide +kernel
  rw [hn', he']

/-- What the issuer publishes for the sample account, one token an epoch. -/
def samplePublished : Account where
  issuerName := .ofString "issuer"
  contextLabel := .ofString "warren"
  quotaPerEpoch := 1
  key epoch := { epoch, tokenKeyId := sampleEncodings.bytesToHex sampleIssuerKey.keyId.1
                 spkiB64 := sampleEncodings.base64 sampleSpki }
  key_epoch _ := rfl
  blindSignatures _ := []
  blindingKey := List.replicate 32 7

/-- The sample account, with its batches signed. -/
def sampleAccount : Account := samplePublished.signed sampleHashes sampleEncodings 1 sampleKey

theorem sampleHashes_hkdf_inj {i j : Nat} (h : sampleHashes.hkdf key salt (info epoch i 0) =
    sampleHashes.hkdf key salt (info epoch j 0)) : info epoch i 0 = info epoch j 0 := by
  have hlen (index : Nat) : (info epoch index 0).length = 16 := by simp [info]
  have hlt (index : Nat) : ofBE (info epoch index 0) < 256 ^ 32 := by
    have hlt := ofBE_lt (info epoch index 0)
    rw [hlen] at hlt
    exact hlt.trans (by norm_num)
  simp only [sampleHashes, Subtype.mk.injEq] at h
  exact eq_of_ofBE (by rw [hlen, hlen]) (toBE_inj (hlt i) (hlt j) h)

theorem sampleHashes_sha256_buildTokenInput (nonce challengeDigest tokenKeyId : Octets 32) :
    sampleHashes.sha256 (buildTokenInput nonce challengeDigest tokenKeyId).1 = nonce := by
  have hnonce :
      (((buildTokenInput nonce challengeDigest tokenKeyId).1.take 34).drop 2) = nonce.1 := by
    simp [buildTokenInput, toBE, nonce.2]
  apply Subtype.ext
  have h := toBE_ofBE nonce.1
  rw [nonce.2] at h
  simp only [sampleHashes, hnonce, h]

theorem sampleHashes_collisionFree (key : Bytes) : CollisionFree sampleHashes key where
  hkdf := by
    intro epoch i j _ _ h
    exact sampleHashes_hkdf_inj h
  sha256 := by
    intro epoch i j challengeDigest tokenKeyId _ _ h
    rw [sampleHashes_sha256_buildTokenInput, sampleHashes_sha256_buildTokenInput] at h
    rw [h]

/-- The octets of the first slot of epoch 7. -/
def sampleRandom : TokenRandom :=
  deterministicTokenRandom sampleHashes samplePublished.blindingKey 7 0

theorem randomCoprime_sample : ∃ r, randomCoprime sampleIssuerKey.n sampleRandom 1
    (sampleRandom HASH_LEN (sampleRandom NONCE_LEN 0).2).2 = some (.ok r) :=
  ⟨_, randomCoprime_of_coprime sampleIssuerKey_matches.one_lt (by decide +kernel)
    (by decide +kernel)⟩

theorem issuerKeyForEpoch_sample (epoch : Nat) :
    issuerKeyForEpoch sampleHashes sampleEncodings (samplePublished.directory epoch) epoch =
      .ok sampleIssuerKey := by
  simp [issuerKeyForEpoch, Account.directory, samplePublished, sampleEncodings.unbase64_base64,
    issuerPublicKeyFromSpki_sample, bind, Except.bind, pure, Except.pure]

/-- The batch of epoch 7 is one token. -/
theorem exists_batchBytes_sample :
    ∃ token, sampleAccount.batchBytes sampleHashes sampleEncodings 1 7 = [] ++ [token] := by
  obtain ⟨r, hr⟩ := randomCoprime_sample
  obtain ⟨minting, hm, hpk⟩ : ∃ minting, mintRequest sampleHashes sampleEncodings
      (samplePublished.directory 7) 7 samplePublished.quotaPerEpoch samplePublished.blindingKey none
        1 = some (.ok minting) ∧ minting.pk = sampleIssuerKey :=
    sampleIssuerKey_matches.exists_mintRequest (issuerKeyForEpoch_sample 7) rfl rfl hr
  have hlen : (sampleAccount.batch sampleHashes sampleEncodings 1 7).length = 1 :=
    Account.length_batch_signed hm (hpk ▸ sampleIssuerKey_matches)
  obtain ⟨token, htoken⟩ := List.length_eq_one_iff.mp hlen
  exact ⟨token.serialize, by rw [Account.batchBytes, htoken]; rfl⟩

/-! ## What holds of every run -/

namespace Account

/-- Over every sequence of events of an account's managers, from a first manager on, no token is
ever held twice exactly when no refresh stocks a batch where some of it is held. -/
theorem stockedOnce_iff_vacant (hc : CollisionFree H a.blindingKey) {options : TokenManagerOptions}
    (ho : a.Constructs options) (es : List TokenEvent) :
    Always (a.step H E fuel) (TokenState.StockedOnce H a) (.initial E options) es ↔
      Guarded (a.step H E fuel) TokenState.Vacant (.initial E options) es :=
  always_iff_guarded (Once.stockedOnce hc) Once.step Once.not_stockedOnce (Once.initial ho)

theorem stockedOnce_iff_vacant_restocked :
    Always (sampleAccount.step sampleHashes sampleEncodings 1)
        (TokenState.StockedOnce sampleHashes sampleAccount)
        (.initial sampleEncodings sampleAccount.options) (sampleAccount.restockEvents 7) ↔
      Guarded (sampleAccount.step sampleHashes sampleEncodings 1) TokenState.Vacant
        (.initial sampleEncodings sampleAccount.options) (sampleAccount.restockEvents 7) :=
  stockedOnce_iff_vacant (sampleHashes_collisionFree _) (.inr rfl) _

/-- An orderly run that holds a token twice, and more tokens than the quota: a manager that stocked
the batch of an epoch is constructed anew, and stocks it again. -/
theorem not_stockedOnce_restocked :
    CollisionFree sampleHashes sampleAccount.blindingKey ∧
      ∃ t, exec (sampleAccount.step sampleHashes sampleEncodings 1) Orderly
          (.initial sampleEncodings sampleAccount.options) (sampleAccount.restockEvents 7) =
            some t ∧
        ¬ t.StockedOnce sampleHashes sampleAccount := by
  refine ⟨sampleHashes_collisionFree _, ?_⟩
  obtain ⟨token, htoken⟩ := exists_batchBytes_sample
  have hbatch : sampleAccount.batch sampleHashes sampleEncodings 1 7 ≠ [] := by
    intro hnil
    simp [batchBytes, hnil] at htoken
  obtain ⟨t, ht, hstored⟩ := exec_restockEvents hbatch
  refine ⟨t, ht, fun hsome => ?_⟩
  have hlen : (t.manager.stored 7).length ≤ 1 := (hsome 7).2
  rw [hstored, htoken] at hlen
  simp at hlen

/-- A run in which a token is stocked and taken. -/
theorem exists_run_sample : ∃ t token,
    Run (sampleAccount.step sampleHashes sampleEncodings 1) (fun s e => s.Unused sampleHashes e)
      (.initial sampleEncodings sampleAccount.options) t ∧ t.taken = [token] := by
  obtain ⟨token, htoken⟩ := exists_batchBytes_sample
  have hbatch : sampleAccount.batch sampleHashes sampleEncodings 1 7 ≠ [] := by
    intro hnil
    simp [batchBytes, hnil] at htoken
  obtain ⟨v, t, hrun, hvm, hvtaken, hstep, -, hm, -, htaken, -, hclock⟩ :=
    exec_refreshEvents (a := sampleAccount) (H := sampleHashes) (E := sampleEncodings) 1
      (fun _ _ => true) (s := .initial sampleEncodings sampleAccount.options)
      rfl (fun _ _ _ => rfl) rfl rfl rfl List.not_mem_nil hbatch
  have hrun : Run (sampleAccount.step sampleHashes sampleEncodings 1)
      (fun s e => s.Unused sampleHashes e) (.initial sampleEncodings sampleAccount.options) v :=
    hrun.mono fun s e hnone _ _ hstock => by cases hnone.symm.trans hstock
  -- nothing is held, and nothing was taken, where the refresh goes on with its tokens
  have hunused : v.Unused sampleHashes (.resume 0 true) := by
    intro epoch tokens _ token _
    rw [hvtaken, hvm]
    exact ⟨fun _ => nofun, nofun⟩
  have hempty : (TokenState.initial sampleEncodings sampleAccount.options).manager.stored 7 = [] :=
    rfl
  have hstored : t.manager.stored 7 = [] ++ [token] := by
    rw [hm, TokenManager.stored_stock, Function.update_self, stored_adopted, hempty, ← htoken,
      List.nil_append, batchBytes]
  have hsecs : t.manager.epochSecs = some 3600 := by
    rw [hm, TokenManager.epochSecs_stock]
    rfl
  obtain ⟨t', htake, -, -, htaken', -⟩ := exec_take (a := sampleAccount) (H := sampleHashes)
    (E := sampleEncodings) 1 hsecs hclock.le hstored
  obtain ⟨-, u, hu, hu'⟩ := exec_cons htake
  cases hu'
  have htaking : t.Unused sampleHashes (.takeCurrentStack (3600 * 7) true) := by
    intro epoch tokens hstock
    cases hstock
  refine ⟨t', token, (hrun.tail hunused hstep).tail htaking hu, ?_⟩
  rw [htaken', htaken]
  rfl

/-- In every run of an account's managers in which no refresh stocks a token that is held or was
taken, no token is taken twice. -/
theorem taken_once (hc : CollisionFree H a.blindingKey) {options : TokenManagerOptions}
    (ho : a.Constructs options)
    (h : Run (a.step H E fuel) (fun s e => s.Unused H e) (.initial E options) t) :
    (t.taken.map fun token => tokenSerial H token.1).Nodup := by
  have hinv : a.Unspent H E fuel t :=
    h.invariant (fun hs hu h => hs.step hc hu h) (Unspent.initial ho)
  exact hinv.distinct.1.once

theorem taken_once_sample : ∃ t : TokenState, t.taken ≠ [] ∧
    (t.taken.map fun token => tokenSerial sampleHashes token.1).Nodup := by
  obtain ⟨t, token, hrun, htaken⟩ := exists_run_sample
  exact ⟨t, by simp [htaken],
    taken_once (a := sampleAccount) (sampleHashes_collisionFree _) (.inr rfl) hrun⟩

/-- An orderly run in which a token is taken twice: once before the manager is constructed anew,
and once after it stocked the batch again. -/
theorem not_taken_once_respent :
    CollisionFree sampleHashes sampleAccount.blindingKey ∧
      ∃ t, exec (sampleAccount.step sampleHashes sampleEncodings 1) Orderly
          (.initial sampleEncodings sampleAccount.options) (sampleAccount.respendEvents 7) =
            some t ∧
        ¬ (t.taken.map fun token => tokenSerial sampleHashes token.1).Nodup := by
  refine ⟨sampleHashes_collisionFree _, ?_⟩
  obtain ⟨token, htoken⟩ := exists_batchBytes_sample
  obtain ⟨t, ht, htaken⟩ := exec_respendEvents htoken
  refine ⟨t, ht, ?_⟩
  rw [htaken]
  simp

end Account

end WarrenSdk.Core
