import WarrenSdk.Core.Edge.TokenIssuance
import WarrenSdk.Core.Edge.TokenStock

/-!
# A served refresh

When the issuer signs the batch of an account with its RSA key, every slot of it finalizes; and a
refresh that is served stocks the batch and saves it.
-/

namespace WarrenSdk.Core
open Lib

variable {H : Hashes} {E : Encodings} {fuel : Nat} {a : Account}

/-! ## Signed batches -/

/-- The issuer's answer to a blinded request, as they travel; empty for what is no request. -/
def signBlinded (E : Encodings) (key : RsaKey) (blinded : Utf16) : Utf16 :=
  match E.unbase64 blinded with
  | none => []
  | some request =>
    if h : request.length = AUTHENTICATOR_LEN then
      match blindSign key ⟨request, h⟩ with
      | .ok signature => E.base64 signature.1
      | .error _ => []
    else []

theorem coprime_of_modInverse {r n : Nat} (hn : 1 < n) (h : modInverse r n = .ok x) :
    r.Coprime n := by
  by_contra hr
  have herror := (modInverse_spec (a := r) (m := n) (by exact_mod_cast hn)).2
    (by rwa [Int.gcd_natCast_natCast])
  cases herror.symm.trans h

theorem randomCoprime_coprime {draw : TokenRandom} (hn : 1 < n)
    (h : randomCoprime n draw fuel drawn = some (.ok r)) : r.Coprime n := by
  induction fuel generalizing drawn with
  | zero => cases h
  | succ fuel ih =>
    simp only [randomCoprime] at h
    split at h
    · cases h
    · split at h
      · split at h
        next hinv =>
          cases h
          exact coprime_of_modInverse hn hinv
        next => exact ih h
      · exact ih h

theorem randomCoprime_of_coprime {draw : TokenRandom} (hn : 1 < n)
    (h1 : 1 < os2ip (draw AUTHENTICATOR_LEN drawn).1.1 % n)
    (hr : (os2ip (draw AUTHENTICATOR_LEN drawn).1.1 % n).Coprime n) :
    randomCoprime n draw (fuel + 1) drawn =
      some (.ok (os2ip (draw AUTHENTICATOR_LEN drawn).1.1 % n)) := by
  obtain ⟨x, hx, -⟩ := modInverse_natCast hn hr
  simp only [randomCoprime, Nat.ne_of_gt (Nat.zero_lt_of_lt hn), if_false, h1, if_true, hx]

/-- Blinding succeeds when the search for a blinding factor does. -/
theorem Matches.exists_blindToken (h : Matches pk key) {random : TokenRandom}
    (hr : randomCoprime pk.n random fuel (random HASH_LEN (random NONCE_LEN 0).2).2 =
      some (.ok r)) :
    ∃ request state,
      Core.blindToken H pk challengeDigest { random } fuel = some (.ok (request, state)) := by
  obtain ⟨em, hem⟩ := exists_emsaPssEncode (H := H)
    (buildTokenInput (random NONCE_LEN 0).1 challengeDigest pk.keyId).1
    (random HASH_LEN (random NONCE_LEN 0).2).1
  obtain ⟨request, state, hwith, -⟩ := h.blindWith (randomCoprime_coprime h.one_lt hr)
    (random NONCE_LEN 0).1 challengeDigest (os2ip em)
  refine ⟨request, state, ?_⟩
  simp only [Core.blindToken, Option.elim, MOD_BITS, hem, hr, hwith]

theorem exists_challengeDigest (issuerName contextLabel : Utf16) (epoch : Nat) :
    ∃ challengeDigest, challengeDigestForEpoch H issuerName contextLabel epoch =
      .ok challengeDigest := by
  have hlen := (redemptionContextForEpoch H contextLabel epoch).2
  rw [challengeDigestForEpoch, tokenChallengeDigest, serializeTokenChallenge, if_neg]
  · exact ⟨_, rfl⟩
  · exact fun h => h.2 hlen

/-- What a wallet blinds, the issuer's signature of it finalizes. -/
theorem Matches.finalizeToken_signBlinded (h : Matches pk key) {random : TokenRandom}
    (hblind : blindToken H pk challengeDigest { random } fuel = some (.ok (request, state))) :
    ∃ signature token, E.unbase64 (signBlinded E key (E.base64 request.1)) = some signature ∧
      Core.finalizeToken H pk signature state = .ok token := by
  simp only [blindToken, Option.elim, MOD_BITS] at hblind
  obtain ⟨em, hem⟩ := exists_emsaPssEncode (H := H)
    (buildTokenInput (random NONCE_LEN 0).1 challengeDigest pk.keyId).1
    (random HASH_LEN (random NONCE_LEN 0).2).1
  simp only [hem] at hblind
  split at hblind
  · cases hblind
  · cases hblind
  next r hr =>
    obtain ⟨request', state', hwith, hb⟩ := h.blindWith (randomCoprime_coprime h.one_lt hr)
      (random NONCE_LEN 0).1 challengeDigest (os2ip em)
    cases hwith.symm.trans (Option.some.inj hblind)
    rw [← hb.tokenInput] at hem
    obtain ⟨signature, authenticator, hsign, hfin, -⟩ :=
      h.finalizeToken hb.inverse hem hb.request
    refine ⟨signature.1, _, ?_, hfin⟩
    have hreq : signBlinded E key (E.base64 request.1) = E.base64 signature.1 := by
      have hlen : request.1.length = AUTHENTICATOR_LEN := request.2
      simp only [signBlinded, E.unbase64_base64, hlen, dite_true]
      have hsign' : blindSign key ⟨request.1, hlen⟩ = .ok signature := hsign
      rw [hsign']
    rw [hreq, E.unbase64_base64]

/-- Every slot of a signed batch finalizes. -/
theorem Matches.finalizeTokens (h : Matches pk key) {left i : Nat}
    {slots : List (Utf16 × TokenClientState)}
    (hslots : blindSlots H E pk challengeDigest blindingKey epoch fuel left i = some (.ok slots)) :
    ∃ tokens, Core.finalizeTokens H E pk (slots.map fun slot => signBlinded E key slot.1)
        (slots.map (·.2)) = .ok tokens ∧ tokens.length = left := by
  induction left generalizing i slots with
  | zero =>
    cases hslots
    exact ⟨[], rfl, rfl⟩
  | succ left ih =>
    simp only [blindSlots] at hslots
    split at hslots
    · cases hslots
    · cases hslots
    next request state hblind =>
      split at hslots
      · cases hslots
      · split at hslots
        · cases hslots
        · cases hslots
        next rest hrest =>
          cases hslots
          obtain ⟨signature, token, hsig, hfin⟩ := h.finalizeToken_signBlinded (E := E) hblind
          obtain ⟨tokens, htokens, hlen⟩ := ih hrest
          refine ⟨token :: tokens, ?_, by rw [List.length_cons, hlen]⟩
          simp only [List.map_cons, Core.finalizeTokens, hsig, hfin, htokens, bind, Except.bind,
            pure, Except.pure]

/-- A batch of one token is requested when its slot can be blinded. -/
theorem Matches.exists_mintRequest (h : Matches pk key) {directory : TokenIssuerDirectory}
    (hkey : issuerKeyForEpoch H E directory epoch = .ok pk)
    (hquota : min count directory.quotaPerEpoch = 1) {random : TokenRandom}
    (hrandom : random = deterministicTokenRandom H blindingKey epoch 0)
    (hr : randomCoprime pk.n random fuel (random HASH_LEN (random NONCE_LEN 0).2).2 =
      some (.ok r)) :
    ∃ minting, mintRequest H E directory epoch count blindingKey deviceId fuel =
      some (.ok minting) ∧ minting.pk = pk := by
  obtain ⟨challengeDigest, hcd⟩ := exists_challengeDigest (H := H) directory.issuerName
    directory.contextLabel epoch
  obtain ⟨request, state, hblind⟩ : ∃ request state,
      blindToken H pk challengeDigest { random } fuel = some (.ok (request, state)) :=
    h.exists_blindToken hr
  rw [hrandom] at hblind
  have hlimit : ¬ ARRAY_LIMIT ≤ 0 + 1 := by decide
  have hslots : blindSlots H E pk challengeDigest blindingKey epoch fuel 1 0 =
      some (.ok [(E.base64 request.1, state)]) := by
    simp only [blindSlots, hblind, hlimit, if_false]
  refine ⟨{ pk, states := [state]
            request := { epochs := [{ epoch, blinded := [E.base64 request.1] }], deviceId } },
    ?_, rfl⟩
  simp only [mintRequest, hkey, hquota, hcd, hslots, List.map_cons, List.map_nil]

namespace Account

/-- The account, its batches signed with an RSA key. -/
def signed (H : Hashes) (E : Encodings) (fuel : Nat) (key : RsaKey) (a : Account) : Account :=
  { a with blindSignatures := fun epoch =>
      match mintRequest H E (a.directory epoch) epoch a.quotaPerEpoch a.blindingKey none fuel with
      | some (.ok minting) =>
        minting.request.epochs.flatMap fun e => e.blinded.map (signBlinded E key)
      | _ => [] }

/-- A signed batch fills the quota. -/
theorem length_batch_signed {key : RsaKey}
    (hm : mintRequest H E (a.directory epoch) epoch a.quotaPerEpoch a.blindingKey none fuel =
      some (.ok minting)) (h : Matches minting.pk key) :
    ((a.signed H E fuel key).batch H E fuel epoch).length = a.quotaPerEpoch := by
  obtain ⟨challengeDigest, slots, -, -, hslots, hstates, hrequest⟩ := mintRequest_spec hm
  have hq : (a.directory epoch).quotaPerEpoch = a.quotaPerEpoch := rfl
  rw [hq, min_self] at hslots
  obtain ⟨tokens, htokens, hlen⟩ := h.finalizeTokens hslots
  have hm' : mintRequest H E ((a.signed H E fuel key).directory epoch) epoch
      (a.signed H E fuel key).quotaPerEpoch (a.signed H E fuel key).blindingKey none fuel =
        some (.ok minting) := hm
  have hsigs : (a.signed H E fuel key).blindSignatures epoch =
      slots.map fun slot => signBlinded E key slot.1 := by
    simp only [signed, hm, hrequest, List.flatMap_cons, List.flatMap_nil, List.append_nil,
      List.map_map]
    rfl
  simp only [batch, hm', hsigs, hstates, htokens]
  exact hlen

/-! ## A refresh, event by event -/

/-- A directory of the issuer with the key of one epoch, which lasts an hour. -/
def hourly (a : Account) (epoch : Nat) : TokenIssuerDirectory :=
  { a.directory epoch with epochSecs := 3600 }

def served (a : Account) (epoch : Nat) : TokenIssueResponse :=
  { epochs := [{ epoch, issued := true, blindSignatures := some (a.blindSignatures epoch) }] }

/-- The events of refresh `u`, at the start of an epoch. -/
def refreshEvents (a : Account) (epoch u : Nat) : List TokenEvent :=
  [.refresh (3600 * epoch), .resume u true, .directory u (.ok (a.hourly epoch)) true,
    .issued u (.ok (a.served epoch)), .resume u true]

theorem hourly_publishes (a : Account) (epoch : Nat) : a.Publishes (a.hourly epoch) :=
  ⟨rfl, rfl, rfl, by simp [hourly, directory, a.key_epoch epoch]⟩

theorem served_answers (a : Account) (epoch : Nat) : a.Answers epoch (a.served epoch) = true := by
  simp [Answers, served]

theorem currentEpoch_hourly (a : Account) (epoch : Nat) :
    currentEpoch (a.hourly epoch) (3600 * epoch) = .ok epoch := by
  simp [currentEpoch, hourly]

theorem minted_of_batch (hbatch : a.batch H E fuel epoch ≠ []) :
    ∃ minting, mintRequest H E (a.hourly epoch) epoch a.quotaPerEpoch a.blindingKey none fuel =
        some (.ok minting) ∧
      finalizeTokens H E minting.pk (a.blindSignatures epoch) minting.states =
        .ok (a.batch H E fuel epoch) := by
  unfold batch at hbatch ⊢
  split at hbatch
  next minting hm =>
    split at hbatch
    next tokens hf =>
      refine ⟨minting, hm, ?_⟩
      simp only [hf]
    next => exact absurd rfl hbatch
  next => exact absurd rfl hbatch

end Account

/-- A refresh without a device asks the issuer for the next epoch. -/
theorem TokenState.mintNext_cons {s : TokenState} {pass : Pass}
    (hdevice : s.manager.device = none)
    (hm : mintRequest H E pass.directory epoch pass.directory.quotaPerEpoch pass.blindingKey none
      fuel = some (.ok minting)) :
    s.mintNext H E fuel u saved { pass with rest := epoch :: rest } =
      some ((s.ask (.issue minting.request)).suspend u
        (.minting { pass with rest } epoch none minting)) := by
  simp only [mintNext, mint, hdevice, Option.map_none, hm]

/-- The states of refresh `u` of an hourly directory, each reached from the one before: asked for by
the registration, the directory and the issuer, with the tokens, and at its end. -/
structure ServedRefresh (H : Hashes) (E : Encodings) (fuel : Nat) (a : Account) (epoch : Nat)
    (response : TokenIssueResponse) (tokens : List Token)
    (s s₁ s₂ s₃ s₄ t : TokenState) : Prop where
  refresh : tokenStep H E fuel s (.refresh (3600 * epoch)) = some s₁
  registered : s₁.refreshes s.nextRefresh = some (.registered (3600 * epoch) a.blindingKey)
  resume : tokenStep H E fuel s₁ (.resume s.nextRefresh true) = some s₂
  directory : tokenStep H E fuel s₂ (.directory s.nextRefresh (.ok (a.hourly epoch)) true) = some s₃
  minting : ∃ pass minting, s₃.refreshes s.nextRefresh = some (.minting pass epoch none minting)
  issued : tokenStep H E fuel s₃ (.issued s.nextRefresh (.ok response)) = some s₄
  minted : ∃ pass, s₄.refreshes s.nextRefresh = some (.minted pass epoch tokens)
  manager : s₄.manager = s.manager.adoptDirectory (a.hourly epoch) epoch
  taken : s₄.taken = s.taken
  stocked : tokenStep H E fuel s₄ (.resume s.nextRefresh true) = some t
  result : t.manager = (s.manager.adoptDirectory (a.hourly epoch) epoch).stock epoch tokens ∧
    t.persisted = some (t.manager.bundle E) ∧ t.taken = s.taken ∧
      t.nextRefresh = s.nextRefresh + 1 ∧ t.clock = 3600 * epoch
  refreshes : t.refreshes = Function.update s.refreshes s.nextRefresh none

/-- A refresh whose batch is asked for, and answered with `tokens`. -/
theorem exists_servedRefresh {s : TokenState} {a : Account} {response : TokenIssueResponse}
    (hm : mintRequest H E (a.hourly epoch) epoch a.quotaPerEpoch a.blindingKey none fuel =
      some (.ok minting)) (hmint : mintTokens H E minting epoch response = .ok tokens)
    (hkey : s.manager.blindingKey = some a.blindingKey) (hrevoked : s.manager.revoked = false)
    (hdevice : s.manager.device = none) (hsettled : epoch ∉ s.manager.settled) :
    ∃ s₁ s₂ s₃ s₄ t, ServedRefresh H E fuel a epoch response tokens s s₁ s₂ s₃ s₄ t := by
  generalize hu : s.nextRefresh = u
  let m := s.manager.adoptDirectory (a.hourly epoch) epoch
  have htargets : m.targets (a.hourly epoch) epoch = [epoch] := by
    have hm' : epoch ∉ m.settled := fun h => hsettled (List.mem_of_mem_filter h)
    simp [TokenManager.targets, Account.hourly, Account.directory, a.key_epoch epoch, hm']
  let pass : Pass := { directory := a.hourly epoch, blindingKey := a.blindingKey, rest := [] }
  let s₁ := ({ s with nextRefresh := u + 1, clock := 3600 * epoch } : TokenState).suspend
    u (.registered (3600 * epoch) a.blindingKey)
  let s₂ := ((s₁.wake u).ask .getDirectory).suspend u (.fetching (3600 * epoch) a.blindingKey)
  let s₃ := (({ s₂.wake u with manager := m } : TokenState).ask (.issue minting.request)).suspend u
    (.minting pass epoch none minting)
  let s₄ := (s₃.wake u).suspend u (.minted pass epoch tokens)
  let s₅ := ({ s₄.wake u with manager := m.stock epoch tokens } : TokenState)
    |>.persistAndFinish E u true (.ok ())
  have hr₁ : s₁.refreshes u = some (.registered (3600 * epoch) a.blindingKey) :=
    Function.update_self ..
  have hr₂ : s₂.refreshes u = some (.fetching (3600 * epoch) a.blindingKey) :=
    Function.update_self ..
  have hr₃ : s₃.refreshes u = some (.minting pass epoch none minting) := Function.update_self ..
  have hr₄ : s₄.refreshes u = some (.minted pass epoch tokens) := Function.update_self ..
  have h₁ : tokenStep H E fuel s (.refresh (3600 * epoch)) = some s₁ := by
    simp only [tokenStep, TokenState.refresh, hkey, hrevoked, hdevice, hu]
    rfl
  have h₂ : tokenStep H E fuel s₁ (.resume u true) = some s₂ := by
    simp only [tokenStep, hr₁, s₂]
  have h₃ : tokenStep H E fuel s₂ (.directory u (.ok (a.hourly epoch)) true) = some s₃ := by
    simp only [tokenStep, hr₂, TokenState.fetched, Account.currentEpoch_hourly]
    have hnext : ({ s₂.wake u with manager := m } : TokenState).mintNext H E fuel u true
        { pass with rest := [epoch] } = some s₃ := TokenState.mintNext_cons hdevice hm
    rw [← htargets] at hnext
    exact hnext
  have h₄ : tokenStep H E fuel s₃ (.issued u (.ok response)) = some s₄ := by
    simp only [tokenStep, hr₃, TokenState.issued, hmint, s₄]
  have h₅ : tokenStep H E fuel s₄ (.resume u true) = some s₅ := by
    have hrev : (s₄.wake u).manager.revoked = false := hrevoked
    simp only [tokenStep, hr₄, TokenState.stocked, hrev, Bool.false_eq_true, if_false]
    rfl
  have hrefreshes : s₅.refreshes = Function.update s.refreshes u none := by
    simp [s₅, s₄, s₃, s₂, s₁, TokenState.persistAndFinish, TokenState.persist, TokenState.finish,
      TokenState.wake, TokenState.suspend, TokenState.ask]
  subst hu
  exact ⟨s₁, s₂, s₃, s₄, s₅, h₁, hr₁, h₂, h₃, ⟨_, _, hr₃⟩, h₄, ⟨_, hr₄⟩, rfl, rfl, h₅,
    ⟨rfl, rfl, rfl, rfl, rfl⟩, hrefreshes⟩

namespace Account

/-- A refresh that is served stocks the batch and saves it: `v` is where it goes on with the tokens,
and nothing was stocked before. -/
theorem exec_refreshEvents (fuel : Nat) (ok : TokenState → TokenEvent → Bool) {s : TokenState}
    (hok : ok s (.refresh (3600 * epoch)) = true)
    (hrest : ∀ t, ∀ e ∈ (a.refreshEvents epoch s.nextRefresh).tail, ok t e = true)
    (hkey : s.manager.blindingKey = some a.blindingKey) (hrevoked : s.manager.revoked = false)
    (hdevice : s.manager.device = none) (hsettled : epoch ∉ s.manager.settled)
    (hbatch : a.batch H E fuel epoch ≠ []) :
    ∃ v t, Run (a.step H E fuel) (fun s e => s.stocking e = none) s v ∧
      v.manager = s.manager.adoptDirectory (a.hourly epoch) epoch ∧ v.taken = s.taken ∧
      a.step H E fuel v (.resume s.nextRefresh true) = some t ∧
      exec (a.step H E fuel) ok s (a.refreshEvents epoch s.nextRefresh) = some t ∧
      t.manager = (s.manager.adoptDirectory (a.hourly epoch) epoch).stock epoch
        (a.batch H E fuel epoch) ∧
      t.persisted = some (t.manager.bundle E) ∧ t.taken = s.taken ∧
      t.nextRefresh = s.nextRefresh + 1 ∧ t.clock = 3600 * epoch := by
  obtain ⟨minting, hm, hf⟩ := minted_of_batch hbatch
  have hmint : mintTokens H E minting epoch (a.served epoch) = .ok (a.batch H E fuel epoch) := by
    simp [mintTokens, served, hf]
  obtain ⟨s₁, s₂, s₃, s₄, t, h⟩ := exists_servedRefresh hm hmint hkey hrevoked hdevice hsettled
  have h₁ : a.step H E fuel s (.refresh (3600 * epoch)) = some s₁ := by
    simp only [step, Serves, if_true, h.refresh]
  have h₂ : a.step H E fuel s₁ (.resume s.nextRefresh true) = some s₂ := by
    simp only [step, Serves, if_true, h.resume]
  have h₃ : a.step H E fuel s₂ (.directory s.nextRefresh (.ok (a.hourly epoch)) true) =
      some s₃ := by
    simp only [step, Serves, hourly_publishes, decide_true, if_true, h.directory]
  have h₄ : a.step H E fuel s₃ (.issued s.nextRefresh (.ok (a.served epoch))) = some s₄ := by
    obtain ⟨pass, minting, hr⟩ := h.minting
    simp only [step, Serves, hr, served_answers, if_true, h.issued]
  have h₅ : a.step H E fuel s₄ (.resume s.nextRefresh true) = some t := by
    simp only [step, Serves, if_true, h.stocked]
  have hrun : Run (a.step H E fuel) (fun s e => s.stocking e = none) s s₄ := by
    have hstocking : s₁.stocking (.resume s.nextRefresh true) = none := by
      simp only [TokenState.stocking, h.registered]
    have hrun₁ : Run (a.step H E fuel) (fun s e => s.stocking e = none) s s₁ := .single rfl h₁
    have hrun₂ : Run (a.step H E fuel) (fun s e => s.stocking e = none) s s₂ :=
      hrun₁.tail hstocking h₂
    have hrun₃ : Run (a.step H E fuel) (fun s e => s.stocking e = none) s s₃ := hrun₂.tail rfl h₃
    exact hrun₃.tail rfl h₄
  refine ⟨s₄, t, hrun, h.manager, h.taken, h₅, ?_, h.result⟩
  simp only [refreshEvents, List.tail_cons, List.forall_mem_cons] at hrest
  rw [refreshEvents, exec_cons_of_step _ hok h₁, exec_cons_of_step _ (hrest s₁).1 h₂,
    exec_cons_of_step _ (hrest s₂).2.1 h₃, exec_cons_of_step _ (hrest s₃).2.2.1 h₄,
    exec_cons_of_step _ (hrest s₄).2.2.2.1 h₅, exec]

end Account

end WarrenSdk.Core
