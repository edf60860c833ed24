import WarrenSdk.Core.Edge.TokenAccount
import WarrenSdk.Core.Edge.TokenSteps

/-!
# The stock of a manager

Every event of the managers of an account is a change of a stock with a saved copy, and what a
refresh is about to stock is the batch of its epoch.
-/

namespace WarrenSdk.Core
open Lib

variable {H : Hashes} {E : Encodings} {fuel : Nat} {a : Account}

/-! ## Refreshes of the account -/

/-- A pass over a directory of the issuer, with the account's key. -/
structure Pass.Fine (a : Account) (pass : Pass) : Prop where
  directory : a.Publishes pass.directory
  blindingKey : pass.blindingKey = a.blindingKey

/-- What a suspended refresh of the account carries. -/
def Refresh.Fine (H : Hashes) (E : Encodings) (fuel : Nat) (a : Account) : Refresh → Prop
  | .registering _ key => key = a.blindingKey
  | .registered _ key => key = a.blindingKey
  | .fetching _ key => key = a.blindingKey
  | .minting pass epoch _ m =>
    pass.Fine a ∧ ∃ deviceId, mintRequest H E pass.directory epoch pass.directory.quotaPerEpoch
      a.blindingKey deviceId fuel = some (.ok m)
  | .minted pass epoch tokens => pass.Fine a ∧ tokens = a.batch H E fuel epoch
  | .mintFailed pass _ _ _ => pass.Fine a
  | .reregistering pass _ _ => pass.Fine a
  | .failed pass _ _ => pass.Fine a

/-- Every manager of a run, and every refresh in flight, is one of the account. -/
structure TokenState.OfAccount (H : Hashes) (E : Encodings) (fuel : Nat) (a : Account)
    (s : TokenState) : Prop where
  blindingKey : s.manager.blindingKey = none ∨ s.manager.blindingKey = some a.blindingKey
  refreshes : ∀ {u r}, s.refreshes u = some r → r.Fine H E fuel a

namespace TokenState

/-- `t` is `s` with other refreshes, which are all fine: the stock is as it was, and may have been
saved. -/
structure Goes (H : Hashes) (E : Encodings) (fuel : Nat) (a : Account) (s t : TokenState) :
    Prop where
  stored : t.manager.stored = s.manager.stored
  blindingKey : t.manager.blindingKey = s.manager.blindingKey
  taken : t.taken = s.taken
  persisted : t.persisted = s.persisted ∨
    ∃ m : TokenManager, m.stored = t.manager.stored ∧ t.persisted = some (m.bundle E)
  refreshes : ∀ {u r}, t.refreshes u = some r → s.refreshes u = some r ∨ r.Fine H E fuel a

namespace Goes

theorem refl (s : TokenState) : Goes H E fuel a s s := ⟨rfl, rfl, rfl, .inl rfl, .inl⟩

theorem trans (h : Goes H E fuel a s t) (h' : Goes H E fuel a t u) : Goes H E fuel a s u where
  stored := h'.stored.trans h.stored
  blindingKey := h'.blindingKey.trans h.blindingKey
  taken := h'.taken.trans h.taken
  persisted := by
    rcases h'.persisted with hp | hp
    · rw [hp, h'.stored]
      exact h.persisted
    · exact .inr hp
  refreshes hr := by
    rcases h'.refreshes hr with hr | hr
    · exact h.refreshes hr
    · exact .inr hr

theorem suspend (s : TokenState) (u : Nat) (hr : r.Fine H E fuel a) :
    Goes H E fuel a s (s.suspend u r) where
  stored := rfl
  blindingKey := rfl
  taken := rfl
  persisted := .inl rfl
  refreshes {v r'} h := by
    rcases eq_or_ne v u with rfl | hv
    · simp only [TokenState.suspend, Function.update_self, Option.some.injEq] at h
      exact .inr (h ▸ hr)
    · simp only [TokenState.suspend, Function.update_of_ne hv] at h
      exact .inl h

theorem wake (s : TokenState) (u : Nat) : Goes H E fuel a s (s.wake u) where
  stored := rfl
  blindingKey := rfl
  taken := rfl
  persisted := .inl rfl
  refreshes {v r'} h := by
    rcases eq_or_ne v u with rfl | hv
    · simp only [TokenState.wake, Function.update_self] at h
      cases h
    · simp only [TokenState.wake, Function.update_of_ne hv] at h
      exact .inl h

theorem finish (s : TokenState) (u : Nat) (result : Except Failure Unit) :
    Goes H E fuel a s (s.finish u result) := ⟨rfl, rfl, rfl, .inl rfl, .inl⟩

theorem ask (s : TokenState) (request : Sent) : Goes H E fuel a s (s.ask request) :=
  ⟨rfl, rfl, rfl, .inl rfl, .inl⟩

theorem persistAndFinish (s : TokenState) (u : Nat) (saved : Bool) (result : Except Failure Unit) :
    Goes H E fuel a s (s.persistAndFinish E u saved result) := by
  cases saved with
  | true => exact ⟨rfl, rfl, rfl, .inr ⟨s.manager, rfl, rfl⟩, .inl⟩
  | false => exact finish s u _

theorem adopt (s : TokenState) (view : DeviceView) : Goes H E fuel a s (s.adopt view) := by
  unfold TokenState.adopt
  split
  · exact refl s
  · split
    · exact refl s
    · exact ⟨rfl, rfl, rfl, .inl rfl, .inl⟩

end Goes

/-! ## What the parts of a refresh do -/

theorem mint_goes {pass : Pass} (hp : pass.Fine a)
    (h : s.mint H E fuel u pass epoch device = some t) : Goes H E fuel a s t := by
  unfold mint at h
  split at h
  · cases h
  · cases h
    exact .suspend s u hp
  next minting hm =>
    cases h
    rw [hp.blindingKey] at hm
    exact (Goes.ask s _).trans (.suspend _ u ⟨hp, _, hm⟩)

theorem mintNext_goes {pass : Pass} (hp : pass.Fine a)
    (h : s.mintNext H E fuel u saved pass = some t) : Goes H E fuel a s t := by
  unfold mintNext at h
  split at h
  · cases h
    exact .persistAndFinish s u saved _
  next rest _ =>
    have hp' : Pass.Fine a { pass with rest } := ⟨hp.directory, hp.blindingKey⟩
    exact mint_goes hp' h

theorem refresh_goes (hs : s.OfAccount H E fuel a) (u now : Nat) :
    Goes H E fuel a s (s.refresh u now) := by
  unfold refresh
  split
  · exact .finish s u _
  next key hkey =>
    have hkey : key = a.blindingKey := by
      rcases hs.blindingKey with h | h
      · cases hkey.symm.trans h
      · exact Option.some.inj (hkey.symm.trans h)
    split
    · exact .finish s u _
    · split
      · exact .suspend s u hkey
      · exact (Goes.ask s _).trans (.suspend _ u hkey)

theorem issued_goes {pass : Pass} {minting : Minting}
    (hr : (Refresh.minting pass epoch device minting).Fine H E fuel a)
    (ha : ∀ {response}, answer = .ok response → a.Answers epoch response = true) :
    Goes H E fuel a s (s.issued H E u pass epoch device minting answer) := by
  obtain ⟨hp, deviceId, hm⟩ := hr
  unfold issued
  split
  · exact .suspend s u hp
  next response =>
    split
    · exact .suspend s u hp
    next tokens ht =>
      refine .suspend s u ⟨hp, ?_⟩
      unfold mintTokens at ht
      split at ht
      · cases ht
      next r hfind =>
        split at ht
        next hissued =>
          have hserved := ha rfl
          simp only [Account.Answers, hfind, hissued, Bool.not_true, Bool.false_or,
            decide_eq_true_eq] at hserved
          rw [hserved] at ht
          exact hp.directory.minted_eq_batch hm ht
        next => cases ht

theorem mintFailed_goes {pass : Pass} (hp : pass.Fine a) :
    Goes H E fuel a s (s.mintFailed u pass epoch device error) := by
  unfold mintFailed
  split
  · split
    · exact (Goes.ask s _).trans (.suspend _ u ⟨hp.directory, hp.blindingKey⟩)
    · exact .suspend s u hp
  · exact .suspend s u hp

theorem reregistered_goes {pass : Pass} (hp : pass.Fine a)
    (h : s.reregistered H E fuel u pass epoch device answer = some t) : Goes H E fuel a s t := by
  unfold reregistered at h
  split at h
  · cases h
    exact .suspend s u hp
  · exact (Goes.adopt s _).trans (mint_goes hp h)

/-! ## What an event does to the stock -/

/-- Some of the stock is lost, if anything happens to it. -/
def Loses (H : Hashes) (E : Encodings) (fuel : Nat) (a : Account) (s t : TokenState) : Prop :=
  ∃ m : TokenManager, (∀ epoch, m.stored epoch <+: s.manager.stored epoch) ∧
    m.blindingKey = s.manager.blindingKey ∧ Goes H E fuel a { s with manager := m } t

theorem Goes.loses (h : Goes H E fuel a s t) : Loses H E fuel a s t :=
  ⟨s.manager, fun _ => List.prefix_rfl, rfl, h⟩

theorem Goes.of_wake {s : TokenState} {m : TokenManager}
    (h : Goes H E fuel a { s.wake u with manager := m } t) :
    Goes H E fuel a { s with manager := m } t := (Goes.wake { s with manager := m } u).trans h

theorem Loses.of_wake (h : Loses H E fuel a (s.wake u) t) : Loses H E fuel a s t := by
  obtain ⟨m, hm, hkey, h⟩ := h
  exact ⟨m, hm, hkey, h.of_wake⟩

/-- The tokens that an event stocks, and their epoch: a refresh that goes on with them stocks them
unless the device was revoked meanwhile. -/
def stocking (s : TokenState) : TokenEvent → Option (Nat × List Token)
  | .resume u _ =>
    match s.refreshes u with
    | some (.minted _ epoch tokens) => if s.manager.revoked then none else some (epoch, tokens)
    | _ => none
  | _ => none

/-- What an event of the account does to the stock. -/
inductive Effect (H : Hashes) (E : Encodings) (fuel : Nat) (a : Account) (s : TokenState) :
    TokenEvent → TokenState → Prop
  | lost (h : Loses H E fuel a s t) : Effect H E fuel a s e t
  /-- The batch of an epoch is stocked. -/
  | stocked (epoch : Nat) (tokens : List Token) (hstock : s.stocking e = some (epoch, tokens))
    (htokens : tokens = a.batch H E fuel epoch)
    (h : Goes H E fuel a { s with manager := s.manager.stock epoch tokens } t) :
    Effect H E fuel a s e t
  /-- A token was taken, and its removal saved. -/
  | took (m : TokenManager) (token : TokenBytes) (now : Nat)
    (hpop : s.manager.popCurrent now = some (token, m)) :
    Effect H E fuel a s e
      { s with manager := m, persisted := some (m.bundle E), taken := s.taken ++ [token]
               clock := now }
  | restarted (options : TokenManagerOptions) (hkey : a.Constructs options) :
    Effect H E fuel a s e (s.restart E options)

end TokenState

namespace TokenState

theorem stored_dropStock (m : TokenManager) (epoch : Nat) :
    m.dropStock.stored epoch <+: m.stored epoch := List.nil_prefix

theorem startRegistered_loses (hkey : key = a.blindingKey) :
    Loses H E fuel a s (s.startRegistered E u now key saved answer) := by
  have hgoes (s : TokenState) : Goes H E fuel a s (s.suspend u (.registered now key)) :=
    .suspend s u hkey
  unfold startRegistered
  split
  · exact ((Goes.adopt s _).trans (hgoes _)).loses
  · split
    · exact ⟨_, stored_dropStock s.manager, rfl, .persistAndFinish _ u saved _⟩
    · split
      · exact (Goes.finish s u _).loses
      · exact (hgoes s).loses
  · exact (hgoes s).loses

theorem fetched_loses (hkey : key = a.blindingKey)
    (hd : ∀ {directory}, answer = .ok directory → a.Publishes directory)
    (h : s.fetched H E fuel u now key saved answer = some t) : Loses H E fuel a s t := by
  unfold fetched at h
  split at h
  · cases h
    exact (Goes.finish s u _).loses
  next directory =>
    split at h
    · cases h
      exact (Goes.finish s u _).loses
    next current _ =>
      have hp : Pass.Fine a
          { directory, blindingKey := key
            rest := (s.manager.adoptDirectory directory current).targets directory current } :=
        ⟨hd rfl, hkey⟩
      exact ⟨s.manager.adoptDirectory directory current, s.manager.stored_pruneBefore current,
        rfl, mintNext_goes hp h⟩

theorem caught_loses {pass : Pass} (hp : pass.Fine a)
    (h : s.caught H E fuel u saved pass epoch error = some t) : Loses H E fuel a s t := by
  unfold caught at h
  split at h
  · split at h
    · cases h
      exact ⟨_, stored_dropStock s.manager, rfl, .persistAndFinish _ u saved _⟩
    · split at h
      · cases h
        exact (Goes.persistAndFinish s u saved _).loses
      · exact (mintNext_goes hp h).loses
  · split at h
    · refine ⟨s.manager.settle epoch, fun j => ?_, ?_, mintNext_goes hp h⟩
      · rw [TokenManager.stored, TokenManager.store_settle]
        exact List.prefix_rfl
      · exact s.manager.blindingKey_settle epoch
    · exact (mintNext_goes hp h).loses
  · exact (mintNext_goes hp h).loses

/-- A refresh that stocks tokens stocks the batch of the epoch. -/
theorem tokenStep_stocking (hs : s.OfAccount H E fuel a)
    (hstock : s.stocking e = some (epoch, tokens)) (h : tokenStep H E fuel s e = some t) :
    tokens = a.batch H E fuel epoch ∧
      Goes H E fuel a { s with manager := s.manager.stock epoch tokens } t := by
  unfold stocking at hstock
  split at hstock
  next u saved =>
    split at hstock
    next pass _ _ hr =>
      split at hstock
      · cases hstock
      next hrevoked =>
        cases hstock
        obtain ⟨hp, htokens⟩ := hs.refreshes hr
        simp only [tokenStep, hr, stocked] at h
        rw [if_neg (by simpa [wake] using hrevoked)] at h
        exact ⟨htokens, (mintNext_goes hp h).of_wake⟩
    next => cases hstock
  next => cases hstock

/-- The step lemma: whatever happens to the managers of an account, one of these happens to their
stock. -/
theorem tokenStep_effect (hs : s.OfAccount H E fuel a) (hserves : a.Serves s e = true)
    (h : tokenStep H E fuel s e = some t) : Effect H E fuel a s e t := by
  rcases hstock : s.stocking e with _ | ⟨epoch, tokens⟩
  case some =>
    obtain ⟨htokens, h⟩ := tokenStep_stocking hs hstock h
    exact .stocked epoch tokens hstock htokens h
  cases e with
  | refresh now =>
    cases h
    have hgoes : Goes H E fuel a s { s with nextRefresh := s.nextRefresh + 1, clock := now } :=
      ⟨rfl, rfl, rfl, .inl rfl, .inl⟩
    have hs' : OfAccount H E fuel a { s with nextRefresh := s.nextRefresh + 1, clock := now } :=
      ⟨hs.blindingKey, hs.refreshes⟩
    exact .lost (hgoes.trans (refresh_goes hs' _ now)).loses
  | takeCurrentStack now saved =>
    cases h
    unfold takeCurrentStack
    have hclock (m : TokenManager) :
        Goes H E fuel a { s with manager := m } { s with manager := m, clock := now } :=
      ⟨rfl, rfl, rfl, .inl rfl, .inl⟩
    split
    · exact .lost (hclock s.manager).loses
    next token m hpop =>
      cases saved with
      | true => exact .took m token now hpop
      | false =>
        -- the token is lost: its removal is not saved, and it is not handed out
        obtain ⟨epoch, rest, -, hheld, hrest, hkey⟩ := TokenManager.popCurrent_spec hpop
        refine .lost ⟨m, fun j => ?_, hkey, hclock m⟩
        rw [hrest]
        exact Stock.update_shrinks hheld j
  | restart options =>
    cases h
    exact .restarted options (by simpa [Account.Serves] using hserves)
  | setDeviceName name =>
    cases h
    exact .lost ⟨s.manager, fun _ => List.prefix_rfl, rfl, rfl, rfl, rfl, .inl rfl, .inl⟩
  | registered u answer saved =>
    unfold tokenStep at h
    simp only at h
    split at h
    next now key hr =>
      cases h
      exact .lost (startRegistered_loses (hs.refreshes hr)).of_wake
    next pass epoch device hr =>
      exact .lost ((Goes.wake s u).trans (reregistered_goes (hs.refreshes hr) h)).loses
    next => cases h
  | directory u answer saved =>
    unfold tokenStep at h
    simp only at h
    split at h
    next now key hr =>
      refine .lost (fetched_loses (hs.refreshes hr) ?_ h).of_wake
      rintro directory rfl
      simpa [Account.Serves] using hserves
    next => cases h
  | issued u answer =>
    unfold tokenStep at h
    simp only at h
    split at h
    next pass epoch device minting hr =>
      cases h
      refine .lost ((Goes.wake s u).trans (issued_goes (hs.refreshes hr) ?_)).loses
      rintro response rfl
      simpa [Account.Serves, hr] using hserves
    next => cases h
  | resume u saved =>
    unfold tokenStep at h
    simp only at h
    split at h
    next now key hr =>
      cases h
      have hgoes : Goes H E fuel a s ((s.wake u).ask .getDirectory) :=
        (Goes.wake s u).trans (.ask _ _)
      have hkey : key = a.blindingKey := hs.refreshes hr
      exact .lost (hgoes.trans (.suspend _ u (r := .fetching now key) hkey)).loses
    next pass epoch tokens hr =>
      have hrevoked : s.manager.revoked = true := by
        simpa [stocking, hr] using hstock
      obtain ⟨hp, -⟩ := hs.refreshes hr
      unfold stocked at h
      rw [if_pos (by simpa [wake] using hrevoked)] at h
      exact .lost ((Goes.wake s u).trans (mintNext_goes hp h)).loses
    next pass epoch device error hr =>
      cases h
      exact .lost ((Goes.wake s u).trans (mintFailed_goes (hs.refreshes hr))).loses
    next pass epoch error hr =>
      exact .lost (caught_loses (hs.refreshes hr) h).of_wake
    next => cases h

/-! ## Runs -/

/-- The managers of the account stay so. -/
theorem Effect.ofAccount (hs : s.OfAccount H E fuel a) (h : Effect H E fuel a s e t) :
    t.OfAccount H E fuel a := by
  have hgoes {m : TokenManager} (hkey : m.blindingKey = s.manager.blindingKey)
      (h : Goes H E fuel a { s with manager := m } t) : t.OfAccount H E fuel a :=
    ⟨by rw [h.blindingKey, hkey]; exact hs.blindingKey,
      fun hr => (h.refreshes hr).elim (fun hr => hs.refreshes hr) fun hr => hr⟩
  cases h with
  | lost h =>
    obtain ⟨m, -, hkey, h⟩ := h
    exact hgoes hkey h
  | stocked epoch tokens hstock htokens h =>
    exact hgoes (TokenManager.blindingKey_stock s.manager _ _) h
  | took m token now hpop =>
    obtain ⟨-, -, -, -, -, hkey⟩ := TokenManager.popCurrent_spec hpop
    exact ⟨hkey ▸ hs.blindingKey, hs.refreshes⟩
  | restarted options hkey =>
    refine ⟨?_, nofun⟩
    rw [restart, TokenManager.blindingKey_new]
    exact hkey

/-- The stock of the manager, what a manager constructed over the persistence would hold, and the
tokens that were taken. -/
def stock (E : Encodings) (s : TokenState) : Stock Nat TokenBytes :=
  { memory := s.manager.stored, saved := (TokenManager.new E {} s.persisted).stored
    taken := s.taken }

variable {may : Stock Nat TokenBytes → Nat → List TokenBytes → Prop}

theorem Goes.changes (h : Goes H E fuel a s t) : Stock.Changes may (s.stock E) (t.stock E) := by
  rcases h.persisted with hp | ⟨m, hm, hp⟩
  · rw [stock, stock, h.stored, h.taken, hp]
  · have hsaved : t.stock E = { s.stock E with saved := (s.stock E).memory } := by
      rw [stock, stock, hp, TokenManager.stored_new_bundle, hm, h.stored, h.taken]
    rw [hsaved]
    exact .single .save

/-- Every event is a change of the stock. -/
theorem Effect.changes (h : Effect H E fuel a s e t)
    (hmay : ∀ {epoch tokens}, s.stocking e = some (epoch, tokens) →
      tokens = a.batch H E fuel epoch → may (s.stock E) epoch (tokens.map (·.serialize))) :
    Stock.Changes may (s.stock E) (t.stock E) := by
  cases h with
  | lost h =>
    obtain ⟨m, hm, -, h⟩ := h
    have hshrink : Stock.Changes may (s.stock E) (({ s with manager := m } : TokenState).stock E) :=
      .single (.shrink m.stored hm)
    exact hshrink.trans h.changes
  | stocked epoch tokens hstock htokens h =>
    have hadd : Stock.Changes may (s.stock E)
        (({ s with manager := s.manager.stock epoch tokens } : TokenState).stock E) := by
      simp only [stock, TokenManager.stored_stock]
      exact .single (.add epoch _ (hmay hstock htokens))
    exact hadd.trans h.changes
  | took m token now hpop =>
    obtain ⟨epoch, rest, -, hheld, hrest, -⟩ := TokenManager.popCurrent_spec hpop
    simp only [stock, TokenManager.stored_new_bundle, hrest]
    exact .single (.take epoch rest token hheld)
  | restarted options hkey =>
    have hreload : (s.restart E options).stock E =
        { s.stock E with memory := (s.stock E).saved } := by
      rw [stock, stock, restart, TokenManager.stored_new options {}]
    rw [hreload]
    exact .single .reload

end TokenState

end WarrenSdk.Core
