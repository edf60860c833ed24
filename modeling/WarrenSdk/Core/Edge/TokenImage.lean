import Mathlib.Data.List.Sort
import WarrenSdk.Core.Edge.TokenReuse
import WarrenSdk.Core.Edge.TokenSteps

/-!
# The saved image of the stock

A manager that is at rest holds what a new one over the same persistence loads. The epochs it lists
are those it holds tokens for, unless an issuer issued an epoch without signing anything: such an
epoch is stocked without a token.
-/

namespace WarrenSdk.Core
open Lib

variable {H : Hashes} {E : Encodings} {fuel : Nat}

namespace TokenManager

/-- No epoch is stocked without a token. -/
def Filled (m : TokenManager) : Prop := ∀ epoch, m.store.get epoch ≠ some []

/-- A batch that leaves no epoch without a token. -/
def Fills (m : TokenManager) (epoch : Nat) (tokens : List Token) : Prop :=
  tokens ≠ [] ∨ m.stored epoch ≠ []

theorem Change.filled {m n : TokenManager} (h : m.Change m.Fills n) (hm : m.Filled) : n.Filled := by
  intro epoch
  cases h with
  | same => exact hm epoch
  | adopted directory current =>
    have hkept : (m.adoptDirectory directory current).store =
        m.store.filterKeys fun epoch => !(epoch < current) := rfl
    rw [hkept, OrderedMap.get_filterKeys]
    split
    · exact hm epoch
    · intro hget
      cases hget
  | stocked minted tokens _ hmay =>
    intro hget
    have hstored : (m.stock minted tokens).stored epoch = [] := by
      rw [stored, hget]
      rfl
    rw [stored_stock] at hstored
    rcases eq_or_ne epoch minted with rfl | hne
    · rw [Function.update_self] at hstored
      obtain ⟨hold, hnew⟩ := List.append_eq_nil_iff.mp hstored
      rcases hmay with hmay | hmay
      · exact hmay (List.map_eq_nil_iff.mp hnew)
      · exact hmay hold
    · have hsame : (m.stock minted tokens).store.get epoch = m.store.get epoch := by
        unfold stock
        simp only [store_settle]
        split <;> rw [OrderedMap.get_set, if_neg hne]
      exact hm epoch (hsame.symm.trans hget)
  | settled settled => rw [store_settle]; exact hm epoch

theorem Change.epochSecs {m n : TokenManager} (h : m.Change may n) (hm : m.epochSecs ≠ some 0) :
    n.epochSecs ≠ some 0 := by
  cases h with
  | same => exact hm
  | adopted directory current hpos =>
    intro hzero
    have hzero : directory.epochSecs = 0 := Option.some.inj hzero
    omega
  | stocked epoch tokens => rw [epochSecs_stock]; exact hm
  | settled epoch =>
    unfold settle
    split <;> exact hm

theorem filled_popCurrent {m : TokenManager} (h : m.popCurrent now = some (token, n))
    (hm : m.Filled) : n.Filled := by
  intro epoch
  unfold popCurrent at h
  split at h
  · cases h
  · split at h
    · cases h
    · split at h
      · cases h
      · cases h
        dsimp only
        split
        · rw [OrderedMap.get_delete]
          split
          · intro hget
            cases hget
          · exact hm epoch
        next hne =>
          rw [OrderedMap.get_set]
          split
          · intro hnil
            exact hne (by rw [Option.some.inj hnil]; rfl)
          · exact hm epoch

theorem epochSecs_popCurrent {m : TokenManager} (h : m.popCurrent now = some (token, n)) :
    n.epochSecs = m.epochSecs := by
  unfold popCurrent at h
  split at h
  · cases h
  · split at h
    · cases h
    · split at h
      · cases h
      · cases h
        rfl

/-! ## Loading -/

theorem filled_loadEpoch {store : OrderedMap Nat (List TokenBytes)}
    (h : ∀ epoch, store.get epoch ≠ some []) (entry : Utf16 × Json) (epoch : Nat) :
    (loadEpoch E store entry).get epoch ≠ some [] := by
  unfold loadEpoch
  split
  · split
    · dsimp only
      split
      next hpos =>
        rw [OrderedMap.get_set]
        split
        · intro hnil
          rw [Option.some.inj hnil] at hpos
          cases hpos
        · exact h epoch
      · exact h epoch
    · exact h epoch
  · exact h epoch

theorem filled_new (options : TokenManagerOptions) (raw : Option Json) :
    (TokenManager.new E options raw).Filled := by
  have hall (entries : List (Utf16 × Json)) (store : OrderedMap Nat (List TokenBytes))
      (h : ∀ epoch, store.get epoch ≠ some []) (epoch : Nat) :
      (entries.foldl (loadEpoch E) store).get epoch ≠ some [] := by
    induction entries generalizing store with
    | nil => exact h epoch
    | cons entry entries ih => exact ih _ (filled_loadEpoch h entry)
  intro epoch
  rw [new, store_loadPersisted]
  exact hall _ _ (fun epoch => by simp) epoch

/-- The epoch length that a bundle brings back. -/
def loadedSecs : Option Json → Option Nat
  | some (.object bundle) =>
    if (Json.member bundle (.ofString "v")).bind Json.nat? = some BUNDLE_VERSION then
      match (Json.member bundle (.ofString "epochSecs")).bind Json.nat? with
      | some secs => if 0 < secs then some secs else none
      | none => none
    else none
  | _ => none

theorem epochSecs_new (options : TokenManagerOptions) (raw : Option Json) :
    (TokenManager.new E options raw).epochSecs = loadedSecs raw := by
  have hsecs (bundle : List (Utf16 × Json)) (m : TokenManager) (hm : m.epochSecs = none) :
      (loadEpochSecs bundle m).epochSecs =
        match (Json.member bundle (.ofString "epochSecs")).bind Json.nat? with
        | some secs => if 0 < secs then some secs else none
        | none => none := by
    unfold loadEpochSecs
    cases (Json.member bundle (.ofString "epochSecs")).bind Json.nat? with
    | none => exact hm
    | some secs =>
      dsimp only
      split
      · rfl
      · exact hm
  rcases raw with _ | bundle
  · rfl
  · cases bundle with
    | object bundle =>
      by_cases hv : (Json.member bundle (.ofString "v")).bind Json.nat? = some BUNDLE_VERSION
      · cases he : Json.member bundle (.ofString "epochs") with
        | none =>
          simp only [new, loadPersisted, loadedSecs, hv, he, if_true]
          exact hsecs bundle _ rfl
        | some epochs =>
          simp only [new, loadPersisted, loadedSecs, hv, he, if_true]
          exact hsecs bundle _ rfl
      · simp only [new, loadPersisted, loadedSecs, hv, if_false]
    | _ => rfl

theorem loadedSecs_ne (raw : Option Json) : loadedSecs raw ≠ some 0 := by
  unfold loadedSecs
  split
  · split
    · split
      · split
        next hpos =>
          intro h
          rw [Option.some.inj h] at hpos
          cases hpos
        · nofun
      · nofun
    · nofun
  · nofun

theorem loadedSecs_bundle {m : TokenManager} (hm : m.epochSecs ≠ some 0) :
    loadedSecs (some (m.bundle E)) = m.epochSecs := by
  have hv (rest : List (Utf16 × Json)) :
      Json.member ((.ofString "v", .number BUNDLE_VERSION) :: rest) (.ofString "v") =
        some (.number BUNDLE_VERSION) := rfl
  have hsecs (v secs : Json) (rest : List (Utf16 × Json)) :
      Json.member ((.ofString "v", v) :: (.ofString "epochSecs", secs) :: rest)
        (.ofString "epochSecs") = some secs := rfl
  simp only [loadedSecs, bundle, hv, hsecs, Option.bind_some, Json.nat?_natCast, if_true]
  cases hm' : m.epochSecs with
  | none => rfl
  | some secs => exact if_pos (Nat.pos_of_ne_zero fun h => hm (hm'.trans (h ▸ rfl)))

/-! ## The epochs -/

theorem Filled.mem_epochs {m : TokenManager} (h : m.Filled) (epoch : Nat) :
    epoch ∈ m.epochs ↔ m.stored epoch ≠ [] := by
  rw [epochs, List.mem_mergeSort, ← OrderedMap.get_isSome_iff, stored]
  have hne := h epoch
  cases hget : m.store.get epoch with
  | none => simp
  | some tokens =>
    rw [hget] at hne
    simpa using hne

theorem pairwise_epochs (m : TokenManager) : m.epochs.Pairwise (· < ·) := by
  have hsorted : m.epochs.Pairwise (· ≤ ·) := by
    have h : m.epochs.Pairwise fun a b => decide (a ≤ b) = true := by
      refine List.pairwise_mergeSort (fun a b c hab hbc => ?_) (fun a b => ?_) m.store.keys
      · exact decide_eq_true (Nat.le_trans (of_decide_eq_true hab) (of_decide_eq_true hbc))
      · rcases Nat.le_total a b with hle | hle
        · simp [hle]
        · simp [hle]
    exact h.imp of_decide_eq_true
  have hnodup : m.epochs.Nodup := (List.mergeSort_perm m.store.keys _).nodup_iff.mpr m.store.nodup
  exact (hsorted.and hnodup).imp fun h => Nat.lt_of_le_of_ne h.1 h.2

end TokenManager

namespace TokenState

/-- A new manager over the persistence holds what the manager holds. -/
def Mirrors (E : Encodings) (s : TokenState) : Prop := ∀ options,
  (TokenManager.new E options s.persisted).stored = s.manager.stored ∧
    (TokenManager.new E options s.persisted).epochSecs = s.manager.epochSecs

/-- Whatever is in flight is saved by the refresh that is in its pass. -/
structure Imaged (E : Encodings) (s : TokenState) : Prop where
  numbered : s.Numbered
  filled : s.manager.Filled
  epochSecs : s.manager.epochSecs ≠ some 0
  mirrors : s.Mirrors E ∨ ∃ u r, s.refreshes u = some r ∧ r.InPass

theorem mirrors_of_bundle {s : TokenState} (hp : s.persisted = some (s.manager.bundle E))
    (hs : s.manager.epochSecs ≠ some 0) : s.Mirrors E := by
  intro options
  rw [hp, TokenManager.stored_new_bundle, TokenManager.epochSecs_new,
    TokenManager.loadedSecs_bundle hs]
  exact ⟨rfl, rfl⟩

theorem Mirrors.of_same {s t : TokenState} (h : s.Mirrors E) (hm : s.manager.SameStock t.manager)
    (hp : t.persisted = s.persisted) : t.Mirrors E := by
  intro options
  obtain ⟨hstored, hsecs⟩ := h options
  have hsame : t.manager.stored = s.manager.stored := by
    funext epoch
    rw [TokenManager.stored, TokenManager.stored, hm.store]
  rw [hp, hsame, hm.epochSecs]
  exact ⟨hstored, hsecs⟩

theorem mirrors_new {s : TokenState} (options : TokenManagerOptions)
    (hm : s.manager = .new E options s.persisted) : s.Mirrors E := by
  intro options'
  rw [hm, TokenManager.epochSecs_new, TokenManager.epochSecs_new]
  exact ⟨TokenManager.stored_new options' options s.persisted, rfl⟩

theorem imaged_new {s : TokenState} (hn : s.Numbered) (options : TokenManagerOptions)
    (hm : s.manager = .new E options s.persisted) : s.Imaged E where
  numbered := hn
  filled := by
    rw [hm]
    exact TokenManager.filled_new options s.persisted
  epochSecs := by
    rw [hm, TokenManager.epochSecs_new]
    exact TokenManager.loadedSecs_ne s.persisted
  mirrors := .inl (mirrors_new options hm)

theorem filled_of_same {m n : TokenManager} (h : m.SameStock n) (hm : m.Filled) : n.Filled := by
  intro epoch
  rw [h.store]
  exact hm epoch

theorem Imaged.did (hs : s.Imaged E) (hn : t.Numbered) (h : Did E s.manager.Fills s t) :
    t.Imaged E := by
  cases h with
  | aside u hr hu hm hp =>
    refine ⟨hn, filled_of_same hm hs.filled, by rw [hm.epochSecs]; exact hs.epochSecs, ?_⟩
    rcases hs.mirrors with h | ⟨v, r, hv, hin⟩
    · exact .inl (h.of_same hm hp)
    · rcases eq_or_ne v u with rfl | hne
      · exact absurd hin (hu r hv)
      · exact .inr ⟨v, r, (hr v hne).trans hv, hin⟩
  | passed u m hm h =>
    have hsecs : t.manager.epochSecs ≠ some 0 := by
      rw [h.same.epochSecs]
      exact hm.epochSecs hs.epochSecs
    refine ⟨hn, filled_of_same h.same (hm.filled hs.filled), hsecs, ?_⟩
    rcases h.saved with hp | ⟨-, r, hr, hin⟩
    · exact .inl (mirrors_of_bundle hp hsecs)
    · exact .inr ⟨u, r, hr, hin⟩
  | dropped hm hp =>
    have hsecs : t.manager.epochSecs ≠ some 0 := by
      rw [hm.epochSecs]
      exact hs.epochSecs
    refine ⟨hn, filled_of_same hm (fun epoch => ?_), hsecs, .inl (mirrors_of_bundle hp hsecs)⟩
    nofun
  | took m token now hpop hm hp =>
    subst hm
    have hsecs : t.manager.epochSecs ≠ some 0 := by
      rw [TokenManager.epochSecs_popCurrent hpop]
      exact hs.epochSecs
    exact ⟨hn, TokenManager.filled_popCurrent hpop hs.filled, hsecs,
      .inl (mirrors_of_bundle hp hsecs)⟩

/-- The saves succeed, and no refresh stocks an epoch without a token: it does not go on with an
empty batch for an epoch that holds nothing. -/
def Filling (s : TokenState) (e : TokenEvent) : Prop :=
  e.Saves = true ∧ s.Stocks s.manager.Fills e

theorem Imaged.step (hs : s.Imaged E) (he : s.Filling e) (h : tokenStep H E fuel s e = some t) :
    t.Imaged E := by
  obtain ⟨hsaves, hstocks⟩ := he
  by_cases hrestart : ∃ options, e = .restart options
  · obtain ⟨options, rfl⟩ := hrestart
    cases h
    exact imaged_new (fun _ _ => rfl) options rfl
  · have hrestart : ∀ options, e ≠ .restart options := fun options h => hrestart ⟨options, h⟩
    obtain ⟨hn, hdid⟩ := tokenStep_did hsaves hrestart hs.numbered hstocks h
    exact hs.did hn hdid

/-- In every state of such a run where nothing is in flight, a manager constructed over the same
persistence has the same tokens and the same epoch length, and both list the epochs that hold
one. -/
theorem faithful_image {options : TokenManagerOptions} {raw : Option Json}
    (h : Run (tokenStep H E fuel) Filling (started E options raw) s)
    (hidle : ∀ u, s.refreshes u = none) (options' : TokenManagerOptions) :
    let m := TokenManager.new E options' s.persisted
    m.stored = s.manager.stored ∧ m.epochSecs = s.manager.epochSecs ∧
      (m.epochs.Pairwise (· < ·) ∧ ∀ epoch, epoch ∈ m.epochs ↔ m.stored epoch ≠ []) ∧
      s.manager.epochs.Pairwise (· < ·) ∧
        ∀ epoch, epoch ∈ s.manager.epochs ↔ s.manager.stored epoch ≠ [] := by
  intro m
  have himaged : s.Imaged E :=
    h.invariant (fun hs he hstep => hs.step he hstep) (imaged_new (fun _ _ => rfl) options rfl)
  have hmirrors : s.Mirrors E := by
    rcases himaged.mirrors with hm | ⟨u, r, hu, -⟩
    · exact hm
    · rw [hidle u] at hu
      cases hu
  obtain ⟨hstored, hsecs⟩ := hmirrors options'
  exact ⟨hstored, hsecs, ⟨m.pairwise_epochs, (TokenManager.filled_new options' _).mem_epochs⟩,
    s.manager.pairwise_epochs, himaged.filled.mem_epochs⟩

end TokenState

/-! ## Runs of the sample account -/

theorem ServedRefresh.run {ok : TokenState → TokenEvent → Prop} {a : Account}
    (h : ServedRefresh H E fuel a epoch response tokens s s₁ s₂ s₃ s₄ t)
    (h₁ : ok s (.refresh (3600 * epoch))) (h₂ : ok s₁ (.resume s.nextRefresh true))
    (h₃ : ok s₂ (.directory s.nextRefresh (.ok (a.hourly epoch)) true))
    (h₄ : ok s₃ (.issued s.nextRefresh (.ok response))) (h₅ : ok s₄ (.resume s.nextRefresh true)) :
    Run (tokenStep H E fuel) ok s t :=
  ((((Run.single h₁ h.refresh).tail h₂ h.resume).tail h₃ h.directory).tail h₄ h.issued).tail h₅
    h.stocked

/-- The state in which a first manager of the sample account starts. -/
def sampleStart : TokenState := .started sampleEncodings sampleAccount.options none

theorem idle_of_served (h : ServedRefresh H E fuel a epoch response tokens sampleStart s₁ s₂
    s₃ s₄ t)
    (u : Nat) : t.refreshes u = none := by
  rw [h.refreshes]
  rcases eq_or_ne u sampleStart.nextRefresh with rfl | hne
  · rw [Function.update_self]
  · rw [Function.update_of_ne hne]
    rfl

theorem batch_sample_ne_nil : sampleAccount.batch sampleHashes sampleEncodings 1 7 ≠ [] := by
  intro hnil
  obtain ⟨token, htoken⟩ := exists_batchBytes_sample
  simp [Account.batchBytes, hnil] at htoken

/-- The first refresh of the sample account, served with one token. -/
theorem exists_sampleServed : ∃ tokens s₁ s₂ s₃ s₄ t, tokens ≠ [] ∧
    ServedRefresh sampleHashes sampleEncodings 1 sampleAccount 7 (sampleAccount.served 7) tokens
      sampleStart s₁ s₂ s₃ s₄ t := by
  obtain ⟨minting, hm, hf⟩ := Account.minted_of_batch batch_sample_ne_nil
  have hmint : mintTokens sampleHashes sampleEncodings minting 7 (sampleAccount.served 7) =
      .ok (sampleAccount.batch sampleHashes sampleEncodings 1 7) := by
    simp [mintTokens, Account.served, hf]
  have hserved := exists_servedRefresh (s := sampleStart) hm hmint rfl rfl rfl List.not_mem_nil
  obtain ⟨s₁, s₂, s₃, s₄, t, h⟩ := hserved
  exact ⟨_, s₁, s₂, s₃, s₄, t, batch_sample_ne_nil, h⟩

/-- The answer that epoch 7 was issued, with no signature. -/
def unsigned : TokenIssueResponse := { epochs := [{ epoch := 7, issued := true }] }

theorem exists_sampleUnsigned : ∃ s₁ s₂ s₃ s₄ t,
    ServedRefresh sampleHashes sampleEncodings 1 sampleAccount 7 unsigned []
      sampleStart s₁ s₂ s₃ s₄ t := by
  obtain ⟨minting, hm, -⟩ := Account.minted_of_batch batch_sample_ne_nil
  have hmint : mintTokens sampleHashes sampleEncodings minting 7 unsigned = .ok [] := by
    simp [mintTokens, unsigned, finalizeTokens]
  exact exists_servedRefresh (s := sampleStart) hm hmint rfl rfl rfl List.not_mem_nil

namespace TokenState

theorem faithful_image_served : ∃ s : TokenState, s.manager.stored 7 ≠ [] ∧
    (TokenManager.new sampleEncodings {} s.persisted).stored 7 = s.manager.stored 7 := by
  obtain ⟨tokens, s₁, s₂, s₃, s₄, t, hne, h⟩ := exists_sampleServed
  have hrun : Run (tokenStep sampleHashes sampleEncodings 1) Filling
      (started sampleEncodings sampleAccount.options none) t := by
    refine h.run ⟨rfl, trivial⟩ ⟨rfl, ?_⟩ ⟨rfl, trivial⟩ ⟨rfl, trivial⟩ ⟨rfl, ?_⟩
    · intro pass epoch tokens hr
      cases h.registered.symm.trans hr
    · intro pass epoch tokens hr _
      obtain ⟨_, hminted⟩ := h.minted
      cases hminted.symm.trans hr
      exact .inl hne
  have hstored : t.manager.stored 7 ≠ [] := by
    rw [h.result.1, TokenManager.stored_stock, Function.update_self]
    intro hnil
    exact hne (List.map_eq_nil_iff.mp (List.append_eq_nil_iff.mp hnil).2)
  have himage := (faithful_image hrun (idle_of_served h) {}).1
  exact ⟨t, hstored, congrFun himage 7⟩

/-- An epoch that was issued without a signature is listed, and holds no token. -/
theorem not_mem_epochs_iff_unsigned :
    ¬ ∀ s : TokenState, Run (tokenStep sampleHashes sampleEncodings 1) (fun _ e => e.Saves = true)
        (started sampleEncodings sampleAccount.options none) s → (∀ u, s.refreshes u = none) →
      ∀ epoch, epoch ∈ s.manager.epochs ↔ s.manager.stored epoch ≠ [] := by
  intro hall
  obtain ⟨s₁, s₂, s₃, s₄, t, h⟩ := exists_sampleUnsigned
  have hrun : Run (tokenStep sampleHashes sampleEncodings 1) (fun _ e => e.Saves = true)
      (started sampleEncodings sampleAccount.options none) t := h.run rfl rfl rfl rfl rfl
  have hiff := hall t hrun (idle_of_served h) 7
  have hget : t.manager.store.get 7 = some [] := by
    rw [h.result.1]
    rfl
  have hmem : 7 ∈ t.manager.epochs := by
    rw [TokenManager.epochs, List.mem_mergeSort, ← OrderedMap.get_isSome_iff]
    exact ⟨[], hget⟩
  refine hiff.mp hmem ?_
  rw [TokenManager.stored, hget]
  rfl

end TokenState

end WarrenSdk.Core
