import WarrenSdk.Core.Edge.TokenBundle
import WarrenSdk.Lib.Run

/-!
# What a step does to the stock

Of the steps of a manager whose saves succeed: a step leaves the stock alone, or changes it in one
of a few ways, after which it is saved unless the refresh is still in its pass.
-/

namespace WarrenSdk.Core
open Lib

variable {H : Hashes} {E : Encodings} {fuel : Nat} {pass : Pass} {may : Nat → List Token → Prop}

namespace TokenManager

/-! ## The parts of the manager -/

theorem stored_pruneBefore (m : TokenManager) (minEpoch epoch : Nat) :
    (m.pruneBefore minEpoch).stored epoch <+: m.stored epoch := by
  rw [stored, pruneBefore, OrderedMap.get_filterKeys]
  split
  · exact List.prefix_rfl
  · exact List.nil_prefix

theorem store_settle (m : TokenManager) (epoch : Nat) : (m.settle epoch).store = m.store := by
  unfold settle
  split <;> rfl

theorem stored_stock (m : TokenManager) (epoch : Nat) (tokens : List Token) :
    (m.stock epoch tokens).stored =
      Function.update m.stored epoch (m.stored epoch ++ tokens.map (·.serialize)) := by
  funext j
  unfold stock
  simp only [store_settle]
  split
  next existing hget =>
    simp only [stored, OrderedMap.get_set, hget]
    rcases eq_or_ne j epoch with rfl | hj
    · simp
    · simp [hj, stored]
  next hget =>
    simp only [stored, OrderedMap.get_set, hget]
    rcases eq_or_ne j epoch with rfl | hj
    · simp
    · simp [hj, stored]

@[simp] theorem blindingKey_settle (m : TokenManager) (epoch : Nat) :
    (m.settle epoch).blindingKey = m.blindingKey := by
  unfold settle
  split <;> rfl

theorem blindingKey_stock (m : TokenManager) (epoch : Nat) (tokens : List Token) :
    (m.stock epoch tokens).blindingKey = m.blindingKey := by
  unfold stock
  simp only
  split <;> exact blindingKey_settle m epoch

theorem epochSecs_stock (m : TokenManager) (epoch : Nat) (tokens : List Token) :
    (m.stock epoch tokens).epochSecs = m.epochSecs := by
  have hsettle : (m.settle epoch).epochSecs = m.epochSecs := by
    unfold settle
    split <;> rfl
  unfold stock
  simp only
  split <;> exact hsettle

theorem blindingKey_new (options : TokenManagerOptions) (raw : Option Json) :
    (TokenManager.new E options raw).blindingKey = options.blindingKey := by
  obtain ⟨store, epochSecs, hnew⟩ := new_eq (E := E) options raw
  rw [hnew]

/-- A token is taken from the end of what the manager holds for an epoch. -/
theorem popCurrent_spec {m : TokenManager} (h : m.popCurrent now = some (token, m')) :
    ∃ epoch rest, m.epochAt now = some epoch ∧ m.stored epoch = rest ++ [token] ∧
      m'.stored = Function.update m.stored epoch rest ∧ m'.blindingKey = m.blindingKey := by
  unfold popCurrent at h
  split at h
  · cases h
  next epoch hepoch =>
    split at h
    · cases h
    next tokens hget =>
      split at h
      · cases h
      next last hlast =>
        cases h
        have hsplit : tokens = tokens.dropLast ++ [token] :=
          (List.dropLast_append_getLast? _ hlast).symm
        refine ⟨epoch, tokens.dropLast, hepoch, ?_, ?_, rfl⟩
        · rw [stored, hget]
          exact hsplit
        · funext j
          simp only [stored]
          rcases eq_or_ne j epoch with rfl | hj
          · rw [Function.update_self]
            split
            next hnil =>
              rw [OrderedMap.get_delete, if_pos rfl, List.length_eq_zero_iff.mp hnil]
              rfl
            next => rw [OrderedMap.get_set, if_pos rfl]; rfl
          · rw [Function.update_of_ne hj]
            split
            next => rw [OrderedMap.get_delete, if_neg hj, stored]
            next => rw [OrderedMap.get_set, if_neg hj, stored]

/-! ## Changes of the stock -/

/-- `m` and `n` differ in their device, wallet and leases only. -/
structure SameStock (m n : TokenManager) : Prop where
  store : n.store = m.store
  epochSecs : n.epochSecs = m.epochSecs
  revoked : n.revoked = m.revoked

theorem SameStock.rfl {m : TokenManager} : m.SameStock m := ⟨.refl _, .refl _, .refl _⟩

theorem SameStock.trans {m n o : TokenManager} (h : m.SameStock n) (h' : n.SameStock o) :
    m.SameStock o :=
  ⟨h'.store.trans h.store, h'.epochSecs.trans h.epochSecs, h'.revoked.trans h.revoked⟩

/-- The ways in which a pass changes the stock, with the batches that `may` be stocked. -/
inductive Change (may : Nat → List Token → Prop) (m : TokenManager) : TokenManager → Prop
  | same : Change may m m
  | adopted (directory : TokenIssuerDirectory) (current : Nat) (h : 0 < directory.epochSecs) :
    Change may m (m.adoptDirectory directory current)
  | stocked (epoch : Nat) (tokens : List Token) (h : m.revoked = false) (hmay : may epoch tokens) :
    Change may m (m.stock epoch tokens)
  | settled (epoch : Nat) : Change may m (m.settle epoch)

end TokenManager

/-- A refresh that has adopted its directory, and has the saving still to do. -/
def Refresh.InPass : Refresh → Prop
  | .registering .. | .registered .. | .fetching .. => False
  | .minting .. | .minted .. | .mintFailed .. | .reregistering .. | .failed .. => True

/-- Whatever is to be saved by the event is saved. -/
def TokenEvent.Saves : TokenEvent → Bool
  | .takeCurrentStack _ saved => saved
  | .registered _ _ saved => saved
  | .directory _ _ saved => saved
  | .resume _ saved => saved
  | .refresh _ | .restart _ | .setDeviceName _ | .issued _ _ => true

namespace TokenState

/-- A new manager over what was saved. -/
def started (E : Encodings) (options : TokenManagerOptions) (raw : Option Json) : TokenState :=
  { manager := .new E options raw, persisted := raw }

/-- The refreshes have been numbered. -/
def Numbered (s : TokenState) : Prop := ∀ u, s.nextRefresh ≤ u → s.refreshes u = none

/-- It was the turn of refresh `u`, and of no other. -/
structure Turn (u : Nat) (s t : TokenState) : Prop where
  nextRefresh : t.nextRefresh = s.nextRefresh
  refreshes : ∀ v, v ≠ u → t.refreshes v = s.refreshes v

/-- `t` is `s` with refresh `u` gone on with its pass, or at the end of it. -/
structure Passes (E : Encodings) (u : Nat) (s t : TokenState) : Prop extends Turn u s t where
  same : s.manager.SameStock t.manager
  saved : t.persisted = some (t.manager.bundle E) ∨
    t.persisted = s.persisted ∧ ∃ r, t.refreshes u = some r ∧ r.InPass

/-- `t` is `s` with another refresh `u`. -/
structure Aside (u : Nat) (s t : TokenState) : Prop extends Turn u s t where
  same : s.manager.SameStock t.manager
  persisted : t.persisted = s.persisted

/-- What a step does to the stock. -/
inductive Did (E : Encodings) (may : Nat → List Token → Prop) (s t : TokenState) : Prop
  | aside (u : Nat) (h : ∀ v, v ≠ u → t.refreshes v = s.refreshes v)
    (hu : ∀ r, s.refreshes u = some r → ¬ r.InPass) (hm : s.manager.SameStock t.manager)
    (hp : t.persisted = s.persisted)
  | passed (u : Nat) (m : TokenManager) (hm : s.manager.Change may m)
    (h : Passes E u { s with manager := m } t)
  | dropped (hm : s.manager.dropStock.SameStock t.manager)
    (hp : t.persisted = some (t.manager.bundle E))
  | took (m : TokenManager) (token : TokenBytes) (now : Nat)
    (hpop : s.manager.popCurrent now = some (token, m)) (hm : t.manager = m)
    (hp : t.persisted = some (m.bundle E))

namespace Turn

theorem of_eq (hn : t.nextRefresh = s.nextRefresh) (hr : t.refreshes = s.refreshes) : Turn u s t :=
  ⟨hn, fun v _ => congrFun hr v⟩

theorem trans (h : Turn u s t) (h' : Turn u t o) : Turn u s o :=
  ⟨h'.nextRefresh.trans h.nextRefresh, fun v hv => (h'.refreshes v hv).trans (h.refreshes v hv)⟩

theorem of_left (h : Turn u s' t) (hn : s'.nextRefresh = s.nextRefresh)
    (hr : s'.refreshes = s.refreshes) : Turn u s t :=
  ⟨h.nextRefresh.trans hn, fun v hv => (h.refreshes v hv).trans (congrFun hr v)⟩

theorem wake (s : TokenState) (u : Nat) : Turn u s (s.wake u) :=
  ⟨.refl _, fun _ hv => Function.update_of_ne hv ..⟩

theorem suspend (s : TokenState) (u : Nat) (r : Refresh) : Turn u s (s.suspend u r) :=
  ⟨.refl _, fun _ hv => Function.update_of_ne hv ..⟩

theorem ask_suspend (s : TokenState) (u : Nat) (request : Sent) (r : Refresh) :
    Turn u s ((s.ask request).suspend u r) := (Turn.suspend (s.ask request) u r).of_left rfl rfl

/-- The refreshes stay numbered when an old one has its turn. -/
theorem numbered (h : Turn u s t) (hn : s.Numbered) (hu : s.refreshes u = some r) : t.Numbered := by
  intro v hv
  rw [h.nextRefresh] at hv
  rcases eq_or_ne v u with rfl | hne
  · cases hu.symm.trans (hn v hv)
  · rw [h.refreshes v hne]
    exact hn v hv

end Turn

namespace Passes

theorem suspend (s : TokenState) (u : Nat) (hr : r.InPass) : Passes E u s (s.suspend u r) where
  toTurn := .suspend s u r
  same := .rfl
  saved := .inr ⟨rfl, r, Function.update_self .., hr⟩

theorem ask_suspend (s : TokenState) (u : Nat) (request : Sent) (hr : r.InPass) :
    Passes E u s ((s.ask request).suspend u r) where
  toTurn := .ask_suspend s u request r
  same := .rfl
  saved := .inr ⟨rfl, r, Function.update_self .., hr⟩

theorem finish (s : TokenState) (u : Nat) (result : Except Failure Unit) :
    Passes E u s (s.persistAndFinish E u true result) where
  toTurn := .of_eq rfl rfl
  same := .rfl
  saved := .inl rfl

/-- What was done for another manager of the same stock. -/
theorem of_same {s s' : TokenState} (h : Passes E u s' t) (ht : Turn u s s')
    (hm : s.manager.SameStock s'.manager) (hp : s'.persisted = s.persisted) : Passes E u s t where
  toTurn := ht.trans h.toTurn
  same := hm.trans h.same
  saved := by rw [← hp]; exact h.saved

end Passes

/-! ## The parts of a pass -/

theorem mint_passes (h : s.mint H E fuel u pass epoch device = some t) : Passes E u s t := by
  unfold mint at h
  split at h
  · cases h
  · cases h
    exact .suspend s u trivial
  · cases h
    exact .ask_suspend s u _ trivial

theorem mintNext_passes (h : s.mintNext H E fuel u true pass = some t) : Passes E u s t := by
  unfold mintNext at h
  split at h
  · cases h
    exact .finish s u _
  · exact mint_passes h

theorem adopt_aside (s : TokenState) (view : DeviceView) : Aside u s (s.adopt view) := by
  unfold adopt
  split
  · exact ⟨.of_eq rfl rfl, .rfl, rfl⟩
  · split
    · exact ⟨.of_eq rfl rfl, .rfl, rfl⟩
    · exact ⟨.of_eq rfl rfl, ⟨rfl, rfl, rfl⟩, rfl⟩

theorem reregistered_passes (h : s.reregistered H E fuel u pass epoch device answer = some t) :
    Passes E u s t := by
  unfold reregistered at h
  split at h
  · cases h
    exact .suspend s u trivial
  next view =>
    have hadopt := adopt_aside (u := u) s view
    exact (mint_passes h).of_same hadopt.toTurn hadopt.same hadopt.persisted

theorem issued_passes (s : TokenState) :
    Passes E u s (s.issued H E u pass epoch device minting answer) := by
  unfold issued
  split
  · exact .suspend s u trivial
  · split
    · exact .suspend s u trivial
    · exact .suspend s u trivial

theorem mintFailed_passes (s : TokenState) :
    Passes E u s (s.mintFailed u pass epoch device error) := by
  unfold mintFailed
  split
  · split
    · exact .ask_suspend s u _ trivial
    · exact .suspend s u trivial
  · exact .suspend s u trivial

/-! ## Steps -/

/-- What refresh `u` did when it was its turn. -/
structure Done (E : Encodings) (may : Nat → List Token → Prop) (u : Nat) (s t : TokenState) :
    Prop where
  turn : Turn u s t
  did : Did E may s t

theorem Passes.done (h : Passes E u { s.wake u with manager := m } t)
    (hm : s.manager.Change may m) :
    Done E may u s t := by
  have hturn : Turn u { s with manager := m } t :=
    (Turn.wake { s with manager := m } u).trans h.toTurn
  exact ⟨hturn.of_left rfl rfl, .passed u m hm ⟨hturn, h.same, h.saved⟩⟩

theorem stocked_done (hmay : s.manager.revoked = false → may epoch tokens)
    (h : (s.wake u).stocked H E fuel u true pass epoch tokens = some t) : Done E may u s t := by
  unfold stocked at h
  split at h
  · exact (mintNext_passes h).done .same
  next hrevoked =>
    have hlive : s.manager.revoked = false := Bool.eq_false_iff.mpr hrevoked
    have hm : s.manager.Change may (s.manager.stock epoch tokens) :=
      .stocked epoch tokens hlive (hmay hlive)
    exact (mintNext_passes h).done hm

theorem caught_done (h : (s.wake u).caught H E fuel u true pass epoch error = some t) :
    Done E may u s t := by
  unfold caught at h
  split at h
  · split at h
    · cases h
      exact ⟨(Turn.wake s u).trans (.of_eq rfl rfl), .dropped .rfl rfl⟩
    · split at h
      · cases h
        exact (Passes.finish (s.wake u) u _).done .same
      · exact (mintNext_passes h).done .same
  · split at h
    · have hm : s.manager.Change may (s.manager.settle epoch) := .settled epoch
      exact (mintNext_passes h).done hm
    · exact (mintNext_passes h).done .same
  · exact (mintNext_passes h).done .same

/-- A refresh that is not in a pass goes on. -/
theorem Aside.done {r : Refresh} (h : Aside u (s.wake u) t) (hu : s.refreshes u = some r)
    (hr : ¬ r.InPass) : Done E may u s t := by
  have hturn := (Turn.wake s u).trans h.toTurn
  refine ⟨hturn, .aside u hturn.refreshes (fun r' hr' => ?_) h.same h.persisted⟩
  cases hu.symm.trans hr'
  exact hr

theorem startRegistered_done (hu : s.refreshes u = some (.registering now' key')) :
    Done E may u s ((s.wake u).startRegistered E u now key true answer) := by
  have hsuspend (s' : TokenState) : Aside u s' (s'.suspend u (.registered now key)) :=
    ⟨.suspend s' u _, .rfl, rfl⟩
  unfold startRegistered
  split
  next view =>
    have hadopt := adopt_aside (u := u) (s.wake u) view
    have hall : Aside u (s.wake u) (((s.wake u).adopt view).suspend u (.registered now key)) :=
      ⟨hadopt.toTurn.trans (.suspend _ u _), hadopt.same, hadopt.persisted⟩
    exact hall.done hu nofun
  · split
    · exact ⟨(Turn.wake s u).trans (.of_eq rfl rfl), .dropped .rfl rfl⟩
    · split
      · exact Aside.done ⟨.of_eq rfl rfl, .rfl, rfl⟩ hu nofun
      · exact (hsuspend (s.wake u)).done hu nofun
  · exact (hsuspend (s.wake u)).done hu nofun

theorem fetched_done (hu : s.refreshes u = some (.fetching now' key'))
    (h : (s.wake u).fetched H E fuel u now key true answer = some t) : Done E may u s t := by
  have hfinish (e : Failure) : Done E may u s ((s.wake u).finish u (.error e)) :=
    Aside.done ⟨.of_eq rfl rfl, .rfl, rfl⟩ hu nofun
  unfold fetched at h
  split at h
  · cases h
    exact hfinish _
  next directory =>
    split at h
    · cases h
      exact hfinish _
    next current hcurrent =>
      have hpos : 0 < directory.epochSecs := by
        by_contra hzero
        rw [currentEpoch, if_pos (Nat.not_lt.mp hzero)] at hcurrent
        cases hcurrent
      have hm : s.manager.Change may (s.manager.adoptDirectory directory current) :=
        .adopted directory current hpos
      exact (mintNext_passes h).done hm

/-- A refresh that starts leaves the stock alone. -/
theorem refresh_did (hn : s.Numbered) (now : Nat) :
    let t := { s with nextRefresh := s.nextRefresh + 1, clock := now }.refresh s.nextRefresh now
    t.Numbered ∧ Did E may s t := by
  intro t
  have hnone : s.refreshes s.nextRefresh = none := hn _ (Nat.le_refl _)
  have hturn : t.nextRefresh = s.nextRefresh + 1 ∧ s.manager.SameStock t.manager ∧
      t.persisted = s.persisted ∧ ∀ v, v ≠ s.nextRefresh → t.refreshes v = s.refreshes v := by
    change (refresh _ _ _).nextRefresh = _ ∧ _
    unfold t refresh
    split
    · exact ⟨rfl, .rfl, rfl, fun _ _ => rfl⟩
    · split
      · exact ⟨rfl, .rfl, rfl, fun _ _ => rfl⟩
      · split
        · exact ⟨rfl, .rfl, rfl, fun _ hv => Function.update_of_ne hv ..⟩
        · exact ⟨rfl, .rfl, rfl, fun _ hv => Function.update_of_ne hv ..⟩
  obtain ⟨hnext, hm, hp, hr⟩ := hturn
  refine ⟨fun v hv => ?_, .aside s.nextRefresh hr (fun r hu => ?_) hm hp⟩
  · rw [hnext] at hv
    rw [hr v (by omega)]
    exact hn v (by omega)
  · rw [hnone] at hu
    cases hu

/-- The batch that the event stocks, if it stocks one, is one that may be stocked. -/
def Stocks (may : Nat → List Token → Prop) (s : TokenState) : TokenEvent → Prop
  | .resume u _ => ∀ pass epoch tokens, s.refreshes u = some (.minted pass epoch tokens) →
    s.manager.revoked = false → may epoch tokens
  | _ => True

/-- What a step whose saves succeed does to the stock of the manager. -/
theorem tokenStep_did (hs : e.Saves = true) (hr : ∀ options, e ≠ .restart options) (hn : s.Numbered)
    (hmay : s.Stocks may e) (h : tokenStep H E fuel s e = some t) : t.Numbered ∧ Did E may s t := by
  have hall {u : Nat} {r : Refresh} (hu : s.refreshes u = some r) (hd : Done E may u s t) :
      t.Numbered ∧ Did E may s t := ⟨hd.turn.numbered hn hu, hd.did⟩
  have hfree : ∀ r, s.refreshes s.nextRefresh = some r → ¬ r.InPass := fun r hr => by
    rw [hn _ (Nat.le_refl _)] at hr
    cases hr
  cases e with
  | refresh now =>
    cases h
    exact refresh_did hn now
  | takeCurrentStack now saved =>
    cases hs
    cases h
    unfold takeCurrentStack
    split
    · exact ⟨hn, .aside s.nextRefresh (fun _ _ => rfl) hfree .rfl rfl⟩
    next token m hpop => exact ⟨hn, .took m token now hpop rfl rfl⟩
  | restart options => exact absurd rfl (hr options)
  | setDeviceName name =>
    cases h
    exact ⟨hn, .aside s.nextRefresh (fun _ _ => rfl) hfree ⟨rfl, rfl, rfl⟩ rfl⟩
  | registered u answer saved =>
    cases hs
    simp only [tokenStep] at h
    split at h
    next now key hu =>
      cases h
      exact hall hu (startRegistered_done hu)
    next hu => exact hall hu ((reregistered_passes h).done .same)
    · cases h
  | directory u answer saved =>
    cases hs
    simp only [tokenStep] at h
    split at h
    next now key hu => exact hall hu (fetched_done hu h)
    · cases h
  | issued u answer =>
    simp only [tokenStep] at h
    split at h
    next hu =>
      cases h
      exact hall hu ((issued_passes (s.wake u)).done .same)
    · cases h
  | resume u saved =>
    cases hs
    simp only [tokenStep] at h
    split at h
    next now key hu =>
      cases h
      have hgo : Aside u (s.wake u)
          (((s.wake u).ask .getDirectory).suspend u (.fetching now key)) :=
        ⟨.ask_suspend (s.wake u) u _ _, .rfl, rfl⟩
      exact hall hu (hgo.done hu nofun)
    next hu => exact hall hu (stocked_done (hmay _ _ _ hu) h)
    next hu =>
      cases h
      exact hall hu ((mintFailed_passes (s.wake u)).done .same)
    next hu => exact hall hu (caught_done h)
    · cases h

end TokenState

end WarrenSdk.Core
