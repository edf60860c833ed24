import WarrenSdk.Core.Edge.TokenReuse
import WarrenSdk.Lib.Leases

/-!
# Walking the session tokens (`edge/session-walk.ts`)

Any number of walks that claim through one token manager. A walk runs undisturbed from one of its
awaits to the next, and its only await is `attempt`; `step` runs one event: a walk that starts, an
attempt that answers or fails, or the close of an attempt's connection by its owner. What a control
reply carries is left out.
-/

namespace WarrenSdk.Core
open Lib

def MAX_SESSION_TOKENS : Nat := 8

/-- A control reply, by its type. -/
inductive ControlMessage
  | ipAssign
  | ipExhausted
  | rejected
  | exitDraining
deriving DecidableEq

/-- The walk that claimed a lease, and the token it claimed. -/
structure Claimant where
  walk : Nat
  token : Bytes
deriving DecidableEq

abbrev SessionTokenLease := Lease Utf16 Claimant

/-- A walk, by where it is. -/
inductive SessionWalk
  /-- At `attempt`, with the rest of its stack and the refusals so far. -/
  | attempting (token : Bytes) (lease : Nat) (rest : List Bytes) (refused : Nat)
  | returned (control : ControlMessage) (token : Bytes) (lease : Nat)
  | threw (error : Failure)

/-- What the `close` of an attempt does: it may release the lease, and it may throw. -/
structure AttemptClose where
  releases : Bool
  throws : Option Failure
deriving DecidableEq

def noSessionToken (refused : Nat) : Failure :=
  .edge
    { code := .noSessionToken
      message :=
        if refused = 0 then "no session token free this epoch"
        else "the exit refused every session token presented (" ++ toString refused ++ ")" }

/-- The walks of one manager, by name, and the leases they claimed. -/
structure SessionState where
  manager : TokenManager
  leases : List SessionTokenLease := []
  /-- The leases whose connection was closed by its owner. -/
  closed : List Nat := []
  walks : Nat → Option SessionWalk := fun _ => none

inductive SessionEvent
  /-- `walkSessionTokens(stack, attempt, manager.claim)` -/
  | walk (name : Nat) (stack : List Bytes)
  /-- The attempt of a walk resolves; `close` is what its `close` does. -/
  | answer (walk : Nat) (control : ControlMessage) (close : AttemptClose)
  /-- The attempt of a walk rejects. -/
  | fail (walk : Nat) (error : Failure)
  /-- The connection that holds the lease is closed by its owner. -/
  | close (lease : Nat)

variable (H : Hashes) (E : Encodings)

namespace SessionWalk

/-- The lease a walk holds, if it came to one. -/
def lease? : SessionWalk → Option Nat
  | attempting _ lease _ _ => some lease
  | returned _ _ lease => some lease
  | threw _ => none

/-- The token the lease of a walk is for. -/
def token? : SessionWalk → Option Bytes
  | attempting token _ _ _ => some token
  | returned _ token _ => some token
  | threw _ => none

end SessionWalk

namespace SessionState

/-- A manager before its first claim. -/
def initial (manager : TokenManager) : SessionState := { manager := { manager with held := [] } }

def setWalk (w : Nat) (walk : SessionWalk) (s : SessionState) : SessionState :=
  { s with walks := Function.update s.walks w (some walk) }

/-- `release` of a lease. -/
def release (lease : Nat) (s : SessionState) : SessionState :=
  match s.leases[lease]? with
  | none => s
  | some a =>
    if a.live then
      { s with manager := s.manager.release a.key, leases := Leases.release lease s.leases }
    else s

/-- The loop of `walkSessionTokens`, from a token of the stack on to the next `attempt`. -/
def claimNext (w : Nat) (refused : Nat) : List Bytes → SessionState → SessionState
  | [], s => s.setWalk w (.threw (noSessionToken refused))
  | token :: rest, s =>
    match s.manager.claim H E token with
    | none => s.claimNext w refused rest
    | some (key, manager) =>
      let lease : SessionTokenLease := { key := key, claimant := { walk := w, token := token } }
      setWalk w (.attempting token s.leases.length rest refused)
        { s with manager, leases := s.leases ++ [lease] }

/-- The rest of the loop's body, once the attempt has answered. -/
def answered (w : Nat) (token : Bytes) (lease : Nat) (rest : List Bytes) (refused : Nat)
    (control : ControlMessage) (close : AttemptClose) (s : SessionState) : SessionState :=
  if control = .rejected then
    let s := if close.releases then s.release lease else s
    match close.throws with
    | some error => s.setWalk w (.threw error)
    | none => (s.release lease).claimNext H E w (refused + 1) rest
  else s.setWalk w (.returned control token lease)

def step (s : SessionState) : SessionEvent → Option SessionState
  | .walk w stack =>
    match s.walks w with
    | none => some (s.claimNext H E w 0 (stack.take MAX_SESSION_TOKENS))
    | some _ => none
  | .answer w control close =>
    match s.walks w with
    | some (.attempting token lease rest refused) =>
      some (s.answered H E w token lease rest refused control close)
    | _ => none
  | .fail w error =>
    match s.walks w with
    | some (.attempting _ lease _ _) => some ((s.release lease).setWalk w (.threw error))
    | _ => none
  | .close lease =>
    if lease < s.leases.length then some { s.release lease with closed := s.closed ++ [lease] }
    else none

/-- Whether the attempt of a walk still holds its lease. -/
def attemptHolds (w : Nat) (s : SessionState) : Bool :=
  match s.walks w with
  | some (.attempting _ lease _ _) => s.leases[lease]?.any (·.live)
  | _ => false

/-! ## Exclusivity -/

/-- What the leases of a manager owe to its sessions. -/
structure Exclusive (s : SessionState) : Prop where
  /-- No two live leases are on one serial. -/
  serials : ∀ {i j : Nat} {a b : SessionTokenLease}, s.leases[i]? = some a →
    s.leases[j]? = some b → a.live → b.live →
    tokenSerial H a.claimant.token = tokenSerial H b.claimant.token → i = j
  held : ∀ key, key ∈ s.manager.held ↔
    ∃ i : Nat, ∃ a : SessionTokenLease, s.leases[i]? = some a ∧ a.live ∧
      TokenManager.heldKey H E a.claimant.token = some key
  /-- A walk that returned holds the lease of its token until its connection is closed. -/
  returned : ∀ {w control token lease}, s.walks w = some (.returned control token lease) →
    lease ∉ s.closed → ∃ a : SessionTokenLease, s.leases[lease]? = some a ∧ a.live ∧
      a.claimant = { walk := w, token }
  returned_only : ∀ {w control token lease} {i : Nat} {a : SessionTokenLease},
    s.walks w = some (.returned control token lease) → s.leases[i]? = some a → a.live →
    a.claimant.walk = w → i = lease
  threw : ∀ {w error} {i : Nat} {a : SessionTokenLease}, s.walks w = some (.threw error) →
    s.leases[i]? = some a → a.claimant.walk = w → a.live = false
  again : ∀ {i : Nat} {a : SessionTokenLease}, s.leases[i]? = some a → a.live = false →
    s.release i = s

/-- Where a refused attempt's `close` throws, the lease is released by then. -/
def CloseReleases (s : SessionState) : SessionEvent → Prop
  | .answer w control close =>
    control = .rejected → close.throws ≠ none → close.releases = true ∨ s.attemptHolds w = false
  | _ => True

/-- The leases of the walks, where the walk `free`, if any, is between two attempts and holds
none. -/
structure Owned (free : Option Nat) (s : SessionState) : Prop where
  sound : Leases.Sound s.manager.held s.leases
  keyed : ∀ {i : Nat} {a : SessionTokenLease}, s.leases[i]? = some a →
    TokenManager.heldKey H E a.claimant.token = some a.key
  own : ∀ {w walk lease token}, some w ≠ free → s.walks w = some walk → walk.lease? = some lease →
    walk.token? = some token → ∃ a : SessionTokenLease, s.leases[lease]? = some a ∧
      a.claimant = { walk := w, token } ∧ (lease ∉ s.closed → a.live)
  /-- A live lease is the one its walk is at. -/
  current : ∀ {i : Nat} {a : SessionTokenLease}, s.leases[i]? = some a → a.live →
    some a.claimant.walk ≠ free ∧
      ∃ walk, s.walks a.claimant.walk = some walk ∧ walk.lease? = some i

variable {H E} {s : SessionState}

theorem Owned.exclusive (h : s.Owned H E none) : s.Exclusive H E where
  serials ha hb hla hlb hserial := by
    refine h.sound.exclusive ha hb hla hlb (Option.some.inj ?_)
    rw [← h.keyed ha, ← h.keyed hb, TokenManager.heldKey, TokenManager.heldKey, hserial]
  held key := by
    rw [h.sound.held]
    refine exists_congr fun i => exists_congr fun a => and_congr_right fun ha => ?_
    rw [h.keyed ha, Option.some_inj]
  returned hw hopen := by
    obtain ⟨a, ha, hclaimant, hlive⟩ := h.own (by simp) hw rfl rfl
    exact ⟨a, ha, hlive hopen, hclaimant⟩
  returned_only hw ha hl hwalk := by
    obtain ⟨-, walk, hw', hlease⟩ := h.current ha hl
    rw [hwalk, hw] at hw'
    cases hw'
    exact (Option.some.inj hlease).symm
  threw {w error i a} hw ha hwalk := by
    by_contra hl
    obtain ⟨-, walk, hw', hlease⟩ := h.current ha (Bool.eq_true_of_not_eq_false hl)
    rw [hwalk, hw] at hw'
    cases hw'
    cases hlease
  again ha hl := by simp [release, ha, hl]

theorem owned_initial (manager : TokenManager) : (initial manager).Owned H E none where
  sound := Leases.Sound.empty
  keyed h := by cases h
  own _ h := by cases h
  current h := by cases h

@[simp] theorem release_walks (lease : Nat) : (s.release lease).walks = s.walks := by
  unfold release
  split
  · rfl
  · split <;> rfl

@[simp] theorem release_closed (lease : Nat) : (s.release lease).closed = s.closed := by
  unfold release
  split
  · rfl
  · split <;> rfl

theorem release_of_dead {lease : Nat} {a : SessionTokenLease} (ha : s.leases[lease]? = some a)
    (hl : a.live = false) : s.release lease = s := by
  simp [release, ha, hl]

theorem release_of_live {lease : Nat} {a : SessionTokenLease} (ha : s.leases[lease]? = some a)
    (hl : a.live) : s.release lease =
      { s with manager := s.manager.release a.key, leases := Leases.release lease s.leases } := by
  simp [release, ha, hl]

/-- The lease itself after its release. -/
theorem getElem?_release_self {lease : Nat} {a : SessionTokenLease}
    (ha : s.leases[lease]? = some a) :
    (s.release lease).leases[lease]? = some { a with live := false } := by
  cases hl : a.live with
  | false =>
    rw [release_of_dead ha hl, ha, ← hl]
  | true =>
    rw [release_of_live ha hl]
    simp [Leases.getElem?_release, ha]

theorem release_release {lease : Nat} {a : SessionTokenLease} (ha : s.leases[lease]? = some a) :
    (s.release lease).release lease = s.release lease :=
  release_of_dead (getElem?_release_self ha) rfl

/-! ## What one step keeps -/

/-- A lease after the release of `lease`. -/
theorem of_release {lease i : Nat} {a : SessionTokenLease}
    (h : (s.release lease).leases[i]? = some a) :
    ∃ b : SessionTokenLease, s.leases[i]? = some b ∧ a.key = b.key ∧ a.claimant = b.claimant ∧
      (a.live = true → lease ≠ i ∧ a = b) := by
  cases hb : s.leases[lease]? with
  | none =>
    have hrelease : s.release lease = s := by simp [release, hb]
    rw [hrelease] at h
    refine ⟨a, h, rfl, rfl, fun _ => ⟨?_, rfl⟩⟩
    rintro rfl
    simp [hb] at h
  | some b =>
    cases hl : b.live with
    | false =>
      rw [release_of_dead hb hl] at h
      refine ⟨a, h, rfl, rfl, fun ha => ⟨?_, rfl⟩⟩
      rintro rfl
      rw [h] at hb
      cases hb
      simp [ha] at hl
    | true =>
      rw [release_of_live hb hl] at h
      exact Leases.of_getElem?_release h

theorem release_of_ne {lease i : Nat} (h : lease ≠ i) :
    (s.release lease).leases[i]? = s.leases[i]? := by
  unfold release
  split
  · rfl
  · split
    · exact Leases.getElem?_release_of_ne h
    · rfl

namespace Owned

theorem sound_release (h : s.Owned H E free) (lease : Nat) :
    Leases.Sound (s.release lease).manager.held (s.release lease).leases := by
  unfold release
  split
  · exact h.sound
  · next a ha =>
    split
    · next hl => exact h.sound.release ha hl
    · exact h.sound

theorem keyed_release (h : s.Owned H E free) {lease i : Nat} {a : SessionTokenLease}
    (ha : (s.release lease).leases[i]? = some a) :
    TokenManager.heldKey H E a.claimant.token = some a.key := by
  obtain ⟨b, hb, hkey, hclaimant, -⟩ := of_release ha
  rw [hkey, hclaimant]
  exact h.keyed hb

/-! ## What one step keeps -/

/-- The walk whose attempt is over releases its lease. -/
theorem release_own (h : s.Owned H E none) (hw : s.walks w = some walk)
    (hlease : walk.lease? = some lease) (htoken : walk.token? = some token) :
    (s.release lease).Owned H E (some w) where
  sound := h.sound_release lease
  keyed := h.keyed_release
  own {w' walk' lease' token'} hne hw' hlease' htoken' := by
    rw [release_walks] at hw'
    obtain ⟨a, ha, hclaimant, -⟩ := h.own (by simp) hw hlease htoken
    obtain ⟨a', ha', hclaimant', hlive'⟩ := h.own (by simp) hw' hlease' htoken'
    have hleases : lease ≠ lease' := by
      rintro rfl
      rw [ha] at ha'
      cases ha'
      rw [hclaimant] at hclaimant'
      exact hne (congrArg (some ·.walk) hclaimant').symm
    rw [release_of_ne hleases, release_closed]
    exact ⟨a', ha', hclaimant', hlive'⟩
  current {i a} ha hl := by
    obtain ⟨b, hb, -, -, hlive⟩ := of_release ha
    obtain ⟨hne, rfl⟩ := hlive hl
    obtain ⟨-, walk', hw', hlease'⟩ := h.current hb hl
    rw [release_walks]
    refine ⟨fun heq => ?_, walk', hw', hlease'⟩
    rw [Option.some.inj heq, hw] at hw'
    cases hw'
    rw [hlease] at hlease'
    exact hne (Option.some.inj hlease')

/-- The connection of a lease is closed by its owner. -/
theorem close (h : s.Owned H E none) (lease : Nat) :
    Owned H E none { s.release lease with closed := s.closed ++ [lease] } where
  sound := h.sound_release lease
  keyed := h.keyed_release
  own {w walk lease' token} _ hw hlease htoken := by
    have hw' : s.walks w = some walk := by rwa [← release_walks lease]
    obtain ⟨a, ha, hclaimant, hlive⟩ := h.own (by simp) hw' hlease htoken
    by_cases hleases : lease = lease'
    · subst hleases
      refine ⟨_, getElem?_release_self ha, hclaimant, fun hopen => ?_⟩
      exact absurd (List.mem_append_right _ (List.mem_singleton_self _)) hopen
    · refine ⟨a, (release_of_ne hleases).trans ha, hclaimant, fun hopen => ?_⟩
      exact hlive fun hmem => hopen (List.mem_append_left _ hmem)
  current {i a} ha hl := by
    obtain ⟨b, hb, -, -, hlive⟩ := of_release ha
    obtain ⟨-, rfl⟩ := hlive hl
    obtain ⟨-, walk, hw, hlease⟩ := h.current hb hl
    exact ⟨by simp, walk, by simpa using hw, hlease⟩

/-- A walk that holds no lease ends. -/
theorem end_walk (h : s.Owned H E (some w)) (error : Failure) :
    (s.setWalk w (.threw error)).Owned H E none where
  sound := h.sound
  keyed := h.keyed
  own {w' walk lease token} _ hw' hlease htoken := by
    by_cases hww : w' = w
    · subst hww
      simp only [setWalk, Function.update_self] at hw'
      cases hw'
      cases hlease
    · simp only [setWalk, Function.update_of_ne hww] at hw'
      exact h.own (by simpa using hww) hw' hlease htoken
  current {i a} ha hl := by
    obtain ⟨hne, walk, hw', hlease⟩ := h.current ha hl
    have hne' : a.claimant.walk ≠ w := fun heq => hne (congrArg some heq)
    exact ⟨by simp, walk, (Function.update_of_ne hne' ..).trans hw', hlease⟩

/-- A walk goes on with the lease it is at. -/
theorem keep_lease (h : s.Owned H E none) (hw : s.walks w = some walk)
    (hlease : walk'.lease? = walk.lease?) (htoken : walk'.token? = walk.token?) :
    (s.setWalk w walk').Owned H E none where
  sound := h.sound
  keyed := h.keyed
  own {v walk'' lease token} _ hv hlease' htoken' := by
    by_cases hvw : v = w
    · subst hvw
      simp only [setWalk, Function.update_self] at hv
      cases hv
      exact h.own (by simp) hw (hlease ▸ hlease') (htoken ▸ htoken')
    · simp only [setWalk, Function.update_of_ne hvw] at hv
      exact h.own (by simp) hv hlease' htoken'
  current {i a} ha hl := by
    obtain ⟨-, walk'', hv, hlease'⟩ := h.current ha hl
    by_cases hvw : a.claimant.walk = w
    · rw [hvw, hw] at hv
      cases hv
      exact ⟨by simp, walk', by simp [setWalk, hvw], hlease.trans hlease'⟩
    · exact ⟨by simp, walk'', (Function.update_of_ne hvw ..).trans hv, hlease'⟩

/-- A walk that holds no lease claims the token of its next attempt. -/
theorem claim {manager : TokenManager} (h : s.Owned H E (some w))
    (hclaim : s.manager.claim H E token = some (key, manager)) (rest : List Bytes) (refused : Nat) :
    Owned H E none
      (setWalk w (.attempting token s.leases.length rest refused)
        { s with
          manager
          leases := s.leases ++ [{ key := key, claimant := { walk := w, token := token } }] }) := by
  have ⟨hkey, hfree, hmanager⟩ : TokenManager.heldKey H E token = some key ∧
      key ∉ s.manager.held ∧ manager.held = s.manager.held ++ [key] := by
    unfold TokenManager.claim at hclaim
    split at hclaim
    · cases hclaim
    · next k hk =>
      split at hclaim
      · cases hclaim
      · next hmem =>
        cases hclaim
        exact ⟨hk, hmem, rfl⟩
  exact
    { sound := by
        show Leases.Sound manager.held _
        rw [hmanager]
        exact h.sound.claim hfree _
      keyed := by
        intro i a ha
        rcases Leases.of_getElem?_concat ha with ha | ⟨-, rfl⟩
        · exact h.keyed ha
        · exact hkey
      own := by
        intro v walk lease t _ hv hlease htoken
        by_cases hvw : v = w
        · subst hvw
          simp only [setWalk, Function.update_self] at hv
          cases hv
          cases hlease
          cases htoken
          exact ⟨_, List.getElem?_concat_length, rfl, fun _ => rfl⟩
        · simp only [setWalk, Function.update_of_ne hvw] at hv
          obtain ⟨a, ha, hclaimant, hlive⟩ := h.own (by simpa using hvw) hv hlease htoken
          exact ⟨a, Leases.getElem?_concat_of_some ha, hclaimant, hlive⟩
      current := by
        intro i a ha hl
        rcases Leases.of_getElem?_concat ha with ha | ⟨rfl, rfl⟩
        · obtain ⟨hne, walk, hv, hlease⟩ := h.current ha hl
          have hvw : a.claimant.walk ≠ w := fun heq => hne (congrArg some heq)
          exact ⟨by simp, walk, (Function.update_of_ne hvw ..).trans hv, hlease⟩
        · exact ⟨by simp, _, Function.update_self .., rfl⟩ }

theorem claimNext (h : s.Owned H E (some w)) (refused : Nat) (rest : List Bytes) :
    (s.claimNext H E w refused rest).Owned H E none := by
  induction rest with
  | nil => exact h.end_walk _
  | cons token rest ih =>
    unfold SessionState.claimNext
    split
    · exact ih
    · next hclaim => exact h.claim hclaim rest refused

/-- A new walk holds no lease. -/
theorem fresh (h : s.Owned H E none) (hw : s.walks w = none) : s.Owned H E (some w) where
  sound := h.sound
  keyed := h.keyed
  own _ hv hlease htoken := h.own (by simp) hv hlease htoken
  current {i a} ha hl := by
    obtain ⟨-, walk, hv, hlease⟩ := h.current ha hl
    refine ⟨fun heq => ?_, walk, hv, hlease⟩
    rw [Option.some.inj heq, hw] at hv
    cases hv

/-- An attempt that answers, whose `close` throws only when the lease is released by then. -/
theorem answered {control : ControlMessage} {close : AttemptClose} (h : s.Owned H E none)
    (hw : s.walks w = some (.attempting token lease rest refused))
    (hclose : s.CloseReleases (.answer w control close)) :
    (s.answered H E w token lease rest refused control close).Owned H E none := by
  by_cases hrejected : control = .rejected
  · obtain ⟨a, ha, -⟩ := h.own (by simp) hw rfl rfl
    have hfree : (s.release lease).Owned H E (some w) := h.release_own hw rfl rfl
    rw [SessionState.answered, if_pos hrejected]
    cases hthrows : close.throws with
    | none =>
      have hagain : (if close.releases then s.release lease else s).release lease =
          s.release lease := by
        split
        · exact release_release ha
        · rfl
      show Owned H E none (SessionState.claimNext H E w (refused + 1) rest _)
      rw [hagain]
      exact hfree.claimNext _ _
    | some error =>
      have hreleased : (if close.releases then s.release lease else s) = s.release lease := by
        rcases hclose hrejected (by simp [hthrows]) with hreleases | hdead
        · rw [if_pos hreleases]
        · simp only [attemptHolds, hw, ha, Option.any_some] at hdead
          rw [release_of_dead ha hdead, ite_self]
      show Owned H E none (setWalk w (.threw error) _)
      rw [hreleased]
      exact hfree.end_walk error
  · rw [SessionState.answered, if_neg hrejected]
    exact h.keep_lease hw rfl rfl

theorem step (h : s.Owned H E none) (hc : s.CloseReleases e) (ht : s.step H E e = some t) :
    t.Owned H E none := by
  cases e with
  | walk w stack =>
    simp only [SessionState.step] at ht
    split at ht
    · next hw =>
      cases ht
      exact (h.fresh hw).claimNext _ _
    · cases ht
  | answer w control close =>
    simp only [SessionState.step] at ht
    split at ht
    · next hw =>
      cases ht
      exact h.answered hw hc
    · cases ht
  | fail w error =>
    simp only [SessionState.step] at ht
    split at ht
    · next hw =>
      cases ht
      exact (h.release_own hw rfl rfl).end_walk error
    · cases ht
  | close lease =>
    simp only [SessionState.step] at ht
    split at ht
    · cases ht
      exact h.close lease
    · cases ht

end Owned

/-- A `close` that throws with the lease still held leaves a walk that threw with a live lease. -/
theorem not_exclusive_of_close (h : s.Owned H E none) (hc : ¬ s.CloseReleases e)
    (ht : s.step H E e = some t) : ¬ t.Exclusive H E := by
  cases e with
  | answer w control close =>
    simp only [CloseReleases, not_forall, not_or] at hc
    obtain ⟨hrejected, hthrows, hreleases, hholds⟩ := hc
    obtain ⟨error, herror⟩ := Option.ne_none_iff_exists'.mp hthrows
    simp only [SessionState.step] at ht
    split at ht
    · next token lease rest refused hw =>
      cases ht
      obtain ⟨a, ha, hclaimant, -⟩ := h.own (by simp) hw rfl rfl
      have hlive : a.live = true := by
        simpa [attemptHolds, hw, ha] using hholds
      have hthrew : (s.answered H E w token lease rest refused control close).walks w =
          some (.threw error) := by
        simp [answered, hrejected, hreleases, herror, setWalk]
      have hleased : (s.answered H E w token lease rest refused control close).leases[lease]? =
          some a := by
        simpa [answered, hrejected, hreleases, herror, setWalk] using ha
      intro hex
      have hdead : a.live = false := hex.threw hthrew hleased (by rw [hclaimant])
      rw [hlive] at hdead
      cases hdead
    · cases ht
  | walk => exact absurd trivial hc
  | fail => exact absurd trivial hc
  | close => exact absurd trivial hc

/-- In a run of the walks of one manager, the leases are exclusive in every state exactly when no
refused attempt's `close` throws before the lease is released. -/
theorem exclusive_iff (manager : TokenManager) (es : List SessionEvent) :
    Always (step H E) (Exclusive H E) (initial manager) es ↔
      Guarded (step H E) CloseReleases (initial manager) es :=
  always_iff_guarded (I := Owned H E none) Owned.exclusive Owned.step not_exclusive_of_close
    (owned_initial manager)

/-- A token of the right type and length. -/
def sampleToken : Bytes := [0x00, 0x02] ++ List.replicate 352 0

/-- The exit refuses the one token of a walk, and the attempt's `close` throws. -/
def closeThrows : List SessionEvent :=
  [.walk 0 [sampleToken],
    .answer 0 .rejected
      { releases := false
        throws := some (.error "InvalidStateError") }]

theorem not_exclusive_closeThrows :
    ¬ Always (step sampleHashes sampleEncodings) (Exclusive sampleHashes sampleEncodings)
      (initial (TokenManager.new sampleEncodings {} none)) closeThrows := by
  intro h
  have hkey : TokenManager.heldKey sampleHashes sampleEncodings sampleToken =
      some (List.replicate 32 0) := by decide +kernel
  obtain ⟨t, ht, hw, hlease⟩ : ∃ t,
      step sampleHashes sampleEncodings (initial (TokenManager.new sampleEncodings {} none))
        (.walk 0 [sampleToken]) = some t ∧
      t.walks 0 = some (.attempting sampleToken 0 [] 0) ∧
      t.leases[0]? = some (Lease.mk (List.replicate 32 0) true (Claimant.mk 0 sampleToken)) := by
    refine ⟨_, rfl, ?_⟩
    have htake : [sampleToken].take MAX_SESSION_TOKENS = [sampleToken] := rfl
    rw [htake, claimNext, TokenManager.claim, hkey]
    exact ⟨rfl, rfl⟩
  have hexclusive := ((h.2 t ht).2 (t.setWalk 0 (.threw (.error "InvalidStateError")))
    (by rw [step, hw]; rfl)).head
  have hdead : true = false := hexclusive.threw (w := 0) (i := 0) rfl hlease rfl
  cases hdead

end SessionState

end WarrenSdk.Core
