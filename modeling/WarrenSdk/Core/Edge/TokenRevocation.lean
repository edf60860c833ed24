import WarrenSdk.Core.Edge.TokenSteps

/-!
# A revoked device

Once a manager has recorded that its device was revoked, it holds no token, saves none and asks for
none, whatever its refreshes in flight are still answered.
-/

namespace WarrenSdk.Core
open Lib

variable {H : Hashes} {E : Encodings} {fuel : Nat} {may : Nat → List Token → Prop}

namespace TokenManager

theorem revoked_settle (m : TokenManager) (epoch : Nat) : (m.settle epoch).revoked = m.revoked := by
  unfold settle
  split <;> rfl

theorem revoked_stock (m : TokenManager) (epoch : Nat) (tokens : List Token) :
    (m.stock epoch tokens).revoked = m.revoked := by
  unfold stock
  simp only
  split <;> exact revoked_settle m epoch

theorem Change.revoked {m n : TokenManager} (h : m.Change may n) : n.revoked = m.revoked := by
  cases h with
  | same => rfl
  | adopted => rfl
  | stocked epoch tokens => exact revoked_stock m epoch tokens
  | settled epoch => exact revoked_settle m epoch

/-- A pass stocks nothing for a revoked device. -/
theorem Change.store_empty {m n : TokenManager} (h : m.Change may n) (hm : m.revoked = true)
    (hstore : m.store = .empty) : n.store = .empty := by
  cases h with
  | same => exact hstore
  | adopted directory current =>
    have hkept : (m.adoptDirectory directory current).store =
        m.store.filterKeys fun epoch => !(epoch < current) := rfl
    rw [hkept, hstore]
    rfl
  | stocked epoch tokens h => cases hm.symm.trans h
  | settled epoch => rw [store_settle, hstore]

theorem popCurrent_of_empty {m : TokenManager} (h : m.store = .empty) (now : Nat) :
    m.popCurrent now = none := by
  unfold popCurrent
  split
  · rfl
  · rw [h, OrderedMap.get_empty]

theorem sessionStack_of_empty {m : TokenManager} (h : m.store = .empty) (now : Nat) :
    m.sessionStack H E now = [] := by
  unfold sessionStack
  split
  · rfl
  · rw [h, OrderedMap.get_empty]
    rfl

theorem revoked_popCurrent {m : TokenManager} (h : m.popCurrent now = some (token, n)) :
    n.revoked = m.revoked := by
  unfold popCurrent at h
  split at h
  · cases h
  · split at h
    · cases h
    · split at h
      · cases h
      · cases h
        rfl

end TokenManager

namespace TokenState

/-- Nothing is left, in memory and in what was saved. -/
structure Gone (E : Encodings) (s : TokenState) : Prop where
  store : s.manager.store = .empty
  saved : ∃ m : TokenManager, m.store = .empty ∧ s.persisted = some (m.bundle E)

/-- Revocation stays recorded. -/
theorem Did.revoked (h : Did E may s t) (hs : s.manager.revoked = true) :
    t.manager.revoked = true := by
  cases h with
  | aside u _ _ hm => exact hm.revoked.trans hs
  | passed u m hm h => exact (h.same.revoked.trans hm.revoked).trans hs
  | dropped hm => exact hm.revoked
  | took m token now hpop hm =>
    rw [hm]
    exact (TokenManager.revoked_popCurrent hpop).trans hs

/-- What revocation leaves stays so, and a step that records it leaves it so. -/
theorem Did.gone (h : Did E may s t) (hs : s.manager.revoked = true → s.Gone E)
    (ht : t.manager.revoked = true) : t.Gone E := by
  cases h with
  | aside u _ _ hm hp =>
    obtain ⟨hstore, m, hempty, hsaved⟩ := hs (hm.revoked.symm.trans ht)
    exact ⟨hm.store.trans hstore, m, hempty, hp.trans hsaved⟩
  | passed u m hm h =>
    have hrevoked : s.manager.revoked = true := (h.same.revoked.trans hm.revoked).symm.trans ht
    obtain ⟨hstore, n, hempty, hsaved⟩ := hs hrevoked
    have hgone : t.manager.store = .empty := h.same.store.trans (hm.store_empty hrevoked hstore)
    refine ⟨hgone, ?_⟩
    rcases h.saved with hp | ⟨hp, -⟩
    · exact ⟨t.manager, hgone, hp⟩
    · exact ⟨n, hempty, hp.trans hsaved⟩
  | dropped hm hp => exact ⟨hm.store, t.manager, hm.store, hp⟩
  | took m token now hpop hm =>
    have hrevoked : s.manager.revoked = true := by
      rw [← TokenManager.revoked_popCurrent hpop, ← hm, ht]
    rw [TokenManager.popCurrent_of_empty (hs hrevoked).store] at hpop
    cases hpop

/-- The events of one manager whose saves succeed. -/
def Keeping (_ : TokenState) (e : TokenEvent) : Prop :=
  e.Saves = true ∧ ∀ options, e ≠ .restart options

theorem keeping_did (hs : e.Saves = true) (hr : ∀ options, e ≠ .restart options) (hn : s.Numbered)
    (h : tokenStep H E fuel s e = some t) : t.Numbered ∧ Did E (fun _ _ => True) s t := by
  refine tokenStep_did hs hr hn ?_ h
  cases e with
  | resume u saved => exact fun _ _ _ _ _ => trivial
  | _ => trivial

theorem numbered_started (options : TokenManagerOptions) (raw : Option Json) :
    (started E options raw).Numbered := fun _ _ => rfl

theorem revoked_started (options : TokenManagerOptions) (raw : Option Json) :
    (started E options raw).manager.revoked = false := by
  obtain ⟨store, epochSecs, hnew⟩ := TokenManager.new_eq (E := E) options raw
  rw [started, hnew]

theorem gone_run {options : TokenManagerOptions} {raw : Option Json}
    (h : Run (tokenStep H E fuel) Keeping (started E options raw) s) :
    s.Numbered ∧ (s.manager.revoked = true → s.Gone E) := by
  refine h.invariant (I := fun s => s.Numbered ∧ (s.manager.revoked = true → s.Gone E)) ?_
    ⟨numbered_started options raw, fun hr => ?_⟩
  · rintro s e t ⟨hn, hs⟩ ⟨hsaves, hrestart⟩ hstep
    obtain ⟨hn, hdid⟩ := keeping_did hsaves hrestart hn hstep
    exact ⟨hn, hdid.gone hs⟩
  · cases (revoked_started options raw).symm.trans hr

/-- A refresh that starts once the device is revoked throws, and sends nothing. -/
theorem refresh_revoked {s : TokenState} (h : s.manager.revoked = true) (u now : Nat) :
    ∃ e, s.refresh u now = s.finish u (.error e) := by
  unfold refresh
  split
  · exact ⟨_, rfl⟩
  · rw [if_pos h]
    exact ⟨_, rfl⟩

/-- Revocation is final: in every state from then on, of any run, nothing is held and nothing was
saved with a token in it, nothing is taken or presented, and a refresh throws at once. -/
theorem revocation_final {options : TokenManagerOptions} {raw : Option Json}
    (h : Run (tokenStep H E fuel) Keeping (started E options raw) s)
    (hs : s.manager.revoked = true) (h' : Run (tokenStep H E fuel) Keeping s t) :
    t.manager.revoked = true ∧ t.manager.store = .empty ∧
      (∃ m : TokenManager, m.store = .empty ∧ t.persisted = some (m.bundle E)) ∧
      (∀ now, t.manager.popCurrent now = none ∧ t.manager.sessionStack H E now = []) ∧
      ∀ now o, tokenStep H E fuel t (.refresh now) = some o →
        o.sent = t.sent ∧ o.manager = t.manager ∧ o.refreshes = t.refreshes ∧
          ∃ e, o.finished = t.finished ++ [(t.nextRefresh, .error e)] := by
  have hrevoked : t.manager.revoked = true := by
    have hboth : t.Numbered ∧ t.manager.revoked = true := by
      refine h'.invariant (I := fun s => s.Numbered ∧ s.manager.revoked = true) ?_
        ⟨(gone_run h).1, hs⟩
      rintro s e t ⟨hn, hs⟩ ⟨hsaves, hrestart⟩ hstep
      obtain ⟨hn, hdid⟩ := keeping_did hsaves hrestart hn hstep
      exact ⟨hn, hdid.revoked hs⟩
    exact hboth.2
  have hgone := (gone_run (h.trans h')).2 hrevoked
  refine ⟨hrevoked, hgone.store, hgone.saved, fun now => ⟨?_, ?_⟩, fun now o ho => ?_⟩
  · exact TokenManager.popCurrent_of_empty hgone.store now
  · exact TokenManager.sessionStack_of_empty hgone.store now
  · cases ho
    obtain ⟨e, he⟩ := refresh_revoked
      (s := { t with nextRefresh := t.nextRefresh + 1, clock := now })
      hrevoked t.nextRefresh now
    rw [he]
    exact ⟨rfl, rfl, rfl, e, rfl⟩

def sampleDeviceOptions : TokenManagerOptions :=
  { blindingKey := some [], device := some ⟨[], [], [], []⟩ }

/-- A manager over a stock of two tokens. -/
def sampleStocked : TokenState :=
  started sampleEncodings sampleDeviceOptions
    (some ((TokenManager.sampleStock 2).bundle sampleEncodings))

/-- The registration of the first refresh is answered that the device was revoked, while a second
refresh is under way, which goes on. -/
theorem revocation_final_stocked :
    let H : Hashes := ⟨fun _ => .zero 32, fun _ => .zero 48, fun _ _ _ => .zero 32⟩
    ∃ s t, (sampleStocked.manager.stored 7).length = 2 ∧
      Run (tokenStep H sampleEncodings 0) Keeping sampleStocked s ∧ s.manager.revoked = true ∧
      Run (tokenStep H sampleEncodings 0) Keeping s t ∧ t.sent = s.sent ++ [.getDirectory] ∧
      t.manager.revoked = true ∧ t.manager.store = .empty ∧
      ∀ now, t.manager.popCurrent now = none := by
  intro H
  have hstored : sampleStocked.manager.stored = (TokenManager.sampleStock 2).stored :=
    TokenManager.stored_new_bundle sampleDeviceOptions (TokenManager.sampleStock 2)
  have h₁ : Run (tokenStep H sampleEncodings 0) Keeping sampleStocked _ :=
    .single (e := .refresh (3600 * 7)) ⟨rfl, nofun⟩ rfl
  have h₂ := h₁.tail (e := .refresh (3600 * 7)) ⟨rfl, nofun⟩ rfl
  have h₃ := h₂.tail (e := .registered 1 (.ok ⟨[]⟩) true) ⟨rfl, nofun⟩ rfl
  have h₄ := h₃.tail (e := .registered 0 (.error revokedError) true) ⟨rfl, nofun⟩ rfl
  obtain ⟨s, h, hs, hr⟩ : ∃ s, Run (tokenStep H sampleEncodings 0) Keeping sampleStocked s ∧
      s.manager.revoked = true ∧ s.refreshes 1 = some (.registered (3600 * 7) []) :=
    ⟨_, h₄, rfl, rfl⟩
  have hafter : Run (tokenStep H sampleEncodings 0) Keeping s _ :=
    .single (e := .resume 1 true) ⟨rfl, nofun⟩ (by rw [tokenStep, hr])
  obtain ⟨hrevoked, hstore, -, hnothing, -⟩ := revocation_final h hs hafter
  exact ⟨s, _, by rw [hstored]; rfl, h, hs, hafter, rfl, hrevoked, hstore,
    fun now => (hnothing now).1⟩

end TokenState

end WarrenSdk.Core
