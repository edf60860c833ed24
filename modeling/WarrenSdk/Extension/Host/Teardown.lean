import WarrenSdk.Extension.Host.Session
import WarrenSdk.Lib.Run
import Mathlib.Data.List.Count
import Mathlib.Data.List.Nodup

/-!
# What a disconnect leaves behind

After a `disconnect` that was answered, or a `close` that resolved, no tunnel of an earlier connect
should live. A `connect` does not look whether it was overtaken, and the state callback of a tunnel
does not look whether its tunnel was torn down: `leavesNothing_iff` says when neither shows.
-/

namespace WarrenSdk.Extension.Host
open WarrenSdk.Lib WarrenSdk.Core

namespace HostSession

/-- The tunnel `n` is being dialed. -/
def Dialing (n : Nat) (s : HostSession) : Prop := ∃ t id, s.calls t = some (.dialing id n)

/-- A `disconnect` was answered or a `close` resolved, and no `connect` request came in after it. -/
def AtRest (s : HostSession) : Prop := ∃ t ∈ s.ended, ∀ c, s.lastConnect = some c → c < t

/-- The answer to a `status` request. -/
def status (id : RequestId) (s : HostSession) : Message := .status id s.state s.endpoints s.exit

/-- A session at rest has no tunnel and reports none, and every tunnel was shut down once, or will
be: its dial has yet to end. -/
def LeavesNothing (s : HostSession) : Prop :=
  s.AtRest → s.tunnel = none ∧ (∀ id, s.status id = .status id "disconnected" none none) ∧
    ∀ n < s.created, s.shutdowns.count n = 1 ∨ s.shutdowns.count n = 0 ∧ s.Dialing n

/-- What a `status` goes by. -/
inductive Report
  /-- A teardown begins. -/
  | teardown
  /-- A dial succeeds. -/
  | connected
  /-- A tunnel reports a state; a connect that failed reports `disconnected`. -/
  | state (state : String)
deriving DecidableEq

/-- What an event reports. -/
def report (s : HostSession) : Event → Option Report
  | .handle (.disconnect _) _ | .close => some .teardown
  | .dialed _ (.ok reported) => if (credentials reported).isSome then some .connected else none
  | .shutDown t =>
    match s.calls t with
    | some (.failing ..) => some (.state "disconnected")
    | _ => none
  | .state _ state => some (.state state)
  | _ => none

/-- What was reported since the last teardown began, the last first. -/
def sinceTeardown (reports : List Report) : List Report := reports.takeWhile (· ≠ .teardown)

/-- Since the last teardown began no dial has succeeded, and the last state reported, if any, is
`disconnected`. -/
def Undisturbed (reports : List Report) : Prop :=
  .connected ∉ sinceTeardown reports ∧
    ∀ state, (sinceTeardown reports).head? = some (.state state) → state = "disconnected"

/-- A session at rest has no dial that succeeds and no state reported but `disconnected`; and where
it comes to rest, nothing has disturbed it since the last teardown began. -/
def NotOvertaken (s : Noted HostSession Report) : Event → Prop
  | .dialed _ (.ok reported) => (credentials reported).isSome → ¬ s.state.AtRest
  | .state _ state => s.state.AtRest → state = "disconnected"
  | .shutDown t =>
    (∃ id, s.state.calls t = some (.disconnecting id)) ∨ s.state.calls t = some .closing →
      (∀ c, s.state.lastConnect = some c → c < t) → Undisturbed s.notes
  | _ => True

/-- Whose each tunnel is: every tunnel that was not shut down is stored or at its dial, one connect
runs at a time, and a session at rest has no tunnel. -/
structure Owned (s : HostSession) : Prop where
  nextCall : ∀ {t}, s.nextCall ≤ t → s.calls t = none
  ended_lt : ∀ {t}, t ∈ s.ended → t < s.nextCall
  connecting : ∀ {t c}, s.calls t = some c → c.isConnect → s.connecting = true
  one : ∀ {t t' c c'}, s.calls t = some c → s.calls t' = some c' → c.isConnect → c'.isConnect →
    t = t'
  stored : ∀ {n}, s.tunnel = some n → s.connecting = false ∧ n < s.created ∧ n ∉ s.shutdowns
  dialing : ∀ {n}, s.Dialing n → n < s.created ∧ n ∉ s.shutdowns
  kept : ∀ {n}, n < s.created → n ∉ s.shutdowns → s.tunnel = some n ∨ s.Dialing n
  shutdowns_lt : ∀ {n}, n ∈ s.shutdowns → n < s.created
  nodup : s.shutdowns.Nodup
  idle : s.tunnel = none → s.endpoints = none ∧ s.exit = none
  rest : s.AtRest → s.tunnel = none ∧ s.state = "disconnected"

theorem Owned.leavesNothing {s : HostSession} (h : s.Owned) : s.LeavesNothing := by
  intro hrest
  obtain ⟨htunnel, hstate⟩ := h.rest hrest
  obtain ⟨hendpoints, hexit⟩ := h.idle htunnel
  refine ⟨htunnel, fun id => ?_, fun n hn => ?_⟩
  · rw [status, hstate, hendpoints, hexit]
  · by_cases hmem : n ∈ s.shutdowns
    · exact .inl (List.count_eq_one_of_mem h.nodup hmem)
    · refine .inr ⟨List.count_eq_zero_of_not_mem hmem, ?_⟩
      exact (h.kept hn hmem).resolve_left (by rw [htunnel]; exact Option.some_ne_none n |>.symm)

theorem owned_initial : Owned {} where
  nextCall _ := rfl
  ended_lt h := by cases h
  connecting h := by cases h
  one h := by cases h
  stored h := by cases h
  dialing := by rintro n ⟨t, id, h⟩; cases h
  kept h := absurd h (Nat.not_lt_zero _)
  shutdowns_lt h := by cases h
  nodup := List.nodup_nil
  idle _ := ⟨rfl, rfl⟩
  rest := by rintro ⟨t, h, -⟩; cases h

variable {s : HostSession}

/-- No call is a `connect`. -/
def NoConnect (s : HostSession) : Prop := ∀ t c, s.calls t = some c → c.isConnect = false

theorem calls_wake {t t' : Nat} {c : Call} (h : (s.wake t).calls t' = some c) :
    t' ≠ t ∧ s.calls t' = some c := by
  by_cases ht : t' = t
  · subst ht
    simp [wake] at h
  · exact ⟨ht, by simpa [wake, ht] using h⟩

theorem calls_suspend {t t' : Nat} {c d : Call} (h : (s.suspend t c).calls t' = some d) :
    t' = t ∧ d = c ∨ t' ≠ t ∧ s.calls t' = some d := by
  by_cases ht : t' = t
  · subst ht
    simp only [suspend, Function.update_self, Option.some.injEq] at h
    exact .inl ⟨rfl, h.symm⟩
  · exact .inr ⟨ht, by simpa [suspend, ht] using h⟩

theorem dialing_suspend {t n : Nat} {c : Call} (h : s.Dialing n) (hfree : s.calls t = none) :
    (s.suspend t c).Dialing n := by
  obtain ⟨t', id, h⟩ := h
  have ht : t' ≠ t := by
    rintro rfl
    rw [hfree] at h
    cases h
  exact ⟨t', id, by simpa [suspend, ht] using h⟩

/-! ## What is reported -/

/-- What a report makes of the tunnel and the state. -/
def Shows (s s' : HostSession) : Option Report → Prop
  | none => s'.tunnel = s.tunnel ∧ s'.state = s.state
  | some .teardown => s'.tunnel = none ∧ s'.state = "disconnected"
  | some .connected => s'.tunnel ≠ none ∧ s'.state = "connected"
  | some (.state state) => s'.tunnel = s.tunnel ∧ s'.state = state

theorem shows_handle {E : Encodings} {options : HostSessionOptions} {t : Nat}
    {datapath : Option HostDatapath} {request : Request} :
    Shows s (s.handle E options t datapath request) (s.report (.handle request datapath)) := by
  cases request with
  | malformed | status | other | disconnect => exact ⟨rfl, rfl⟩
  | hello id protocol channel =>
    simp only [HostSession.handle, hello, report, Shows]
    repeat' split
    all_goals exact ⟨rfl, rfl⟩
  | connect id request =>
    simp only [HostSession.handle, connect, report, Shows]
    repeat' split
    all_goals exact ⟨rfl, rfl⟩
  | exits id =>
    simp only [HostSession.handle, report, Shows]
    split
    all_goals exact ⟨rfl, rfl⟩
  | account id mnemonic =>
    simp only [HostSession.handle, report, Shows]
    split
    all_goals exact ⟨rfl, rfl⟩

theorem shows_step {E : Encodings} {options : HostSessionOptions}
    (hs : s.step E options e = some s') : Shows s s' (s.report e) := by
  cases e with
  | handle request datapath =>
    cases hs
    exact shows_handle (s := { s with nextCall := s.nextCall + 1 })
  | close =>
    cases hs
    exact ⟨rfl, rfl⟩
  | created t result =>
    simp only [HostSession.step] at hs
    split at hs
    · cases hs
      cases result with
      | ok | error => exact ⟨rfl, rfl⟩
    · cases hs
  | dialed t result =>
    simp only [HostSession.step] at hs
    split at hs
    · cases hs
      cases result with
      | error error => exact ⟨rfl, rfl⟩
      | ok reported =>
        simp only [HostSession.dialed, report]
        cases credentials reported with
        | none => exact ⟨rfl, rfl⟩
        | some auth => exact ⟨Option.some_ne_none _, rfl⟩
    · cases hs
  | shutDown t =>
    simp only [HostSession.step] at hs
    simp only [report]
    split at hs
    · next ht =>
      cases hs
      rw [ht]
      exact ⟨rfl, rfl⟩
    · next ht =>
      cases hs
      rw [ht]
      exact ⟨rfl, rfl⟩
    · next ht =>
      cases hs
      rw [ht]
      exact ⟨rfl, rfl⟩
    · cases hs
  | listed t result | expiry t result =>
    simp only [HostSession.step] at hs
    split at hs
    · cases hs
      cases result with
      | ok | error => exact ⟨rfl, rfl⟩
    · cases hs
  | state t state =>
    simp only [HostSession.step] at hs
    split at hs
    · cases hs
      exact ⟨rfl, rfl⟩
    · cases hs

/-- The state that is left by what was reported. -/
def lastState : List Report → String
  | [] | .teardown :: _ => "disconnected"
  | .connected :: _ => "connected"
  | .state state :: _ => state

/-- A session is as it was reported. -/
structure Told (s : Noted HostSession Report) : Prop where
  tunnel : s.state.tunnel = none ↔ .connected ∉ sinceTeardown s.notes
  state : s.state.state = lastState s.notes

theorem told_initial : Told { state := {} } := ⟨by decide, rfl⟩

theorem Told.step {E : Encodings} {options : HostSessionOptions} {w w' : Noted HostSession Report}
    (h : Told w) (hs : noting (step E options) report w e = some w') : Told w' := by
  obtain ⟨s', hstep, rfl⟩ := Option.map_eq_some_iff.mp hs
  have hshows := shows_step hstep
  cases hreport : w.state.report e with
  | none =>
    rw [hreport] at hshows
    obtain ⟨htunnel, hstate⟩ := hshows
    exact ⟨by rw [htunnel]; exact h.tunnel, hstate.trans h.state⟩
  | some r =>
    rw [hreport] at hshows
    cases r with
    | teardown =>
      obtain ⟨htunnel, hstate⟩ := hshows
      exact ⟨iff_of_true htunnel List.not_mem_nil, hstate⟩
    | connected =>
      obtain ⟨htunnel, hstate⟩ := hshows
      exact ⟨iff_of_false htunnel fun hno => hno List.mem_cons_self, hstate⟩
    | state state =>
      obtain ⟨htunnel, hstate⟩ := hshows
      refine ⟨?_, hstate⟩
      rw [htunnel, h.tunnel]
      exact not_congr (by simp [sinceTeardown])

theorem Told.undisturbed_iff {w : Noted HostSession Report} (h : Told w) :
    w.state.tunnel = none ∧ w.state.state = "disconnected" ↔ Undisturbed w.notes := by
  rw [h.tunnel, h.state]
  refine and_congr_right fun hno => ?_
  cases hnotes : w.notes with
  | nil => simp [lastState, sinceTeardown]
  | cons r notes =>
    rw [hnotes] at hno
    cases r with
    | teardown => simp [lastState, sinceTeardown]
    | connected => exact absurd List.mem_cons_self hno
    | state state => simp [lastState, sinceTeardown]

namespace Owned

theorem send (h : s.Owned) (message : Message) : (s.send message).Owned := { h with }

theorem ask (h : s.Owned) (asked : Asked) : (s.ask asked).Owned := { h with }

/-- A call that is no dial is taken off. -/
theorem wake (h : s.Owned) (ht : s.calls t = some c) (hc : ∀ id n, c ≠ .dialing id n) :
    (s.wake t).Owned :=
  { h with
    nextCall := by
      intro t' hle
      by_cases htt : t' = t
      · subst htt
        exact Function.update_self ..
      · exact (Function.update_of_ne htt ..).trans (h.nextCall hle)
    connecting := fun h' => h.connecting (calls_wake h').2
    one := fun h₁ h₂ => h.one (calls_wake h₁).2 (calls_wake h₂).2
    dialing := by
      rintro n ⟨t', id, h'⟩
      exact h.dialing ⟨t', id, (calls_wake h').2⟩
    kept := by
      intro n hn hmem
      refine (h.kept hn hmem).imp_right ?_
      rintro ⟨t', id, h'⟩
      have htt : t' ≠ t := by
        rintro rfl
        rw [ht] at h'
        exact hc id n (Option.some.inj h')
      exact ⟨t', id, (Function.update_of_ne htt ..).trans h'⟩ }

/-- A call that is no dial is suspended. -/
theorem suspend (h : s.Owned) (hfree : s.calls t = none) (hlt : t < s.nextCall)
    (hd : ∀ id n, c ≠ .dialing id n)
    (hc : c.isConnect = true → s.connecting = true ∧ s.NoConnect) : (s.suspend t c).Owned :=
  { h with
    nextCall := by
      intro t' hle
      have htt : t' ≠ t := fun heq => absurd hlt (heq ▸ Nat.not_lt.mpr hle)
      exact (Function.update_of_ne htt ..).trans (h.nextCall hle)
    connecting := by
      intro t' d h' hd'
      rcases calls_suspend h' with ⟨rfl, rfl⟩ | ⟨-, h'⟩
      · exact (hc hd').1
      · exact h.connecting h' hd'
    one := by
      intro t₁ t₂ c₁ c₂ h₁ h₂ hc₁ hc₂
      rcases calls_suspend h₁ with ⟨rfl, rfl⟩ | ⟨-, hcall₁⟩ <;>
        rcases calls_suspend h₂ with ⟨rfl, rfl⟩ | ⟨-, hcall₂⟩
      · rfl
      · rw [(hc hc₁).2 _ _ hcall₂] at hc₂
        cases hc₂
      · rw [(hc hc₂).2 _ _ hcall₁] at hc₁
        cases hc₁
      · exact h.one hcall₁ hcall₂ hc₁ hc₂
    dialing := by
      rintro n ⟨t', id, h'⟩
      rcases calls_suspend h' with ⟨-, heq⟩ | ⟨-, h'⟩
      · exact absurd heq.symm (hd id n)
      · exact h.dialing ⟨t', id, h'⟩
    kept := fun hn hmem => (h.kept hn hmem).imp_right (dialing_suspend · hfree) }

/-- A connect runs alone. -/
theorem noConnect_wake (h : s.Owned) (ht : s.calls t = some c) (hc : c.isConnect = true) :
    (s.wake t).NoConnect := by
  intro t' c' h'
  obtain ⟨htt, h'⟩ := calls_wake h'
  by_contra hc'
  exact htt (h.one h' ht (Bool.eq_true_of_not_eq_false hc') hc)

/-- The tunnel that was stored is shut down. -/
theorem teardown (h : s.Owned) : s.teardown.Owned :=
  { h with
    stored := by rintro n ⟨⟩
    dialing := by
      intro n hn
      obtain ⟨hlt, hmem⟩ := h.dialing hn
      refine ⟨hlt, fun hmem' => ?_⟩
      rcases List.mem_append.mp hmem' with hmem' | hmem'
      · exact hmem hmem'
      · obtain ⟨t, id, hcall⟩ := hn
        have hconnecting := h.connecting hcall rfl
        rw [(h.stored (Option.mem_toList.mp hmem')).1] at hconnecting
        cases hconnecting
    kept := by
      intro n hn hmem
      refine .inr ((h.kept hn fun h' => hmem (List.mem_append_left _ h')).resolve_left ?_)
      exact fun hstored => hmem (List.mem_append_right _ (Option.mem_toList.mpr hstored))
    shutdowns_lt := by
      intro n hmem
      rcases List.mem_append.mp hmem with hmem | hmem
      · exact h.shutdowns_lt hmem
      · exact (h.stored (Option.mem_toList.mp hmem)).2.1
    nodup := by
      refine h.nodup.append (by cases s.tunnel <;> simp) ?_
      intro n hmem hmem'
      exact (h.stored (Option.mem_toList.mp hmem')).2.2 hmem
    idle := fun _ => ⟨rfl, rfl⟩
    rest := fun _ => ⟨rfl, rfl⟩ }

/-- A tunnel whose dial failed is shut down. -/
theorem dial_failed {id : RequestId} (h : s.Owned) (ht : s.calls t = some (.dialing id n))
    (error : Thrown) : ((s.wake t).failConnect t id (some n) error).Owned := by
  have ⟨hlt, hnew⟩ := h.dialing ⟨t, id, ht⟩
  have hconnecting : s.connecting = true := h.connecting ht rfl
  have hnone : s.tunnel = none := by
    cases hstored : s.tunnel with
    | none => rfl
    | some m =>
      rw [(h.stored hstored).1] at hconnecting
      cases hconnecting
  have hcalls : ∀ {t' c}, ((s.wake t).failConnect t id (some n) error).calls t' = some c →
      t' = t ∧ c = .failing id error ∨ t' ≠ t ∧ s.calls t' = some c := by
    intro t' c h'
    exact (calls_suspend h').imp_right fun ⟨hne, h'⟩ => ⟨hne, (calls_wake h').2⟩
  exact
    { h with
      nextCall := by
        intro t' hle
        have htt : t' ≠ t := by
          rintro rfl
          rw [h.nextCall hle] at ht
          cases ht
        exact (Function.update_of_ne htt ..).trans
          ((Function.update_of_ne htt ..).trans (h.nextCall hle))
      connecting := fun _ _ => hconnecting
      one := by
        intro t₁ t₂ c₁ c₂ h₁ h₂ hc₁ hc₂
        have hown : ∀ {t' c}, ((s.wake t).failConnect t id (some n) error).calls t' = some c →
            c.isConnect = true → t' = t := by
          intro t' c h' hc
          rcases hcalls h' with ⟨htt, -⟩ | ⟨-, h'⟩
          · exact htt
          · exact h.one h' ht hc rfl
        rw [hown h₁ hc₁, hown h₂ hc₂]
      stored := fun hstored => by
        rw [show s.tunnel = some _ from hstored] at hnone
        cases hnone
      dialing := by
        rintro m ⟨t', id', h'⟩
        rcases hcalls h' with ⟨-, heq⟩ | ⟨htt, h'⟩
        · cases heq
        · exact absurd (h.one h' ht rfl rfl) htt
      kept := by
        intro m hm hmem
        have hne : m ≠ n := fun heq => hmem (List.mem_append_right _ (by simp [heq]))
        refine (h.kept hm fun h' => hmem (List.mem_append_left _ h')).imp_right ?_
        rintro ⟨t', id', h'⟩
        have htt : t' ≠ t := by
          rintro rfl
          rw [ht] at h'
          cases h'
          exact hne rfl
        exact ⟨t', id', (Function.update_of_ne htt ..).trans
          ((Function.update_of_ne htt ..).trans h')⟩
      shutdowns_lt := by
        intro m hmem
        rcases List.mem_append.mp hmem with hmem | hmem
        · exact h.shutdowns_lt hmem
        · rw [List.mem_singleton.mp hmem]
          exact hlt
      nodup := h.nodup.append (List.nodup_singleton n) (by simpa using hnew) }

/-- A tunnel whose dial succeeded is stored. -/
theorem dial_succeeded {id : RequestId} (h : s.Owned) (ht : s.calls t = some (.dialing id n))
    (hrest : ¬ s.AtRest) (reported : Reported) (auth : ExtensionProxyAuth) :
    ((s.wake t).tunnelConnected id n reported auth).Owned := by
  have halone : (s.wake t).NoConnect := h.noConnect_wake ht rfl
  exact
    { h with
      nextCall := by
        intro t' hle
        have htt : t' ≠ t := by
          rintro rfl
          rw [h.nextCall hle] at ht
          cases ht
        exact (Function.update_of_ne htt ..).trans (h.nextCall hle)
      connecting := by
        intro t' c h' hc
        rw [halone t' c h'] at hc
        cases hc
      one := by
        intro t₁ t₂ c₁ c₂ h₁ _ hc₁ _
        rw [halone t₁ c₁ h₁] at hc₁
        cases hc₁
      stored := by
        rintro m ⟨⟩
        exact ⟨rfl, h.dialing ⟨t, id, ht⟩⟩
      dialing := by
        rintro m ⟨t', id', h'⟩
        exact h.dialing ⟨t', id', (calls_wake h').2⟩
      kept := by
        intro m hm hmem
        by_cases hmn : m = n
        · exact .inl (congrArg some hmn.symm)
        · refine .inr ?_
          rcases h.kept hm hmem with hstored | ⟨t', id', h'⟩
          · have hconnecting := h.connecting ht rfl
            rw [(h.stored hstored).1] at hconnecting
            cases hconnecting
          · rw [h.one h' ht rfl rfl, ht] at h'
            cases h'
            exact absurd rfl hmn
      idle := by rintro ⟨⟩
      rest := fun h' => absurd h' hrest }

theorem tunnelCreated {id : RequestId} (h : s.Owned)
    (ht : s.calls t = some (.creating id options)) (result : Except Thrown Unit) :
    ((s.wake t).tunnelCreated t id options result).Owned := by
  have hlt : t < s.nextCall := by
    by_contra hle
    rw [h.nextCall (Nat.not_lt.mp hle)] at ht
    cases ht
  have hconnecting : s.connecting = true := h.connecting ht rfl
  have halone : (s.wake t).NoConnect := h.noConnect_wake ht rfl
  have hwake : (s.wake t).Owned := h.wake ht (by simp)
  have hfree : (s.wake t).calls t = none := Function.update_self ..
  cases result with
  | error error =>
    have hshutdown : (s.wake t).shutdown none = s.wake t := by simp [shutdown]
    rw [HostSession.tunnelCreated, failConnect, hshutdown]
    exact hwake.suspend hfree hlt (by simp) fun _ => ⟨hconnecting, halone⟩
  | ok =>
    have hcalls : ∀ {t' c}, ((s.wake t).tunnelCreated t id options (.ok ())).calls t' = some c →
        t' = t ∧ c = .dialing id s.created ∨ t' ≠ t ∧ (s.wake t).calls t' = some c :=
      fun h' => calls_suspend h'
    exact
      { hwake with
        nextCall := by
          intro t' hle
          have htt : t' ≠ t := fun heq => absurd hlt (heq ▸ Nat.not_lt.mpr hle)
          exact (Function.update_of_ne htt ..).trans (hwake.nextCall hle)
        connecting := fun _ _ => hconnecting
        one := by
          intro t₁ t₂ c₁ c₂ h₁ h₂ hc₁ hc₂
          have hown : ∀ {t' c}, ((s.wake t).tunnelCreated t id options (.ok ())).calls t' =
              some c → c.isConnect = true → t' = t := by
            intro t' c h' hc
            rcases hcalls h' with ⟨htt, -⟩ | ⟨-, h'⟩
            · exact htt
            · rw [halone t' c h'] at hc
              cases hc
          rw [hown h₁ hc₁, hown h₂ hc₂]
        stored := by
          intro n hstored
          obtain ⟨hidle, hn, hmem⟩ := h.stored hstored
          exact ⟨hidle, Nat.lt_succ_of_lt hn, hmem⟩
        dialing := by
          rintro n ⟨t', id', h'⟩
          rcases hcalls h' with ⟨-, heq⟩ | ⟨-, h'⟩
          · cases heq
            exact ⟨Nat.lt_succ_self _, fun hmem => Nat.lt_irrefl _ (h.shutdowns_lt hmem)⟩
          · exact absurd (halone t' _ h') (by simp [Call.isConnect])
        kept := by
          intro n hn hmem
          rcases Nat.lt_succ_iff_lt_or_eq.mp hn with hn | rfl
          · refine (hwake.kept hn hmem).imp_right ?_
            rintro ⟨t', id', h'⟩
            exact absurd (halone t' _ h') (by simp [Call.isConnect])
          · exact .inr ⟨t, id, Function.update_self ..⟩
        shutdowns_lt := fun hmem => Nat.lt_succ_of_lt (h.shutdowns_lt hmem) }

theorem connectFailed {id : RequestId} (h : s.Owned) (ht : s.calls t = some (.failing id error)) :
    ((s.wake t).connectFailed id error).Owned := by
  have halone : (s.wake t).NoConnect := h.noConnect_wake ht rfl
  have hwake : (s.wake t).Owned := h.wake ht (by simp)
  exact
    { hwake with
      connecting := by
        intro t' c h' hc
        rw [halone t' c h'] at hc
        cases hc
      stored := fun hstored => ⟨rfl, (hwake.stored hstored).2⟩
      rest := fun hrest => ⟨(hwake.rest hrest).1, rfl⟩ }

/-- A call that comes in is the last. -/
theorem call (h : s.Owned) : Owned { s with nextCall := s.nextCall + 1 } :=
  { h with
    nextCall := fun hle => h.nextCall (Nat.le_of_succ_le hle)
    ended_lt := fun hmem => Nat.lt_succ_of_lt (h.ended_lt hmem) }

/-- A session that a `connect` request came to is not at rest. -/
theorem not_atRest (h : s.Owned) :
    ¬ AtRest { s with nextCall := s.nextCall + 1, lastConnect := some s.nextCall } := by
  rintro ⟨t, hmem, hlast⟩
  exact Nat.lt_asymm (hlast _ rfl) (h.ended_lt hmem)

theorem connect (h : s.Owned) (E : Encodings) (id : RequestId) (request : ConnectRequest) :
    ({ s with nextCall := s.nextCall + 1, lastConnect := some s.nextCall }.connect E s.nextCall id
      request).Owned := by
  have hcall : Owned { s with nextCall := s.nextCall + 1, lastConnect := some s.nextCall } :=
    { h.call with rest := fun hrest => absurd hrest h.not_atRest }
  unfold HostSession.connect
  split
  · exact hcall.send _
  · next hidle =>
    simp only [Bool.or_eq_true, not_or, Bool.not_eq_true, Option.isSome_eq_false_iff,
      Option.isNone_iff_eq_none] at hidle
    obtain ⟨hconnecting, htunnel⟩ := hidle
    split
    · exact hcall.send _
    · have halone : s.NoConnect := by
        intro t c ht
        by_contra hc
        rw [h.connecting ht (Bool.eq_true_of_not_eq_false hc)] at hconnecting
        cases hconnecting
      have hstarted : Owned
          { s with
            nextCall := s.nextCall + 1
            lastConnect := some s.nextCall
            connecting := true
            callbacks := s.callbacks ++ [s.nextCall] } :=
        { hcall with
          connecting := fun _ _ => rfl
          stored := by
            intro n hstored
            rw [show s.tunnel = some n from hstored] at htunnel
            cases htunnel }
      exact (hstarted.ask _).suspend (h.nextCall (Nat.le_refl _)) (Nat.lt_succ_self _) (by simp)
        fun _ => ⟨rfl, halone⟩

/-- A `disconnect` is answered, or a `close` resolves. -/
theorem ended (h : s.Owned) (ht : s.calls t = some c) (hc : ∀ id n, c ≠ .dialing id n)
    (hrest : (∀ c, s.lastConnect = some c → c < t) → s.tunnel = none ∧ s.state = "disconnected") :
    Owned { s.wake t with ended := s.ended ++ [t] } := by
  have hlt : t < s.nextCall := by
    by_contra hle
    rw [h.nextCall (Nat.not_lt.mp hle)] at ht
    cases ht
  exact
    { h.wake ht hc with
      ended_lt := by
        intro t' hmem
        rcases List.mem_append.mp hmem with hmem | hmem
        · exact h.ended_lt hmem
        · rw [List.mem_singleton.mp hmem]
          exact hlt
      rest := by
        rintro ⟨t', hmem, hlast⟩
        rcases List.mem_append.mp hmem with hmem | hmem
        · exact h.rest ⟨t', hmem, hlast⟩
        · exact hrest (List.mem_singleton.mp hmem ▸ hlast) }

theorem handle {options : HostSessionOptions} (h : s.Owned) (E : Encodings)
    (datapath : Option HostDatapath) (request : Request) :
    ({ s with nextCall := s.nextCall + 1 }.handle E options s.nextCall datapath request).Owned := by
  have hfree : s.calls s.nextCall = none := h.nextCall (Nat.le_refl _)
  have hlt : s.nextCall < s.nextCall + 1 := Nat.lt_succ_self _
  cases request with
  | malformed => exact h.call
  | hello id protocol channel =>
    unfold HostSession.handle hello
    dsimp only
    split
    · exact h.call.send _
    · split
      · exact { h.call with }
      · split
        · exact h.call.send _
        · exact { h.call with }
  | status id => exact h.call.send _
  | connect id request => exact h.connect E id request
  | disconnect id => exact h.call.teardown.suspend hfree hlt (by simp) (by simp [Call.isConnect])
  | exits id =>
    unfold HostSession.handle
    dsimp only
    split
    · exact (h.call.ask _).suspend hfree hlt (by simp) (by simp [Call.isConnect])
    · exact h.call.send _
  | account id mnemonic =>
    unfold HostSession.handle
    dsimp only
    split
    · exact (h.call.ask _).suspend hfree hlt (by simp) (by simp [Call.isConnect])
    · exact h.call.send _
  | other id => exact h.call.send _

theorem dialed {id : RequestId} {reports : List Report} (h : s.Owned)
    (ht : s.calls t = some (.dialing id n)) (hc : NotOvertaken ⟨s, reports⟩ (.dialed t result)) :
    ((s.wake t).dialed t id n result).Owned := by
  cases result with
  | error error => exact h.dial_failed ht error
  | ok reported =>
    unfold HostSession.dialed
    dsimp only
    split
    · exact h.dial_failed ht _
    · next auth hauth =>
      refine h.dial_succeeded ht ?_ reported auth
      exact hc (by rw [hauth]; rfl)

theorem step {E : Encodings} {options : HostSessionOptions} {reports : List Report} (h : s.Owned)
    (htold : Told ⟨s, reports⟩) (hc : NotOvertaken ⟨s, reports⟩ e)
    (hs : s.step E options e = some s') : s'.Owned := by
  cases e with
  | handle request datapath =>
    cases hs
    exact h.handle E datapath request
  | close =>
    cases hs
    exact h.call.teardown.suspend (h.nextCall (Nat.le_refl _)) (Nat.lt_succ_self _) (by simp)
      (by simp [Call.isConnect])
  | created t result =>
    simp only [HostSession.step] at hs
    split at hs
    · next ht =>
      cases hs
      exact h.tunnelCreated ht result
    · cases hs
  | dialed t result =>
    simp only [HostSession.step] at hs
    split at hs
    · next ht =>
      cases hs
      exact h.dialed ht hc
    · cases hs
  | shutDown t =>
    simp only [HostSession.step] at hs
    split at hs
    · next ht =>
      cases hs
      exact h.connectFailed ht
    · next ht =>
      cases hs
      exact (h.ended ht (by simp) fun hlast => htold.undisturbed_iff.mpr
        (hc (.inl ⟨_, ht⟩) hlast)).send _
    · next ht =>
      cases hs
      exact h.ended ht (by simp) fun hlast => htold.undisturbed_iff.mpr (hc (.inr ht) hlast)
    · cases hs
  | listed t result =>
    simp only [HostSession.step] at hs
    split at hs
    · next ht =>
      cases hs
      cases result
      · exact (h.wake ht (by simp)).send _
      · exact (h.wake ht (by simp)).send _
    · cases hs
  | expiry t result =>
    simp only [HostSession.step] at hs
    split at hs
    · next ht =>
      cases hs
      cases result
      · exact (h.wake ht (by simp)).send _
      · exact (h.wake ht (by simp)).send _
    · cases hs
  | state t state =>
    simp only [HostSession.step] at hs
    split at hs
    · cases hs
      exact { h with rest := fun hrest => ⟨(h.rest hrest).1, hc hrest⟩ }
    · cases hs

end Owned

/-- A step that the condition leaves out shows at once. -/
theorem not_leavesNothing {E : Encodings} {options : HostSessionOptions} {reports : List Report}
    (htold : Told ⟨s, reports⟩) (hc : ¬ NotOvertaken ⟨s, reports⟩ e)
    (hs : s.step E options e = some s') : ¬ s'.LeavesNothing := by
  cases e with
  | dialed t result =>
    cases result with
    | error => exact absurd trivial hc
    | ok reported =>
      obtain ⟨hauth, hrest⟩ := Classical.not_imp.mp hc
      obtain ⟨auth, hauth⟩ := Option.isSome_iff_exists.mp hauth
      simp only [HostSession.step] at hs
      split at hs
      · next id n ht =>
        cases hs
        intro hleaves
        have hstored : ((s.wake t).dialed t id n (.ok reported)).tunnel = some n := by
          simp [dialed, hauth, tunnelConnected, send]
        have hrest' : ((s.wake t).dialed t id n (.ok reported)).AtRest := by
          simp only [dialed, hauth]
          exact Classical.not_not.mp hrest
        rw [(hleaves hrest').1] at hstored
        cases hstored
      · cases hs
  | state t state =>
    obtain ⟨hrest, hstate⟩ := Classical.not_imp.mp hc
    simp only [HostSession.step] at hs
    split at hs
    · cases hs
      intro hleaves
      have hstatus := (hleaves hrest).2.1 0
      simp only [status, send, Message.status.injEq] at hstatus
      exact hstate hstatus.2.1
    · cases hs
  | shutDown t =>
    simp only [NotOvertaken, Classical.not_imp] at hc
    obtain ⟨hcall, hlast, hleft⟩ := hc
    have hclean : s'.LeavesNothing → s.tunnel = none ∧ s.state = "disconnected" := by
      intro hleaves
      simp only [HostSession.step] at hs
      rcases hcall with ⟨id, ht⟩ | ht
      · rw [ht] at hs
        cases hs
        obtain ⟨htunnel, hstatus, -⟩ :=
          hleaves ⟨t, List.mem_append_right _ (List.mem_singleton_self t), hlast⟩
        have hstate := hstatus 0
        simp only [status, Message.status.injEq] at hstate
        exact ⟨htunnel, hstate.2.1⟩
      · rw [ht] at hs
        cases hs
        obtain ⟨htunnel, hstatus, -⟩ :=
          hleaves ⟨t, List.mem_append_right _ (List.mem_singleton_self t), hlast⟩
        have hstate := hstatus 0
        simp only [status, Message.status.injEq] at hstate
        exact ⟨htunnel, hstate.2.1⟩
    exact fun hleaves => hleft (htold.undisturbed_iff.mp (hclean hleaves))
  | handle | close | created | listed | expiry => exact absurd trivial hc

/-- In a run of a session, a `disconnect` or `close` leaves nothing behind in every state exactly
when nothing overtakes it. -/
theorem leavesNothing_iff (E : Encodings) (options : HostSessionOptions) (es : List Event) :
    Always (step E options) LeavesNothing {} es ↔
      Guarded (noting (step E options) report) NotOvertaken { state := {} } es := by
  rw [← always_noting report { state := {} }]
  refine always_iff_guarded (I := fun w => w.state.Owned ∧
    Told w) (fun h => h.1.leavesNothing) ?_ ?_
    ⟨owned_initial, told_initial⟩
  · intro w e w' h hc hs
    have htold := h.2.step hs
    obtain ⟨s', hstep, rfl⟩ := Option.map_eq_some_iff.mp hs
    exact ⟨h.1.step h.2 hc hstep, htold⟩
  · intro w e w' h hc hs
    obtain ⟨s', hstep, rfl⟩ := Option.map_eq_some_iff.mp hs
    exact not_leavesNothing h.2 hc hstep

/-- A `disconnect` is answered while the tunnel of a connect is being made; its dial then
succeeds. -/
def lateTunnel : List Event :=
  [.handle (.connect 1 { mnemonic := "abandon" }) none,
    .handle (.disconnect 2) none,
    .shutDown 1,
    .created 0 (.ok ()),
    .dialed 0 <| .ok
      { socks5 := "127.0.0.1:1080", username := some "warren", password := some "secret" }]

theorem not_leavesNothing_lateTunnel :
    ¬ Always (step sampleEncodings { listExits := true, accountStatus := true }) LeavesNothing {}
      lateTunnel := by
  intro h
  have hleaves := (((((h.2 _ rfl).2 _ rfl).2 _ rfl).2 _ rfl).2 _ rfl).head
  have htunnel : some 0 = none := (hleaves ⟨1, by decide, fun c hc => by cases hc; decide⟩).1
  cases htunnel

end HostSession

end WarrenSdk.Extension.Host
