import WarrenSdk.Extension.Client.FailClosed
import WarrenSdk.Extension.Client.Settings

/-!
# The listener of a released host

On Chromium the browser must not stay pointed at a listener that a host no longer serves. What it
ends up with is what was written last, so `ReleaseInv` follows that: while the tunnel is up it is
the tunnel's listener, and otherwise the lockdown block, but for the time a `reconnect` is under
way, in which an `applySplit` may write the old listener back. A `reconnect` that is done with its
release while that is so leaves it to the `connect` after to preserve; the runs in which none is
keep the invariant.
-/

namespace WarrenSdk.Extension
open Lib

/-- What the calls leave the proxy settings at, once all have their answers; `none` when none writes
them. -/
def lastWritten (calls : List BrowserCall) : Option (Option ProxyValue) :=
  (calls.filterMap BrowserCall.written).getLast?

/-- A `reconnect` that has not begun its `connect`. -/
def Task.isMove : Task → Bool
  | .reconnectLockdown _ _ | .reconnectRelease _ _ => true
  | _ => false

/-- The lockdown block, held by this extension. -/
def FoundLockdown (d : Option ProxySettingDetails) : Prop :=
  State.controlled d = true ∧ d.bind (·.value) = some (buildChromiumLockdownValue [])

namespace State

variable (api : ChromeLike)

/-- The lockdown block was written last. -/
def Blocked (s : State) : Prop :=
  lastWritten s.calls = some (some (buildChromiumLockdownValue []))

/-- The HTTP listener of `e` was written last. -/
def PointsAt (e : ExtensionEndpoints) (s : State) : Prop :=
  ∃ http split, e.http = some http ∧
    lastWritten s.calls = some (some (buildChromiumProxyValue api.toLowerCase http split))

/-- A `reconnect` has not begun its `connect`; `moving` tells whether one is running, and so
suspended nowhere. -/
def Moving (moving : Bool) (s : State) : Prop :=
  moving = true ∨ ∃ t x, s.tasks t = some x ∧ x.isMove = true

/-- Something else than the block was written last, under a `reconnect`. -/
def Stale (moving : Bool) (s : State) : Prop := s.Moving moving ∧ ¬ s.Blocked

/-- What a `connect` at an await has found and written. -/
def Ready (s : State) (c : ConnectCall) : ConnectAwait → Prop
  | .assertProxyControl n =>
    c.hardened = false ∧ (s.proxied = true → s.Blocked ∧ s.calls[n]? = some .settingsGet ∧
      (∀ m d, n ≤ m → s.calls[m]? = some d → d.written = none) ∧
      ∀ v, s.browserResults n = some (.ok v) → FoundLockdown v.details?)
  | .applyProxy g n =>
    c.hardened = true ∧ (s.proxied = true → FoundLockdown c.before) ∧
      if g.endpoints.http = none then
        (∃ e, s.browserResults n = some (.error e)) ∧ (s.proxied = true → s.Blocked)
      else s.endpoints = some g.endpoints ∧ s.PointsAt api g.endpoints
  | .verifyRouting g _ =>
    c.hardened = true ∧ (s.proxied = true → FoundLockdown c.before) ∧
      s.endpoints = some g.endpoints ∧ s.PointsAt api g.endpoints
  | .restoreSettings _ _ | .releasePolicy _ _ | .releasePrediction _ _ =>
    s.proxied = true → s.Blocked
  | _ => s.proxied = true → s.Blocked ∧ FoundLockdown c.before

/-- The calls on the proxy settings and their answers. -/
structure CallInv (s : State) : Prop where
  sound : s.view.ledger.Sound
  took : ∀ {n c r}, s.calls[n]? = some c → c.written ≠ none → s.browserResults n = some r →
    tookEffect r = true
  last : ∀ {w}, lastWritten s.calls = some w →
    ∃ n, s.view.ledger.Awaits BrowserCall.written tookEffect n w
  lockdown : ∀ {t options n}, s.tasks t = some (.reconnectLockdown options n) →
    s.calls[n]? = some (.settingsSet (some (buildChromiumLockdownValue [])))

structure ReleaseInv (moving : Bool) (s : State) : Prop extends CallInv s where
  releasing : s.releasing = true →
    moving = true ∨ ∃ t options r, s.tasks t = some (.reconnectRelease options r)
  up : s.tunnelUp = true → ¬ s.Moving moving → ∃ e, s.endpoints = some e ∧ s.PointsAt api e
  down : s.proxied = true → s.tunnelUp = false → s.connecting = false → ¬ s.Moving moving →
    s.Blocked
  waits : ∀ {t c a}, s.tasks t = some (.connect c a) → s.Stale moving ∨ s.Ready api c a

variable {api : ChromeLike} {s s' : State} {moving : Bool}

/-! ## What was written last -/

theorem lastWritten_append {calls : List BrowserCall} {c : BrowserCall} (hc : c.written = none) :
    lastWritten (calls ++ [c]) = lastWritten calls := by
  simp [lastWritten, hc]

theorem lastWritten_append_write {calls : List BrowserCall} {c : BrowserCall}
    (hc : c.written = some value) : lastWritten (calls ++ [c]) = some value := by
  simp [lastWritten, hc]

/-- The listener of a tunnel is no block. -/
theorem buildChromiumProxyValue_ne (toLowerCase : Utf16 → Utf16) (http : String)
    (split : SplitTunnelConfig) :
    buildChromiumProxyValue toLowerCase http split ≠ buildChromiumLockdownValue [] := by
  intro h
  unfold buildChromiumProxyValue buildChromiumLockdownValue at h
  split at h
  · cases h
  · simp at h

theorem PointsAt.not_blocked (h : s.PointsAt api e) : ¬ s.Blocked := by
  obtain ⟨http, split, -, hlast⟩ := h
  intro hblocked
  have heq := Option.some.inj (Option.some.inj (hlast.symm.trans hblocked))
  exact buildChromiumProxyValue_ne api.toLowerCase http split heq

/-! ## Parts that leave the settings alone -/

/-- What `ReleaseInv` speaks of, but for the calls in flight. -/
def releaseView (s : State) :=
  (s.view.ledger, s.proxied, s.tunnelUp, s.endpoints, s.connecting, s.releasing)

/-- The calls that `ReleaseInv` speaks of. -/
def isFollowed (x : Task) : Bool := x.isConnect || x.isMove

theorem Ready.frame (h : s.Ready api c a) (hc : s'.calls = s.calls)
    (hr : s'.browserResults = s.browserResults) (hp : s'.proxied = s.proxied)
    (he : s'.endpoints = s.endpoints) : s'.Ready api c a := by
  have hk : s'.Ready api c a = s.Ready api c a := by
    cases a <;> simp only [Ready, Blocked, PointsAt, hc, hr, hp, he]
  exact hk ▸ h

theorem Moving.of_tasks (h : s.Moving moving)
    (ht : ∀ t x, isFollowed x = true → s.tasks t = some x → s'.tasks t = some x) :
    s'.Moving moving := by
  refine h.imp_right ?_
  rintro ⟨t, x, hx, hmove⟩
  exact ⟨t, x, ht t x (by simp [isFollowed, hmove]) hx, hmove⟩

/-- The followed calls stay as they are, and so does what is followed of the rest. -/
theorem ReleaseInv.frame (h : ReleaseInv api moving s) (hv : s'.releaseView = s.releaseView)
    (ht : ∀ t x, isFollowed x = true → (s'.tasks t = some x ↔ s.tasks t = some x)) :
    ReleaseInv api moving s' := by
  have hmoving : s'.Moving moving ↔ s.Moving moving :=
    ⟨fun hm => hm.of_tasks fun t x hx => (ht t x hx).mp, fun hm =>
      hm.of_tasks fun t x hx => (ht t x hx).mpr⟩
  simp only [releaseView, Prod.mk.injEq] at hv
  obtain ⟨hl, hp, hu, he, hc, hr⟩ := hv
  have hcalls : s'.calls = s.calls := congrArg Ledger.calls hl
  have hresults : s'.browserResults = s.browserResults := congrArg Ledger.results hl
  have hblocked : s'.Blocked ↔ s.Blocked := by simp only [Blocked, hcalls]
  constructor
  · constructor
    · rw [hl]
      exact h.sound
    · rw [hcalls, hresults]
      exact h.took
    · rw [hcalls, hl]
      exact h.last
    · intro t options n hx
      rw [hcalls]
      exact h.lockdown ((ht t _ rfl).mp hx)
  · intro hrel
    rw [hr] at hrel
    refine (h.releasing hrel).imp_right ?_
    rintro ⟨t, options, r, hx⟩
    exact ⟨t, options, r, (ht t _ rfl).mpr hx⟩
  · rw [hu, hmoving, he]
    simp only [PointsAt, hcalls]
    exact h.up
  · rw [hp, hu, hc, hmoving, hblocked]
    exact h.down
  · intro t c a hx
    refine (h.waits ((ht t _ rfl).mp hx)).imp ?_ fun hr => hr.frame hcalls hresults hp he
    exact fun hs => ⟨hmoving.mpr hs.1, fun hb => hs.2 (hblocked.mp hb)⟩

theorem ReleaseInv.settle (h : ReleaseInv api moving s) : ReleaseInv api moving (s.settle t r) :=
  h.frame rfl fun _ _ _ => Iff.rfl

theorem ReleaseInv.aside (h : ReleaseInv api moving s) (ha : Aside s s')
    (hlt : ∀ {t}, s.tasks t ≠ none → t < s.nextTask) : ReleaseInv api moving s' := by
  refine h.frame ?_ ?_
  · simp only [releaseView, BrowserView.ledger, view, ha.calls, ha.browserResults, ha.settings,
      ha.proxied, ha.tunnelUp, ha.endpoints, ha.connecting, ha.releasing]
  · intro t x hx
    have hreq : x.isRequest = false := by
      cases x <;> first | rfl | cases hx
    refine ⟨fun ht => ha.tasks_of ht hreq, fun ht => ?_⟩
    exact (ha.old (hlt (ht ▸ Option.some_ne_none x))).1.trans ht

theorem tasks_suspend_iff (hfree : s.tasks t = none) (hx : y ≠ x) :
    (s.suspend t x).tasks t' = some y ↔ s.tasks t' = some y := by
  by_cases he : t' = t
  · subst he
    simp [State.suspend, hfree, hx.symm]
  · simp [State.suspend, he]

theorem tasks_wake_iff (ht : s.tasks t = some x) (hx : y ≠ x) :
    (s.wake t).tasks t' = some y ↔ s.tasks t' = some y := by
  by_cases he : t' = t
  · subst he
    simp [State.wake, ht, hx.symm]
  · simp [State.wake, he]

/-- A call that is not followed is suspended. -/
theorem ReleaseInv.suspend (h : ReleaseInv api moving s) (hfree : s.tasks t = none)
    (hx : isFollowed x = false) : ReleaseInv api moving (s.suspend t x) := by
  refine h.frame rfl fun t' y hy => tasks_suspend_iff hfree ?_
  rintro rfl
  rw [hx] at hy
  cases hy

theorem ReleaseInv.wake (h : ReleaseInv api moving s) (ht : s.tasks t = some x)
    (hx : isFollowed x = false) : ReleaseInv api moving (s.wake t) := by
  refine h.frame rfl fun t' y hy => tasks_wake_iff ht ?_
  rintro rfl
  rw [hx] at hy
  cases hy

/-! ## Browser calls -/

/-- A call is made. -/
theorem CallInv.make (h : CallInv s) (c : BrowserCall) :
    CallInv { s with calls := s.calls ++ [c] } where
  sound := h.sound.make c
  took {n d r} hd hwrites hr := by
    rcases Ledger.getElem?_append_singleton hd with hd | ⟨rfl, -⟩
    · exact h.took hd hwrites hr
    · have hnone : s.browserResults s.calls.length = none := h.sound _ (Nat.le_refl _)
      have hr : s.browserResults s.calls.length = some r := hr
      rw [hnone] at hr
      cases hr
  last {w} hw := by
    cases hc : c.written with
    | none =>
      obtain ⟨n, hn⟩ := h.last ((lastWritten_append hc).symm.trans hw)
      exact ⟨n, hn.make hc⟩
    | some value =>
      obtain rfl := Option.some.inj ((lastWritten_append_write hc).symm.trans hw)
      exact ⟨s.calls.length, Ledger.awaits_make (l := s.view.ledger) (h.sound _ (Nat.le_refl _)) hc⟩
  lockdown hx := append_of_call (h.lockdown hx)

theorem CallInv.answer (h : CallInv s) (hc : s.calls[k]? = some c)
    (hnone : s.browserResults k = none)
    (hfaithful : c.written ≠ none →
      s.view.ledger.InOrder BrowserCall.written k ∧ tookEffect r = true) :
    CallInv { s.takeEffect c r with
        browserResults := Function.update s.browserResults k (some r) } := by
  have hledger : BrowserView.ledger (State.view { s.takeEffect c r with
      browserResults := Function.update s.browserResults k (some r) }) =
      s.view.ledger.answer BrowserCall.written tookEffect k c r := by
    rw [view_takeEffect]
    rfl
  have hcalls : (s.takeEffect c r).calls = s.calls := by rw [takeEffect_eq]
  have htasks : (s.takeEffect c r).tasks = s.tasks := by rw [takeEffect_eq]
  constructor
  · rw [hledger]
    exact h.sound.answer hc
  · intro n d r' hd hwrites hr'
    have hd' : s.calls[n]? = some d := hcalls ▸ hd
    by_cases hnk : n = k
    · subst hnk
      obtain rfl := Option.some.inj (hd'.symm.trans hc)
      simp only [Function.update_self, Option.some.injEq] at hr'
      subst hr'
      exact (hfaithful hwrites).2
    · simp only [Function.update_of_ne hnk] at hr'
      exact h.took hd' hwrites hr'
  · intro w hw
    have hw : lastWritten s.calls = some w := hcalls ▸ hw
    obtain ⟨n, hn⟩ := h.last hw
    refine ⟨n, ?_⟩
    rw [hledger]
    exact hn.answer hc hnone fun hwrites => (hfaithful hwrites).1
  · intro t options n hx
    have hx : s.tasks t = some (.reconnectLockdown options n) := htasks ▸ hx
    show (s.takeEffect c r).calls[n]? = _
    rw [hcalls]
    exact h.lockdown hx

/-- A promise that is settled already. -/
theorem CallInv.settled (h : CallInv s) (r : BrowserResult) :
    CallInv { s with
      calls := s.calls ++ [.none]
      browserResults := Function.update s.browserResults s.calls.length (some r) } := by
  have hmade := h.make .none
  have hanswer := hmade.answer (k := s.calls.length) (r := r) List.getElem?_concat_length
    (h.sound _ (Nat.le_refl _)) fun hwrites => absurd rfl hwrites
  rw [takeEffect_none] at hanswer
  exact hanswer

/-- A call that does not write is made, and perhaps settled at once. -/
theorem Ready.read (h : s.Ready api c a) (hsound : s.view.ledger.Sound)
    (hcall : call.written = none) (results : Nat → Option BrowserResult)
    (hresults : ∀ n, n ≠ s.calls.length → results n = s.browserResults n) :
    Ready api { s with calls := s.calls ++ [call], browserResults := results } c a := by
  have hlast : lastWritten (s.calls ++ [call]) = lastWritten s.calls := lastWritten_append hcall
  have hanswered {n r} (hr : s.browserResults n = some r) : results n = some r := by
    refine (hresults n ?_).trans hr
    rintro rfl
    have hnone : s.browserResults s.calls.length = none := hsound _ (Nat.le_refl _)
    rw [hnone] at hr
    cases hr
  cases a with
  | assertProxyControl n =>
    refine ⟨h.1, fun hp => ?_⟩
    obtain ⟨hblocked, hget, hafter, hfound⟩ := h.2 hp
    refine ⟨hlast.trans hblocked, append_of_call hget, ?_, ?_⟩
    · intro m d hm hd
      rcases Ledger.getElem?_append_singleton hd with hd | ⟨-, rfl⟩
      · exact hafter m d hm hd
      · exact hcall
    · intro v hv
      have hlt := Ledger.lt_length_of_getElem? hget
      exact hfound v ((hresults n (Nat.ne_of_lt hlt)).symm.trans hv)
  | applyProxy g n =>
    refine ⟨h.1, h.2.1, ?_⟩
    have hrest := h.2.2
    split at hrest
    · next hhttp =>
      rw [if_pos hhttp]
      refine ⟨hrest.1.imp fun e he => hanswered he, fun hp => hlast.trans (hrest.2 hp)⟩
    · next hhttp =>
      rw [if_neg hhttp]
      obtain ⟨http, split, hhttp', hwritten⟩ := hrest.2
      exact ⟨hrest.1, http, split, hhttp', hlast.trans hwritten⟩
  | verifyRouting g n =>
    obtain ⟨hc, hp, he, http, split, hhttp, hwritten⟩ := h
    exact ⟨hc, hp, he, http, split, hhttp, hlast.trans hwritten⟩
  | restoreSettings | releasePolicy | releasePrediction => exact fun hp => hlast.trans (h hp)
  | _ => exact fun hp => ⟨hlast.trans (h hp).1, (h hp).2⟩

theorem ReleaseInv.of_read (h : ReleaseInv api moving s) (hcall : call.written = none)
    (results : Nat → Option BrowserResult)
    (hresults : ∀ n, n ≠ s.calls.length → results n = s.browserResults n)
    (hcalls : CallInv { s with calls := s.calls ++ [call], browserResults := results }) :
    ReleaseInv api moving { s with calls := s.calls ++ [call], browserResults := results } := by
  have hlast : lastWritten (s.calls ++ [call]) = lastWritten s.calls := lastWritten_append hcall
  exact
    { toCallInv := hcalls
      releasing := h.releasing
      up := by
        intro hu hm
        obtain ⟨e, he, http, split, hhttp, hwritten⟩ := h.up hu hm
        exact ⟨e, he, http, split, hhttp, hlast.trans hwritten⟩
      down := fun hp hu hc hm => hlast.trans (h.down hp hu hc hm)
      waits := by
        intro t c a hx
        refine (h.waits hx).imp (fun hs => ⟨hs.1, fun hb => ?_⟩) fun hr =>
          hr.read h.sound hcall results hresults
        exact hs.2 (hlast.symm.trans hb) }

theorem ReleaseInv.read (h : ReleaseInv api moving s) (hcall : call.written = none) :
    ReleaseInv api moving { s with calls := s.calls ++ [call] } :=
  h.of_read hcall s.browserResults (fun _ _ => rfl) (h.toCallInv.make call)

theorem ReleaseInv.settled (h : ReleaseInv api moving s) (r : BrowserResult) :
    ReleaseInv api moving { s with
      calls := s.calls ++ [.none]
      browserResults := Function.update s.browserResults s.calls.length (some r) } :=
  h.of_read rfl _ (fun _ hn => Function.update_of_ne hn ..) (h.toCallInv.settled r)

/-- What was written last is what the settings hold, once the writes before `k` have their answers
and none comes after. -/
theorem CallInv.settings_eq {value : Option ProxyValue} (h : CallInv s)
    (hlast : lastWritten s.calls = some value)
    (horder : s.view.ledger.InOrder BrowserCall.written k)
    (hafter : ∀ m d, k ≤ m → s.calls[m]? = some d → d.written = none) : s.settings = value := by
  obtain ⟨n, hn⟩ := h.last hlast
  obtain ⟨c, hc, hwritten⟩ := hn.call
  have hwrites : c.written ≠ none := by
    rw [hwritten]
    exact Option.some_ne_none value
  have hlt : n < k := by
    by_contra hge
    exact hwrites (hafter n c (Nat.not_lt.mp hge) hc)
  obtain ⟨r, hr⟩ := Option.ne_none_iff_exists'.mp (horder n c hlt hc hwrites)
  exact hn.stored hr (h.took hc hwrites hr)

theorem foundLockdown_of_faithful (hs : s.settings = some (buildChromiumLockdownValue []))
    (hf : s.faithful .settingsGet (.ok v) = true) : FoundLockdown v.details? := by
  cases v with
  | details d =>
    simp only [faithful, hs, decide_eq_true_eq] at hf
    refine ⟨?_, hf.2⟩
    simp [State.controlled, BrowserValue.details?, hf.1]
  | _ => cases hf

/-- A browser call is answered: a write takes effect in order, and what is read is what is held. -/
theorem ReleaseInv.answer (h : ReleaseInv api moving s) (hc : s.calls[k]? = some c)
    (hnone : s.browserResults k = none)
    (hwrite : c.written ≠ none →
      s.view.ledger.InOrder BrowserCall.written k ∧ tookEffect r = true)
    (hread : c = .settingsGet →
      s.view.ledger.InOrder BrowserCall.written k ∧ s.faithful c r = true) :
    ReleaseInv api moving
      { s.takeEffect c r with browserResults := Function.update s.browserResults k (some r) } := by
  have hcalls := h.toCallInv.answer hc hnone hwrite
  have hready {c' a} (hr : s.Ready api c' a) : Ready api { s with
      browserResults := Function.update s.browserResults k (some r) } c' a := by
    cases a with
    | assertProxyControl n =>
      refine ⟨hr.1, fun hp => ?_⟩
      obtain ⟨hblocked, hget, hafter, hfound⟩ := hr.2 hp
      refine ⟨hblocked, hget, hafter, fun v hv => ?_⟩
      by_cases hnk : n = k
      · subst hnk
        simp only [Function.update_self, Option.some.injEq] at hv
        subst hv
        obtain rfl := Option.some.inj (hget.symm.trans hc)
        obtain ⟨horder, hf⟩ := hread rfl
        have hafter' : ∀ m d, n ≤ m → s.calls[m]? = some d → d.written = none := hafter
        exact foundLockdown_of_faithful (h.settings_eq hblocked horder hafter') hf
      · simp only [Function.update_of_ne hnk] at hv
        exact hfound v hv
    | applyProxy g n =>
      refine ⟨hr.1, hr.2.1, ?_⟩
      have hrest := hr.2.2
      split at hrest
      · next hhttp =>
        rw [if_pos hhttp]
        obtain ⟨⟨e, he⟩, hblocked⟩ := hrest
        have hnk : n ≠ k := by
          rintro rfl
          rw [hnone] at he
          cases he
        exact ⟨⟨e, (Function.update_of_ne hnk ..).trans he⟩, hblocked⟩
      · next hhttp =>
        rw [if_neg hhttp]
        exact hrest
    | _ => exact hr
  rw [takeEffect_eq] at hcalls ⊢
  generalize (s.takeEffect c r).settings = settings at hcalls ⊢
  generalize (s.takeEffect c r).policy = policy at hcalls ⊢
  generalize (s.takeEffect c r).predictionSetting = prediction at hcalls ⊢
  exact
    { toCallInv := hcalls
      releasing := h.releasing
      up := h.up
      down := h.down
      waits := fun hx => (h.waits hx).imp id fun hr => (hready hr).frame rfl rfl rfl rfl }

/-! ## `connect` -/

/-- What a `connect` goes on with once it has found the lockdown block: that it is there still. -/
def Found (moving : Bool) (s : State) (c : ConnectCall) : Prop :=
  s.Stale moving ∨ (s.proxied = true → s.Blocked ∧ FoundLockdown c.before)

/-- A `connect` is suspended. -/
theorem ReleaseInv.suspend_connect (h : ReleaseInv api moving s) (hfree : s.tasks t = none)
    (hready : s.Stale moving ∨ s.Ready api c a) :
    ReleaseInv api moving (s.suspend t (.connect c a)) := by
  have hother {t' y} (hy : y.isMove = true) :
      (s.suspend t (.connect c a)).tasks t' = some y ↔ s.tasks t' = some y := by
    refine tasks_suspend_iff hfree ?_
    rintro rfl
    cases hy
  have hmoving : (s.suspend t (.connect c a)).Moving moving ↔ s.Moving moving := by
    constructor
    · rintro (hm | ⟨t', y, hy, hmove⟩)
      · exact .inl hm
      · exact .inr ⟨t', y, (hother hmove).mp hy, hmove⟩
    · rintro (hm | ⟨t', y, hy, hmove⟩)
      · exact .inl hm
      · exact .inr ⟨t', y, (hother hmove).mpr hy, hmove⟩
  exact
    { sound := h.sound
      took := h.took
      last := h.last
      lockdown := fun hx => h.lockdown ((hother rfl).mp hx)
      releasing := fun hr => (h.releasing hr).imp_right fun ⟨t', options, r, hx⟩ =>
        ⟨t', options, r, (hother rfl).mpr hx⟩
      up := fun hu hm => h.up hu (hmoving.not.mp hm)
      down := fun hp hu hc hm => h.down hp hu hc (hmoving.not.mp hm)
      waits := by
        intro t' c' a' hx
        have hwaits : s.Stale moving ∨ s.Ready api c' a' := by
          by_cases he : t' = t
          · subst he
            simp only [State.suspend, Function.update_self, Option.some.injEq,
              Task.connect.injEq] at hx
            obtain ⟨rfl, rfl⟩ := hx
            exact hready
          · simp only [State.suspend, Function.update_of_ne he] at hx
            exact h.waits hx
        exact hwaits.imp (fun hs => ⟨hmoving.mpr hs.1, hs.2⟩) fun hr => hr.frame rfl rfl rfl rfl }

theorem Stale.read (hs : s.Stale moving) (hcall : call.written = none)
    (results : Nat → Option BrowserResult) :
    Stale moving { s with calls := s.calls ++ [call], browserResults := results } :=
  ⟨hs.1, fun hb => hs.2 ((lastWritten_append hcall).symm.trans hb)⟩

/-- An await of a `connect` on a call that does not write. -/
theorem ReleaseInv.awaitCallRead (h : ReleaseInv api moving s) (hfree : s.tasks t = none)
    (hcall : call.written = none) (a : Nat → ConnectAwait)
    (hready : ∀ n, s.Stale moving ∨ s.Ready api c (a n)) :
    ReleaseInv api moving (s.awaitCall t call fun n => .connect c (a n)) := by
  refine (h.read hcall).suspend_connect hfree ?_
  refine (hready s.calls.length).imp (fun hs => hs.read hcall s.browserResults) fun hr => ?_
  exact hr.read h.sound hcall s.browserResults fun _ _ => rfl

theorem ReleaseInv.awaitRead (h : ReleaseInv api moving s) (hfree : s.tasks t = none)
    (hcall : call.written = none) (a : Nat → ConnectAwait)
    (hready : ∀ n, s.Stale moving ∨ s.Ready api c (a n)) :
    ReleaseInv api moving (s.awaitOptional has t call fun n => .connect c (a n)) := by
  unfold awaitOptional
  split
  · exact h.awaitCallRead hfree hcall a hready
  · refine (h.settled (.ok .undefined)).suspend_connect hfree ?_
    refine (hready s.calls.length).imp (fun hs => hs.read rfl _) fun hr => ?_
    exact hr.read h.sound rfl _ fun _ hn => Function.update_of_ne hn ..

/-- A running `connect` may write. -/
theorem ReleaseInv.write (h : ReleaseInv api moving s) (hrun : Running s) (hup : s.tunnelUp = false)
    (call : BrowserCall) : ReleaseInv api moving { s with calls := s.calls ++ [call] } where
  toCallInv := h.toCallInv.make call
  releasing := h.releasing
  up hu := by
    rw [hup] at hu
    cases hu
  down _ _ hc := by
    rw [hrun.connecting] at hc
    cases hc
  waits hx := absurd hx (hrun.alone _ _ _)

/-- A running `connect` may store endpoints, or forget them. -/
theorem ReleaseInv.store (h : ReleaseInv api moving s) (hrun : Running s) (hup : s.tunnelUp = false)
    (endpoints : Option ExtensionEndpoints) (auth : Option ExtensionProxyAuth)
    (source : Option Granted) : ReleaseInv api moving { s with endpoints, auth, source } where
  toCallInv := { h.toCallInv with }
  releasing := h.releasing
  up hu := by
    rw [hup] at hu
    cases hu
  down := h.down
  waits hx := absurd hx (hrun.alone _ _ _)

theorem ReleaseInv.connectFailed (h : ReleaseInv api moving s) (hrun : Running s)
    (hend : s.Stale moving ∨ (s.proxied = true → s.Blocked)) :
    ReleaseInv api moving (s.connectFailed t c e) := by
  have hended : ReleaseInv api moving { s with connecting := false } :=
    { toCallInv := { h.toCallInv with }
      releasing := h.releasing
      up := h.up
      down := fun hp _ _ hm => hend.elim (fun hs => absurd hs.1 hm) fun hb => hb hp
      waits := fun hx => absurd hx (hrun.alone _ _ _) }
  exact hended.frame rfl fun _ _ _ => Iff.rfl

theorem removeOnRequestHandler_release : s.removeOnRequestHandler.releaseView = s.releaseView ∧
    s.removeOnRequestHandler.tasks = s.tasks ∧ s.removeOnRequestHandler.tunnelUp = s.tunnelUp ∧
      s.removeOnRequestHandler.connecting = s.connecting := by
  unfold removeOnRequestHandler
  split <;> exact ⟨rfl, rfl, rfl, rfl⟩

/-- What was found is written back, or it stays that something else was written last. -/
theorem restored {c : ConnectCall}
    (hfound : s.Stale moving ∨ (s.proxied = true → FoundLockdown c.before))
    (hcalls : s'.calls = s.calls ++
      [if controlled c.before then .settingsSet (c.before.bind (·.value)) else .settingsClear])
    (hp : s'.proxied = s.proxied) (ht : s'.tasks = s.tasks) :
    s'.Stale moving ∨ (s'.proxied = true → s'.Blocked) := by
  by_cases hb : s'.Blocked
  · exact .inr fun _ => hb
  · refine hfound.imp (fun hs => ⟨?_, hb⟩) fun hf hp' => ?_
    · exact hs.1.of_tasks fun t x _ hx => by rw [ht]; exact hx
    · obtain ⟨hcontrolled, hvalue⟩ := hf (hp ▸ hp')
      rw [if_pos hcontrolled, hvalue] at hcalls
      exact (congrArg lastWritten hcalls).trans (lastWritten_append_write rfl)

/-- The failure path writes back what the `connect` found. -/
theorem ReleaseInv.connectCatch (h : ReleaseInv api moving s) (hrun : Running s)
    (hup : s.tunnelUp = false) (hfree : s.tasks t = none)
    (hfound : s.Stale moving ∨ (s.proxied = true →
      (c.hardened = true → FoundLockdown c.before) ∧ (c.hardened = false → s.Blocked))) :
    ReleaseInv api moving (s.connectCatch t c e) := by
  have hstored := h.store hrun hup none none none
  have hrun' : Running { s with endpoints := none, auth := none, source := none } :=
    ⟨hrun.connecting, hrun.alone⟩
  unfold State.connectCatch
  split
  · next hc =>
    obtain ⟨hview, htasks, hup', hconnecting⟩ := removeOnRequestHandler_release
      (s := { s with endpoints := none, auth := none, source := none })
    have hremoved := hstored.frame hview fun _ _ _ => by rw [htasks]
    have hrun'' : Running
        (State.removeOnRequestHandler { s with endpoints := none, auth := none, source := none }) :=
      ⟨hconnecting.trans hrun.connecting, by rw [htasks]; exact hrun.alone⟩
    simp only [releaseView, Prod.mk.injEq] at hview
    have hcalls : (State.removeOnRequestHandler
        { s with endpoints := none, auth := none, source := none }).calls = s.calls :=
      congrArg Ledger.calls hview.1
    refine (hremoved.write hrun'' (hup'.trans hup) _).suspend_connect
      ((congrFun htasks t).trans hfree) ?_
    refine restored (hfound.imp id fun hf hp => (hf hp).1 hc) ?_ hview.2.1 htasks
    exact congrArg (· ++ _) hcalls
  · next hc =>
    have hc := Bool.eq_false_of_not_eq_true hc
    exact hstored.connectFailed hrun' (hfound.imp id fun hf hp => (hf hp).2 hc)

theorem Found.caught (h : s.Found moving c) : s.Stale moving ∨ (s.proxied = true →
    (c.hardened = true → FoundLockdown c.before) ∧ (c.hardened = false → s.Blocked)) :=
  h.imp id fun hf hp => ⟨fun _ => (hf hp).2, fun _ => (hf hp).1⟩

theorem ReleaseInv.connectControlled (h : ReleaseInv api moving s) (hrun : Running s)
    (hup : s.tunnelUp = false) (hfree : s.tasks t = none)
    (hfound : s.Stale moving ∨ c.hardened = false ∧ (s.proxied = true → s.Blocked ∧
      ∀ v, r = .ok v → FoundLockdown v.details?)) :
    ReleaseInv api moving (s.connectControlled api t c r) := by
  unfold State.connectControlled
  split
  · refine h.connectCatch hrun hup hfree
      (hfound.imp id fun hf hp => ⟨fun hc => ?_, fun _ => (hf.2 hp).1⟩)
    rw [hf.1] at hc
    cases hc
  · next before hbefore =>
    obtain ⟨v, rfl, rfl⟩ := proxyControl_ok hbefore
    refine h.awaitRead hfree rfl _ fun n => ?_
    exact hfound.imp id fun hf hp => ⟨(hf.2 hp).1, (hf.2 hp).2 v rfl⟩

/-- A `connect` makes its request. -/
theorem ReleaseInv.connectRequest (h : ReleaseInv api moving s) (hfree : s.Free t)
    (hlt : ∀ {t}, s.tasks t ≠ none → t < s.nextTask) (hfound : s.Found moving c) :
    ReleaseInv api moving (s.connectRequest api t native c) := by
  unfold State.connectRequest
  dsimp only
  have ha : Aside s (s.request api native (.connect c.options.mnemonic c.options.selector
      c.options.entrySelector
      (if api.platform = .chromium then some true else c.options.httpProxy)
      c.options.daita c.options.device)) := request_aside
  refine (h.aside ha hlt).suspend_connect (hfree.aside ha).1 ?_
  refine hfound.imp (fun hs => ⟨?_, ?_⟩) fun hf hp => ?_
  · refine hs.1.of_tasks fun t' x hx ht => ?_
    exact (ha.old (hlt (ht ▸ Option.some_ne_none x))).1.trans ht
  · simp only [Blocked, ha.calls]
    exact hs.2
  · obtain ⟨hblocked, hbefore⟩ := hf (ha.proxied ▸ hp)
    refine ⟨?_, hbefore⟩
    simp only [Blocked, ha.calls]
    exact hblocked

theorem ReleaseInv.connectLeaksKnown (h : ReleaseInv api moving s) (hrun : Running s)
    (hup : s.tunnelUp = false) (hfree : s.Free t)
    (hlt : ∀ {t}, s.tasks t ≠ none → t < s.nextTask) (hfound : s.Found moving c) :
    ReleaseInv api moving (s.connectLeaksKnown api t native c r) := by
  unfold State.connectLeaksKnown
  split
  · exact h.connectCatch hrun hup hfree.1 hfound.caught
  · dsimp only
    split
    · exact h.awaitRead hfree.1 rfl _ fun _ => hfound
    · exact h.connectRequest hfree hlt hfound

theorem ReleaseInv.connectAccessKnown (h : ReleaseInv api moving s) (hrun : Running s)
    (hup : s.tunnelUp = false) (hfree : s.Free t)
    (hlt : ∀ {t}, s.tasks t ≠ none → t < s.nextTask) (hfound : s.Found moving c) :
    ReleaseInv api moving (s.connectAccessKnown api t native c r) := by
  have hcatch {e} : ReleaseInv api moving (s.connectCatch t c e) :=
    h.connectCatch hrun hup hfree.1 hfound.caught
  unfold State.connectAccessKnown
  split
  · exact hcatch
  · split
    · exact hcatch
    · split
      · exact h.connectRequest hfree hlt hfound
      · exact hcatch

theorem ReleaseInv.connectAnswered (h : ReleaseInv api moving s) (hrun : Running s)
    (hup : s.tunnelUp = false) (hfree : s.tasks t = none) (hfound : s.Found moving c) :
    ReleaseInv api moving (s.connectAnswered t c r) := by
  have hcatch {e} : ReleaseInv api moving (s.connectCatch t c e) :=
    h.connectCatch hrun hup hfree hfound.caught
  unfold State.connectAnswered
  split
  · exact hcatch
  · split
    · exact hcatch
    · exact h.awaitCallRead hfree rfl _ fun _ => hfound
  · exact hcatch

theorem ReleaseInv.connectPolicyHardened (h : ReleaseInv api moving s) (hrun : Running s)
    (hup : s.tunnelUp = false) (hfree : s.tasks t = none) (hfound : s.Found moving c) :
    ReleaseInv api moving (s.connectPolicyHardened api t c g r) := by
  unfold State.connectPolicyHardened
  split
  · exact h.connectCatch hrun hup hfree hfound.caught
  · exact h.awaitRead hfree rfl _ fun _ => hfound

/-- A `connect` points the browser at its listener. -/
theorem ReleaseInv.connectHardened (hp : api.platform = .chromium) (h : ReleaseInv api moving s)
    (hrun : Running s) (hup : s.tunnelUp = false) (hfree : s.tasks t = none)
    (hfound : s.Found moving c) : ReleaseInv api moving (s.connectHardened api t c g r) := by
  unfold State.connectHardened
  split
  · exact h.connectCatch hrun hup hfree hfound.caught
  · dsimp only
    split
    · exact h.connectCatch hrun hup hfree (Found.caught (c := { c with hardened := true }) hfound)
    · have hstored := h.store hrun hup (some g.endpoints) (some g.auth) (some g)
      have hrun' : Running
          { s with endpoints := some g.endpoints, auth := some g.auth, source := some g } :=
        ⟨hrun.connecting, hrun.alone⟩
      unfold applyProxy
      simp only [hp]
      split
      · next hhttp =>
        refine (hstored.settled _).suspend_connect hfree ?_
        have hlast : lastWritten (s.calls ++ [.none]) = lastWritten s.calls :=
          lastWritten_append rfl
        refine hfound.imp (fun hs => ⟨hs.1, fun hb => hs.2 (hlast.symm.trans hb)⟩) fun hf => ?_
        refine ⟨rfl, fun hp => (hf hp).2, ?_⟩
        rw [if_pos hhttp]
        exact ⟨⟨_, Function.update_self ..⟩, fun hp => hlast.trans (hf hp).1⟩
      · next http hhttp =>
        have hpoints : PointsAt api g.endpoints { s with
            calls := s.calls ++
              [.settingsSet (some (buildChromiumProxyValue api.toLowerCase http c.split))] } :=
          ⟨http, c.split, hhttp, lastWritten_append_write rfl⟩
        refine (hstored.write hrun' hup _).suspend_connect hfree ?_
        refine hfound.imp (fun hs => ⟨hs.1, hpoints.not_blocked⟩) fun hf => ?_
        refine ⟨rfl, fun hp => (hf hp).2, ?_⟩
        rw [if_neg (by rw [hhttp]; exact Option.some_ne_none http)]
        exact ⟨rfl, hpoints⟩

theorem ReleaseInv.connectApplied (hp : api.platform = .chromium) (h : ReleaseInv api moving s)
    (hrun : Running s) (hup : s.tunnelUp = false) (hfree : s.tasks t = none)
    (hready : s.Stale moving ∨ s.Ready api c (.applyProxy g n)) (hr : s.browserResults n = some r) :
    ReleaseInv api moving (s.connectApplied api t c g r) := by
  unfold State.connectApplied
  split
  · refine h.connectCatch hrun hup hfree
      (hready.imp id fun hr hp => ⟨fun _ => hr.2.1 hp, fun hc => ?_⟩)
    rw [hr.1] at hc
    cases hc
  · next happlied =>
    unfold verifyRouting assertProxyControl
    rw [if_neg (by rw [hp]; exact fun hf => by cases hf.1)]
    refine h.awaitRead hfree rfl _ fun _ => hready.imp id fun hready => ?_
    obtain ⟨hc, hfound, hrest⟩ := hready
    refine ⟨hc, hfound, ?_⟩
    split at hrest
    · obtain ⟨⟨e, he⟩, -⟩ := hrest
      obtain rfl := Option.some.inj (hr.symm.trans he)
      cases happlied
    · exact hrest

/-- A `connect` resolves. -/
theorem ReleaseInv.connectVerified (h : ReleaseInv api moving s) (hrun : Running s)
    (hup : s.tunnelUp = false) (hfree : s.tasks t = none)
    (hready : s.Stale moving ∨ s.Ready api c (.verifyRouting g n)) :
    ReleaseInv api moving (s.connectVerified t c g r) := by
  have hcatch {e} : ReleaseInv api moving (s.connectCatch t c e) := by
    refine h.connectCatch hrun hup hfree
      (hready.imp id fun hr hp => ⟨fun _ => hr.2.1 hp, fun hc => ?_⟩)
    rw [hr.1] at hc
    cases hc
  have hresolved : ReleaseInv api moving { s with
      proxied := true, tunnelUp := true, exit := parseTunnelExit g.exit, connecting := false } :=
    { toCallInv := { h.toCallInv with }
      releasing := h.releasing
      up := fun _ hm => by
        rcases hready with hs | ⟨-, -, he, hpoints⟩
        · exact absurd hs.1 hm
        · exact ⟨g.endpoints, he, hpoints⟩
      down := fun _ hu => by cases hu
      waits := fun hx => absurd hx (hrun.alone _ _ _) }
  unfold State.connectVerified
  split
  · exact hcatch
  · split
    · exact hcatch
    · dsimp only
      split
      · exact hresolved.frame rfl fun _ _ _ => Iff.rfl
      · exact hresolved.frame rfl fun _ _ _ => Iff.rfl

theorem ReleaseInv.connectRestored (h : ReleaseInv api moving s) (hrun : Running s)
    (hfree : s.tasks t = none) (hend : s.Stale moving ∨ (s.proxied = true → s.Blocked)) :
    ReleaseInv api moving (s.connectRestored t c e r) := by
  unfold State.connectRestored
  split
  · exact h.connectFailed hrun hend
  · split
    · exact h.awaitCallRead hfree rfl _ fun _ => hend
    · exact h.connectFailed hrun hend

theorem ReleaseInv.connectPolicyReleased (h : ReleaseInv api moving s) (hrun : Running s)
    (hfree : s.tasks t = none) (hend : s.Stale moving ∨ (s.proxied = true → s.Blocked)) :
    ReleaseInv api moving (s.connectPolicyReleased api t c e r) := by
  unfold State.connectPolicyReleased
  split
  · exact h.connectFailed hrun hend
  · exact h.awaitRead hfree rfl _ fun _ => hend

/-- A `connect` begins where the block was written last, or under a `reconnect`. -/
theorem ReleaseInv.connectStart (hget : api.settingsGet = true) (h : ReleaseInv api moving s)
    (hfree : s.tasks t = none)
    (hconnecting : ∀ {t c a}, s.tasks t = some (.connect c a) → s.connecting = true) :
    ReleaseInv api moving (s.connectStart api t options) := by
  unfold State.connectStart
  split
  · exact h.settle
  · next hc =>
    have hc := Bool.eq_false_of_not_eq_true hc
    split
    · exact h.settle
    · next hu =>
      have hu := Bool.eq_false_of_not_eq_true hu
      have halone : ∀ t c a, s.tasks t ≠ some (.connect c a) := by
        intro t c a ht
        rw [hconnecting ht] at hc
        cases hc
      have hbegun : ReleaseInv api moving
          { s with connecting := true, onRequestHandler := none } :=
        { toCallInv := { h.toCallInv with }
          releasing := h.releasing
          up := h.up
          down := fun _ _ hc => by cases hc
          waits := fun hx => absurd hx (halone _ _ _) }
      have hblocked : s.Stale moving ∨ (s.proxied = true → s.Blocked) := by
        by_cases hb : s.Blocked
        · exact .inr fun _ => hb
        · by_cases hm : s.Moving moving
          · exact .inl ⟨hm, hb⟩
          · exact .inr fun hp => h.down hp hu hc hm
      simp only [assertProxyControl, awaitOptional, hget, if_true]
      refine (hbegun.read rfl).suspend_connect hfree ?_
      refine hblocked.imp (fun hs => hs.read rfl s.browserResults) fun hb => ⟨rfl, fun hp => ?_⟩
      refine ⟨(lastWritten_append rfl).trans (hb hp), List.getElem?_concat_length, ?_, ?_⟩
      · intro m d hm hd
        rcases Ledger.getElem?_append_singleton hd with hd | ⟨-, rfl⟩
        · exact absurd (Ledger.lt_length_of_getElem? hd) (Nat.not_lt.mpr hm)
        · rfl
      · intro v hv
        have hnone : s.browserResults s.calls.length = none := h.sound _ (Nat.le_refl _)
        have hv : s.browserResults s.calls.length = some (.ok v) := hv
        rw [hnone] at hv
        cases hv

end State

end WarrenSdk.Extension
