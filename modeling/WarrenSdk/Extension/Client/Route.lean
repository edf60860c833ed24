import WarrenSdk.Extension.Client.Handlers
import WarrenSdk.Extension.Client.Settings

/-!
# Where a request goes

Chromium routes by its proxy settings. Firefox asks the registered handlers, and a request that none
of them takes goes by the settings. `Installed` is what an `applySplit`, or a `connect`, that took
leaves of a split: its handler and its settings, but in `only` mode on Firefox, where the settings
are left as they were found.
-/

namespace WarrenSdk.Extension
open Lib

/-- Where a request goes: direct, where a handler answered, or to the proxy of a settings value. -/
inductive Route
  | direct
  | answered (answer : ProxyAnswer)
  | proxied (value : ProxyValue)
deriving DecidableEq

section
variable (api : ChromeLike)
  /- Whether the browser sends a request direct under a settings value: an entry of its list
  matches, or its script says so. -/
  (bypasses : ProxyValue → BrowserRequest → Bool)

def settingsRoute (settings : Option ProxyValue) (request : BrowserRequest) : Route :=
  match settings with
  | none => .direct
  | some value => if bypasses value request then .direct else .proxied value

/-- What the first handler answers that takes the request. -/
def State.handlerAnswer (request : BrowserRequest) (s : State) : Option ProxyAnswer :=
  s.handlers.findSome? fun h =>
    match h.answer api.toLowerCase request s with
    | .direct => none
    | answer => some answer

def State.route (request : BrowserRequest) (s : State) : Route :=
  match api.platform with
  | .chromium => settingsRoute bypasses s.settings request
  | .firefox =>
    match s.handlerAnswer api request with
    | some answer => .answered answer
    | none => settingsRoute bypasses s.settings request

/-! ## What a split leaves -/

abbrev SettingsLedger := Ledger BrowserCall BrowserResult (Option ProxyValue)

/-- The last write set `value`, and took. -/
def Written (value : ProxyValue) (l : SettingsLedger) : Prop :=
  ∃ n r, l.Awaits BrowserCall.written tookEffect n (some value) ∧ l.results n = some r ∧
    tookEffect r = true

/-- What the tracked handler and the settings are under `split`, where `held` was found. -/
def Installed (held : Option ProxyValue) (e : ExtensionEndpoints) (split : SplitTunnelConfig)
    (handler : Option OnRequestHandler) (l : SettingsLedger) : Prop :=
  match api.platform with
  | .chromium =>
    ∃ http, e.http = some http ∧ Written (buildChromiumProxyValue api.toLowerCase http split) l
  | .firefox =>
    (∃ id, handler = some { id, socks5 := e.socks5, split }) ∧
      if split.mode = .only then l.stored = held
      else Written (buildFirefoxProxyValue e.socks5 split) l

/-- They are on their way, with the call `n`. -/
def Installing (held : Option ProxyValue) (e : ExtensionEndpoints) (split : SplitTunnelConfig)
    (n : Nat) (handler : Option OnRequestHandler) (l : SettingsLedger) : Prop :=
  match api.platform with
  | .chromium =>
    match e.http with
    | none => ∃ failure, l.results n = some (.error failure)
    | some http =>
      l.Awaits BrowserCall.written tookEffect n
          (some (buildChromiumProxyValue api.toLowerCase http split)) ∧
        l.results n ≠ some (.ok (.bool false))
  | .firefox =>
    (∃ id, handler = some { id, socks5 := e.socks5, split }) ∧
      if split.mode = .only then l.stored = held ∧ l.calls[n]? = some .none
      else
        l.Awaits BrowserCall.written tookEffect n (some (buildFirefoxProxyValue e.socks5 split))

/-- What an `applySplit` that was called last owes, which found `held`. -/
def SplitRoutes (split : SplitTunnelConfig) (held : Option ProxyValue) (op : Option Task)
    (v : BrowserView) : Prop :=
  match op with
  | some (.applySplitProxy split' _ n) =>
    split' = split ∧ (v.tunnelUp = true → ∀ e, v.endpoints = some e →
      Installing api held e split n v.onRequestHandler v.ledger)
  | some (.applySplitVerify _) | none =>
    v.tunnelUp = true → ∀ e, v.endpoints = some e →
      Installed api held e split v.onRequestHandler v.ledger
  | some _ => False

/-- What a `connect` that was called last owes, which found `held` and no tunnel. -/
def ConnectRoutes (options : BrowserVpnConnectOptions) (held : Option ProxyValue)
    (op : Option Task) (v : BrowserView) : Prop :=
  match op with
  | some (.connect c a) =>
    v.tunnelUp = false ∧ c.options = options ∧
      match a with
      | .applyProxy g n =>
        v.endpoints = some g.endpoints ∧
          Installing api held g.endpoints c.split n v.onRequestHandler v.ledger
      | .verifyRouting g _ =>
        v.endpoints = some g.endpoints ∧
          Installed api held g.endpoints c.split v.onRequestHandler v.ledger
      | .restoreSettings _ _ | .releasePolicy _ _ | .releasePrediction _ _ => True
      | _ => api.platform = .firefox → v.settings = held
  | none =>
    v.tunnelUp = true → ∀ e, v.endpoints = some e →
      Installed api held e (options.split.getD DEFAULT_SPLIT) v.onRequestHandler v.ledger
  | some _ => False

/-- What the routing owes to the operation that was called last. -/
def Routes (last : Option Called) (op : Option Task) (v : BrowserView) : Prop :=
  match last with
  | some { operation := .applySplit split, before, .. } =>
    SplitRoutes api split before.settings op v
  | some { operation := .connect options, before, .. } =>
    before.tunnelUp = false → ConnectRoutes api options before.settings op v
  | _ => True

end

variable {api : ChromeLike} {l : SettingsLedger} {held : Option ProxyValue}
  {e : ExtensionEndpoints} {split : SplitTunnelConfig} {handler : Option OnRequestHandler}

/-! ## Answers -/

theorem Written.make (h : Written value l) (hc : c.written = none) : Written value (l.make c) := by
  obtain ⟨n, r, hawaits, hr, htook⟩ := h
  exact ⟨n, r, hawaits.make hc, hr, htook⟩

theorem Written.answer (h : Written value l) (hcall : l.calls[k]? = some c)
    (hnone : l.results k = none)
    (horder : c.written ≠ none → l.InOrder BrowserCall.written k) :
    Written value (l.answer BrowserCall.written tookEffect k c r) := by
  obtain ⟨n, r', hawaits, hr', htook⟩ := h
  refine ⟨n, r', hawaits.answer hcall hnone horder, ?_, htook⟩
  have hne : n ≠ k := by
    rintro rfl
    rw [hnone] at hr'
    cases hr'
  exact (Function.update_of_ne hne _ _).trans hr'

theorem Written.stored (h : Written value l) : l.stored = some value := by
  obtain ⟨n, r, hawaits, hr, htook⟩ := h
  exact hawaits.stored hr htook

theorem Installed.make (h : Installed api held e split handler l) (hc : c.written = none) :
    Installed api held e split handler (l.make c) := by
  unfold Installed at h ⊢
  split at h
  · obtain ⟨http, hhttp, hwritten⟩ := h
    exact ⟨http, hhttp, hwritten.make hc⟩
  · refine ⟨h.1, ?_⟩
    have hrest := h.2
    split at hrest
    · next honly =>
      rw [if_pos honly]
      exact hrest
    · next honly =>
      rw [if_neg honly]
      exact hrest.make hc

theorem Installed.answer (h : Installed api held e split handler l)
    (hcall : l.calls[k]? = some c) (hnone : l.results k = none)
    (horder : c.written ≠ none → l.InOrder BrowserCall.written k)
    (hwaits : api.platform = .firefox → l.Waits BrowserCall.written none) :
    Installed api held e split handler (l.answer BrowserCall.written tookEffect k c r) := by
  unfold Installed at h ⊢
  split at h
  · obtain ⟨http, hhttp, hwritten⟩ := h
    exact ⟨http, hhttp, hwritten.answer hcall hnone horder⟩
  · next hp =>
    refine ⟨h.1, ?_⟩
    have hrest := h.2
    split at hrest
    · next honly =>
      rw [if_pos honly, (hwaits hp).stored_answer hcall hnone nofun]
      exact hrest
    · next honly =>
      rw [if_neg honly]
      exact hrest.answer hcall hnone horder

theorem Installing.answer (h : Installing api held e split n handler l)
    (hcall : l.calls[k]? = some c) (hnone : l.results k = none)
    (horder : c.written ≠ none → l.InOrder BrowserCall.written k ∧
      (api.platform = .chromium → r ≠ .ok (.bool false)))
    (hwaits : api.platform = .firefox → l.Waits BrowserCall.written (some n)) :
    Installing api held e split n handler (l.answer BrowserCall.written tookEffect k c r) := by
  have hinorder : c.written ≠ none → l.InOrder BrowserCall.written k := fun hw => (horder hw).1
  unfold Installing at h ⊢
  split at h
  · next hp =>
    split at h
    · obtain ⟨failure, hfailure⟩ := h
      have hne : n ≠ k := by
        rintro rfl
        rw [hnone] at hfailure
        cases hfailure
      exact ⟨failure, (Function.update_of_ne hne _ _).trans hfailure⟩
    · refine ⟨h.1.answer hcall hnone hinorder, ?_⟩
      by_cases hnk : n = k
      · subst hnk
        obtain ⟨d, hd, hwritten⟩ := h.1.call
        obtain rfl := Option.some.inj (hd.symm.trans hcall)
        have hr := (horder (hwritten ▸ Option.some_ne_none _)).2 hp
        simpa [Ledger.answer] using hr
      · simp only [Ledger.answer, Function.update_of_ne hnk]
        exact h.2
  · next hp =>
    refine ⟨h.1, ?_⟩
    have hrest := h.2
    split at hrest
    · next honly =>
      rw [if_pos honly]
      refine ⟨?_, hrest.2⟩
      refine ((hwaits hp).stored_answer hcall hnone ?_).trans hrest.1
      intro hn
      obtain rfl := Option.some.inj hn
      obtain rfl := Option.some.inj (hrest.2.symm.trans hcall)
      rfl
    · next honly =>
      rw [if_neg honly]
      exact hrest.answer hcall hnone hinorder

/-- What is on its way is there once its call took. -/
theorem Installing.installed (h : Installing api held e split n handler l)
    (hr : l.results n = some r) (happlied : State.proxyApplied api split r = .ok ()) :
    Installed api held e split handler l := by
  unfold State.proxyApplied at happlied
  split at happlied
  · cases happlied
  · next value =>
    split at happlied
    · cases happlied
    · next hrefused =>
      have htook : value ≠ .bool false → tookEffect (.ok value) = true := by
        intro hvalue
        unfold tookEffect
        split
        · next heq => cases heq
        · next heq =>
          cases heq
          exact absurd rfl hvalue
        · rfl
      unfold Installing at h
      unfold Installed
      split at h
      · next hp =>
        split at h
        · obtain ⟨failure, hfailure⟩ := h
          rw [hr] at hfailure
          cases hfailure
        · next http hhttp =>
          refine ⟨http, hhttp, n, .ok value, h.1, hr, htook ?_⟩
          rintro rfl
          exact h.2 hr
      · next hp =>
        refine ⟨h.1, ?_⟩
        have hrest := h.2
        split at hrest
        · next honly =>
          rw [if_pos honly]
          exact hrest.1
        · next honly =>
          rw [if_neg honly]
          exact ⟨n, .ok value, hrest, hr, htook fun hvalue => hrefused ⟨hp, honly, hvalue⟩⟩

namespace State

variable {s s' : State} {J : Option Task → BrowserView → Prop}

/-! ## Parts of the operations -/

/-- `applyProxy` puts a split on its way. -/
theorem applyProxy_routes (h : Runs t s) (hv : s.view.Settles api none)
    (hheld : api.platform = .firefox → s.settings = held) {task : Nat → Task}
    (hx : ∀ n, (task n).isOperation = true)
    (hJ : ∀ {n v}, v.tunnelUp = s.tunnelUp → v.endpoints = s.endpoints →
      Installing api held e split n v.onRequestHandler v.ledger → J (some (task n)) v) :
    Owes J (s.applyProxy api t e split task) := by
  have hfresh : s.view.ledger.results s.view.ledger.calls.length = none :=
    hv.sound _ (Nat.le_refl _)
  have hruns : Runs t (s.registerFirefoxOnRequest e.socks5 split) := h.frame rfl rfl
  unfold applyProxy
  split
  · next hp =>
    dsimp only
    split
    · next honly =>
      refine hruns.awaitSettled (hx _) (hJ rfl rfl ?_)
      simp only [Installing, hp]
      refine ⟨⟨s.nextHandler, rfl⟩, ?_⟩
      rw [if_pos honly]
      exact ⟨hheld hp, List.getElem?_concat_length⟩
    · next honly =>
      refine hruns.awaitCall (hx _) (hJ rfl rfl ?_)
      simp only [Installing, hp]
      refine ⟨⟨s.nextHandler, rfl⟩, ?_⟩
      rw [if_neg honly]
      exact Ledger.awaits_make (l := s.view.ledger) hfresh rfl
  · next hp =>
    split
    · next hhttp =>
      refine h.awaitSettled (hx _) (hJ rfl rfl ?_)
      simp only [Installing, hp, hhttp]
      exact ⟨_, Function.update_self ..⟩
    · next http hhttp =>
      refine h.awaitCall (hx _) (hJ rfl rfl ?_)
      simp only [Installing, hp, hhttp]
      refine ⟨Ledger.awaits_make (l := s.view.ledger) hfresh rfl, ?_⟩
      have hnone : s.browserResults s.calls.length = none := hfresh
      show s.browserResults s.calls.length ≠ _
      rw [hnone]
      exact nofun

/-- A promise that is settled already leaves the split there. -/
theorem installed_settled (hv : s.view.Settles api none)
    (hinstalled : Installed api held e split s.onRequestHandler s.view.ledger) (r : BrowserResult) :
    Installed api held e split s.onRequestHandler (BrowserView.ledger { s.view with
      calls := s.calls ++ [.none]
      browserResults := Function.update s.browserResults s.calls.length (some r) }) := by
  have hview : BrowserView.ledger { s.view with
      calls := s.calls ++ [.none]
      browserResults := Function.update s.browserResults s.calls.length (some r) } =
      (s.view.ledger.make .none).answer BrowserCall.written tookEffect s.calls.length .none r :=
    (Ledger.answer_make (l := s.view.ledger) (c := .none) rfl r).symm
  rw [hview]
  refine (hinstalled.make rfl).answer List.getElem?_concat_length ?_ ?_ ?_
  · exact hv.sound _ (Nat.le_refl _)
  · exact fun hwrites => absurd rfl hwrites
  · exact fun hp => (hv.waits hp).make (.inl rfl)

theorem verifyRouting_routes (h : Runs t s) {task : Nat → Task}
    (hx : ∀ n, (task n).isOperation = true)
    (hcall : ∀ n, J (some (task n)) { s.view with calls := s.calls ++ [.settingsGet] })
    (hsettled : ∀ n r, J (some (task n)) { s.view with
      calls := s.calls ++ [.none]
      browserResults := Function.update s.browserResults s.calls.length (some r) })
    (split' : SplitTunnelConfig) : Owes J (s.verifyRouting api t split' task) := by
  unfold verifyRouting assertProxyControl
  split
  · exact h.awaitSettled (hx _) (hsettled _ _)
  · unfold awaitOptional
    split
    · exact h.awaitCall (hx _) (hcall _)
    · exact h.awaitSettled (hx _) (hsettled _ _)

theorem applySplitStart_routes (h : Runs t s) (hv : s.view.Settles api none)
    (split : SplitTunnelConfig) :
    Owes (SplitRoutes api split s.settings) (s.applySplitStart api t split) := by
  unfold applySplitStart
  split
  · next e hup he =>
    have hruns : Runs t { s with onRequestHandler := none } := h.frame rfl rfl
    refine applyProxy_routes hruns (hv.frame rfl) (fun _ => rfl) (fun _ => rfl) ?_
    intro n v _ hendpoints hinstalling
    refine ⟨rfl, fun _ e' he' => ?_⟩
    obtain rfl := Option.some.inj ((hendpoints.trans he).symm.trans he')
    exact hinstalling
  · next hnone =>
    refine h.settle ?_ _
    exact fun hup e he => (hnone e hup he).elim

theorem applySplitApplied_routes (h : Runs t s) (hv : s.view.Settles api none)
    (hinstalling : s.tunnelUp = true → ∀ e, s.endpoints = some e →
      Installing api held e split n s.onRequestHandler s.view.ledger)
    (hr : s.browserResults n = some r) (happlied : proxyApplied api split r = .ok ())
    (previous : Option OnRequestHandler) :
    Owes (SplitRoutes api split held) (s.applySplitApplied api t split previous r) := by
  have hinstalled : s.tunnelUp = true → ∀ e, s.endpoints = some e →
      Installed api held e split s.onRequestHandler s.view.ledger := by
    intro hup e he
    exact (hinstalling hup e he).installed hr happlied
  -- The handler that goes is not the tracked one, and nothing else changes.
  have hverify {s' : State} (h : Runs t s') (hv : s'.view.Settles api none)
      (hinstalled : s'.tunnelUp = true → ∀ e, s'.endpoints = some e →
        Installed api held e split s'.onRequestHandler s'.view.ledger) :
      Owes (SplitRoutes api split held) (s'.verifyRouting api t split .applySplitVerify) := by
    refine verifyRouting_routes h (fun _ => rfl) ?_ ?_ split
    · exact fun _ hup e he => (hinstalled hup e he).make rfl
    · exact fun _ r hup e he => installed_settled hv (hinstalled hup e he) r
  unfold applySplitApplied
  rw [happlied]
  cases previous with
  | none => exact hverify h hv hinstalled
  | some previous => exact hverify (h.frame rfl rfl) (hv.frame rfl) hinstalled

/-! ## `connect` -/

section
variable {options : BrowserVpnConnectOptions} {c : ConnectCall}

/-- A failed `connect` leaves no tunnel to route to. -/
theorem connectFailed_routes (h : Runs t s) (hup : s.tunnelUp = false) (e : Failure) :
    Owes (ConnectRoutes api options held) (s.connectFailed t c e) := by
  have hruns : Runs t { s with onRequestHandler := c.heldHandler } := h.frame rfl rfl
  have ha : Aside { s with onRequestHandler := c.heldHandler }
      (State.closePort { s with onRequestHandler := c.heldHandler }) := closePort_aside
  have hclosed : Runs t
      { State.closePort { s with onRequestHandler := c.heldHandler } with connecting := false } :=
    (hruns.aside ha).frame rfl rfl
  refine hclosed.settle ?_ (.error e)
  intro hup'
  exact absurd (hup.symm.trans hup') nofun

theorem connectCatch_routes (h : Runs t s) (hup : s.tunnelUp = false) (hc : c.options = options)
    (e : Failure) : Owes (ConnectRoutes api options held) (s.connectCatch t c e) := by
  have hruns : Runs t { s with endpoints := none, auth := none, source := none } := h.frame rfl rfl
  unfold connectCatch
  split
  · have hremoved (s : State) : s.removeOnRequestHandler.tunnelUp = s.tunnelUp := by
      unfold removeOnRequestHandler
      split <;> rfl
    exact (removeOnRequestHandler_runs hruns).awaitCall rfl ⟨(hremoved _).trans hup, hc, trivial⟩
  · exact connectFailed_routes hruns hup e

theorem connectStart_routes (h : Runs t s) (hup : s.tunnelUp = false)
    (options : BrowserVpnConnectOptions) :
    Owes (ConnectRoutes api options s.settings) (s.connectStart api t options) := by
  have hdown : ConnectRoutes api options s.settings none s.view := by
    intro hup'
    exact absurd (hup.symm.trans hup') nofun
  unfold connectStart
  split
  · exact h.settle hdown _
  · split
    · exact h.settle hdown _
    · have hruns : Runs t { s with connecting := true, onRequestHandler := none } :=
        h.frame rfl rfl
      exact hruns.awaitOptional rfl (fun _ => ⟨hup, rfl, fun _ => rfl⟩)
        (fun _ => ⟨hup, rfl, fun _ => rfl⟩)

/-- `connect` before it routes: it writes no settings. -/
theorem connectBefore_routes (h : Runs t s) (hup : s.tunnelUp = false) (hc : c.options = options)
    (hheld : api.platform = .firefox → s.settings = held) :
    (∀ r, Owes (ConnectRoutes api options held) (s.connectControlled api t c r)) ∧
    (∀ native r, Owes (ConnectRoutes api options held) (s.connectLeaksKnown api t native c r)) ∧
    (∀ native r, Owes (ConnectRoutes api options held) (s.connectAccessKnown api t native c r)) ∧
    (∀ r, Owes (ConnectRoutes api options held) (s.connectAnswered t c r)) ∧
    (∀ g r, Owes (ConnectRoutes api options held) (s.connectPolicyHardened api t c g r)) := by
  have hcatch (e : Failure) : Owes (ConnectRoutes api options held) (s.connectCatch t c e) :=
    connectCatch_routes h hup hc e
  refine ⟨fun r => ?_, fun native r => ?_, fun native r => ?_, fun r => ?_, fun g r => ?_⟩
  · unfold connectControlled
    split
    · exact hcatch _
    · exact h.awaitOptional rfl (fun _ => ⟨hup, hc, hheld⟩) (fun _ => ⟨hup, hc, hheld⟩)
  · unfold connectLeaksKnown
    split
    · exact hcatch _
    · dsimp only
      split
      · exact h.awaitOptional rfl (fun _ => ⟨hup, hc, hheld⟩) (fun _ => ⟨hup, hc, hheld⟩)
      · exact h.request rfl ⟨hup, hc, hheld⟩ native _
  · unfold connectAccessKnown
    split
    · exact hcatch _
    · split
      · exact hcatch _
      · split
        · exact h.request rfl ⟨hup, hc, hheld⟩ native _
        · exact hcatch _
  · unfold connectAnswered
    split
    · exact hcatch _
    · split
      · exact hcatch _
      · exact h.awaitCall rfl ⟨hup, hc, hheld⟩
    · exact hcatch _
  · unfold connectPolicyHardened
    split
    · exact hcatch _
    · exact h.awaitOptional rfl (fun _ => ⟨hup, hc, hheld⟩) (fun _ => ⟨hup, hc, hheld⟩)

theorem connectHardened_routes (h : Runs t s) (hv : s.view.Settles api none)
    (hup : s.tunnelUp = false) (hc : c.options = options)
    (hheld : api.platform = .firefox → s.settings = held) (g : Granted) (r : BrowserResult) :
    Owes (ConnectRoutes api options held) (s.connectHardened api t c g r) := by
  unfold connectHardened
  split
  · exact connectCatch_routes h hup hc _
  · dsimp only
    split
    · exact connectCatch_routes (c := { c with hardened := true }) h hup hc _
    · have hruns : Runs t
          { s with endpoints := some g.endpoints, auth := some g.auth, source := some g } :=
        h.frame rfl rfl
      refine applyProxy_routes hruns (hv.frame rfl) hheld (fun _ => rfl) ?_
      intro n v hup' hendpoints hinstalling
      exact ⟨hup'.trans hup, hc, hendpoints, hinstalling⟩

theorem connectApplied_routes (h : Runs t s) (hv : s.view.Settles api none)
    (hup : s.tunnelUp = false) (hc : c.options = options)
    (hendpoints : s.endpoints = some g.endpoints)
    (hinstalling : Installing api held g.endpoints c.split n s.onRequestHandler s.view.ledger)
    (hr : s.browserResults n = some r) :
    Owes (ConnectRoutes api options held) (s.connectApplied api t c g r) := by
  unfold connectApplied
  split
  · exact connectCatch_routes h hup hc _
  · next happlied =>
    have hinstalled := hinstalling.installed hr happlied
    refine verifyRouting_routes h (fun _ => rfl) ?_ ?_ _
    · exact fun _ => ⟨hup, hc, hendpoints, hinstalled.make rfl⟩
    · exact fun _ r => ⟨hup, hc, hendpoints, installed_settled hv hinstalled r⟩

theorem connectVerified_routes (h : Runs t s) (hup : s.tunnelUp = false) (hc : c.options = options)
    (hendpoints : s.endpoints = some g.endpoints)
    (hinstalled : Installed api held g.endpoints c.split s.onRequestHandler s.view.ledger)
    (r : BrowserResult) : Owes (ConnectRoutes api options held) (s.connectVerified t c g r) := by
  have hsplit : Installed api held g.endpoints (options.split.getD DEFAULT_SPLIT)
      s.onRequestHandler s.view.ledger := by
    rw [← hc]
    exact hinstalled
  have hend {s' : State} (h : Runs t s') (hledger : s'.view.ledger = s.view.ledger)
      (he : s'.endpoints = s.endpoints) (hhandler : s'.onRequestHandler = s.onRequestHandler)
      (r : TaskResult) : Owes (ConnectRoutes api options held) (s'.settle t r) := by
    refine h.settle ?_ r
    intro _ e he'
    have heq : some g.endpoints = some e := hendpoints.symm.trans (he.symm.trans he')
    obtain rfl := Option.some.inj heq
    show Installed api held g.endpoints _ s'.onRequestHandler s'.view.ledger
    rw [hhandler, hledger]
    exact hsplit
  unfold connectVerified
  split
  · exact connectCatch_routes h hup hc _
  · split
    · exact connectCatch_routes h hup hc _
    · dsimp only
      split
      · apply hend
        · exact h.frame rfl rfl
        all_goals rfl
      · apply hend
        · exact h.frame rfl rfl
        all_goals rfl

theorem resumeConnect_routes (h : Runs t s) (hv : s.view.Settles api none)
    (hJ : ConnectRoutes api options held (some (.connect c a)) s.view)
    (hs : s.resumeConnect api t native c a = some s') :
    Owes (ConnectRoutes api options held) s' := by
  obtain ⟨hup, hc, hJ⟩ := hJ
  cases a with
  | assertProxyControl n =>
    obtain ⟨r, -, rfl⟩ := Option.map_eq_some_iff.mp hs
    exact (connectBefore_routes h hup hc hJ).1 r
  | holdsLeakHardening n =>
    obtain ⟨r, -, rfl⟩ := Option.map_eq_some_iff.mp hs
    exact (connectBefore_routes h hup hc hJ).2.1 native r
  | isAllowedIncognitoAccess n =>
    obtain ⟨r, -, rfl⟩ := Option.map_eq_some_iff.mp hs
    exact (connectBefore_routes h hup hc hJ).2.2.1 native r
  | request request =>
    obtain ⟨r, -, rfl⟩ := Option.map_eq_some_iff.mp hs
    exact (connectBefore_routes h hup hc hJ).2.2.2.1 r
  | hardenPolicy g n =>
    obtain ⟨r, -, rfl⟩ := Option.map_eq_some_iff.mp hs
    exact (connectBefore_routes h hup hc hJ).2.2.2.2 g r
  | hardenPrediction g n =>
    obtain ⟨r, -, rfl⟩ := Option.map_eq_some_iff.mp hs
    exact connectHardened_routes h hv hup hc hJ g r
  | applyProxy g n =>
    obtain ⟨r, hr, rfl⟩ := Option.map_eq_some_iff.mp hs
    exact connectApplied_routes h hv hup hc hJ.1 hJ.2 hr
  | verifyRouting g n =>
    obtain ⟨r, -, rfl⟩ := Option.map_eq_some_iff.mp hs
    exact connectVerified_routes h hup hc hJ.1 hJ.2 r
  | restoreSettings e n =>
    obtain ⟨r, -, rfl⟩ := Option.map_eq_some_iff.mp hs
    unfold connectRestored
    split
    · exact connectFailed_routes h hup e
    · split
      · exact h.awaitCall rfl ⟨hup, hc, trivial⟩
      · exact connectFailed_routes h hup e
  | releasePolicy e n =>
    obtain ⟨r, -, rfl⟩ := Option.map_eq_some_iff.mp hs
    unfold connectPolicyReleased
    split
    · exact connectFailed_routes h hup e
    · exact h.awaitOptional rfl (fun _ => ⟨hup, hc, trivial⟩) (fun _ => ⟨hup, hc, trivial⟩)
  | releasePrediction e n =>
    obtain ⟨r, -, rfl⟩ := Option.map_eq_some_iff.mp hs
    exact connectFailed_routes h hup e

end

/-! ## Runs -/

/-- An `applySplit` goes on with its settings applied. -/
def SplitApplies (api : ChromeLike) (x : Task) (v : BrowserView) : Prop :=
  ∀ split previous n r, x = .applySplitProxy split previous n → v.browserResults n = some r →
    proxyApplied api split r = .ok ()

theorem start_routes (h : Runs t s) (hv : s.view.Settles api none) (native : Bool)
    (operation : Operation) :
    Owes (Routes api (some { operation, task := t, before := s.view }))
      (s.start api t native operation) := by
  have hsettles := start_settles h hv native operation
  cases operation with
  | connect options =>
    by_cases hup : s.tunnelUp = false
    · exact (connectStart_routes h hup options).mono fun hJ _ => hJ
    · exact hsettles.mono fun _ hup' => absurd hup' hup
  | reconnect options => exact hsettles.mono fun _ => trivial
  | disconnect => exact hsettles.mono fun _ => trivial
  | applySplit split => exact applySplitStart_routes h hv split

theorem resume_routes (h : Runs t s) (hx : x.isOperation = true) (hv : s.view.Settles api none)
    (hJ : Routes api last (some x) s.view) (happlies : SplitApplies api x s.view)
    (hs : s.resume api t native x = some s') : Owes (Routes api last) s' := by
  have hsettles := resume_settles h hx hv hs
  obtain _ | ⟨operation, task, before⟩ := last
  · exact hsettles.mono fun _ => trivial
  cases operation with
  | connect options =>
    by_cases hup : before.tunnelUp = false
    · have hJ := hJ hup
      cases x with
      | connect c a => exact (resumeConnect_routes h hv hJ hs).mono fun hJ _ => hJ
      | _ => exact hJ.elim
    · exact hsettles.mono fun _ hup' => absurd hup' hup
  | reconnect options => exact hsettles.mono fun _ => trivial
  | disconnect => exact hsettles.mono fun _ => trivial
  | applySplit split =>
    cases x with
    | applySplitProxy split' previous n =>
      obtain ⟨rfl, hJ⟩ := hJ
      obtain ⟨r, hr, rfl⟩ := Option.map_eq_some_iff.mp hs
      exact applySplitApplied_routes h hv hJ hr (happlies _ _ n r rfl hr) previous
    | applySplitVerify n =>
      obtain ⟨r, -, rfl⟩ := Option.map_eq_some_iff.mp hs
      have hsettled (r : TaskResult) :
          Owes (Routes api (some ⟨.applySplit split, task, before⟩)) (s.settle t r) :=
        h.settle hJ r
      unfold applySplitVerified
      split
      · exact hsettled _
      · exact hsettled _
    | _ => exact hJ.elim

theorem answer_routes {v : BrowserView} (hv : v.Settles api op) (hJ : Routes api last op v)
    (hcall : v.calls[n]? = some c) (hnone : v.browserResults n = none)
    (hinorder : v.answersInOrder api n r = true) : Routes api last op (v.answer n c r) := by
  have horder (hwrites : c.written ≠ none) := BrowserView.of_answersInOrder hinorder hcall hwrites
  have hinstalled {held e split} (hawaited : op.bind Task.awaitedWrite = none)
      (h : Installed api held e split v.onRequestHandler v.ledger) :
      Installed api held e split v.onRequestHandler (v.answer n c r).ledger :=
    h.answer hcall hnone (fun hwrites => (horder hwrites).1) fun hp => hawaited ▸ hv.waits hp
  have hinstalling {held e split m} (hawaited : op.bind Task.awaitedWrite = some m)
      (h : Installing api held e split m v.onRequestHandler v.ledger) :
      Installing api held e split m v.onRequestHandler (v.answer n c r).ledger :=
    h.answer hcall hnone horder fun hp => hawaited ▸ hv.waits hp
  have hsettings (hp : api.platform = .firefox) (hawaited : op.bind Task.awaitedWrite = none) :
      (v.answer n c r).settings = v.settings := by
    have hwaits := hv.waits hp
    rw [hawaited] at hwaits
    exact hwaits.stored_answer hcall hnone nofun
  obtain _ | ⟨operation, task, before⟩ := last
  · trivial
  cases operation with
  | reconnect options => trivial
  | disconnect => trivial
  | connect options =>
    intro hup
    have hJ := hJ hup
    rcases op with _ | x
    · exact fun hup e he => hinstalled rfl (hJ hup e he)
    · cases x with
      | connect connect a =>
        obtain ⟨hup, hc, hJ⟩ := hJ
        refine ⟨hup, hc, ?_⟩
        cases a with
        | applyProxy g m => exact ⟨hJ.1, hinstalling rfl hJ.2⟩
        | verifyRouting g m => exact ⟨hJ.1, hinstalled rfl hJ.2⟩
        | restoreSettings | releasePolicy | releasePrediction => trivial
        | _ => exact fun hp => (hsettings hp rfl).trans (hJ hp)
      | _ => exact hJ.elim
  | applySplit split =>
    rcases op with _ | x
    · exact fun hup e he => hinstalled rfl (hJ hup e he)
    · cases x with
      | applySplitProxy split' previous m =>
        exact ⟨hJ.1, fun hup e he => hinstalling rfl (hJ.2 hup e he)⟩
      | applySplitVerify m => exact fun hup e he => hinstalled rfl (hJ hup e he)
      | _ => exact hJ.elim

theorem die_routes {v : BrowserView} (hJ : Routes api last op v)
    (hlost : lost = true → v.tunnelUp = true) : Routes api last op (v.die api lost) := by
  obtain _ | ⟨operation, task, before⟩ := last
  · trivial
  cases operation with
  | reconnect options => trivial
  | disconnect => trivial
  | connect options =>
    intro hup
    have hJ := hJ hup
    rcases op with _ | x
    · exact nofun
    · cases x with
      | connect c a =>
        obtain ⟨hup, hc, hJ⟩ := hJ
        obtain rfl : lost = false := by
          by_contra hlost'
          exact absurd (hup.symm.trans (hlost (Bool.eq_true_of_not_eq_false hlost'))) nofun
        refine ⟨rfl, hc, ?_⟩
        cases a with
        | applyProxy g m => exact hJ
        | verifyRouting g m => exact hJ
        | restoreSettings | releasePolicy | releasePrediction => trivial
        | _ => exact hJ
      | _ => exact hJ.elim
  | applySplit split =>
    rcases op with _ | x
    · exact nofun
    · cases x with
      | applySplitProxy split' previous m => exact ⟨hJ.1, nofun⟩
      | applySplitVerify m => exact nofun
      | _ => exact hJ.elim

/-- The timers are for the release of a host. -/
theorem timeout_routes (hsettles : Owes (BrowserView.Settles api) s')
    (hJ : Routes api last (some x) s.view) (hs : s.timeout api t x = some s') :
    Owes (Routes api last) s' := by
  have hrelease : (∀ c a, x ≠ .connect c a) ∧
    (∀ split previous n, x ≠ .applySplitProxy split previous n) ∧
      ∀ n, x ≠ .applySplitVerify n := by
    refine ⟨?_, ?_, ?_⟩ <;> rintro _ <;> intros <;> rintro rfl <;> cases hs
  obtain _ | ⟨operation, task, before⟩ := last
  · exact hsettles.mono fun _ => trivial
  cases operation with
  | reconnect options => exact hsettles.mono fun _ => trivial
  | disconnect => exact hsettles.mono fun _ => trivial
  | connect options =>
    by_cases hup : before.tunnelUp = false
    · have hJ := hJ hup
      cases x with
      | connect c a => exact absurd rfl (hrelease.1 c a)
      | _ => exact hJ.elim
    · exact hsettles.mono fun _ hup' => absurd hup' hup
  | applySplit split =>
    cases x with
    | applySplitProxy split' previous n => exact absurd rfl (hrelease.2.1 split' previous n)
    | applySplitVerify n => exact absurd rfl (hrelease.2.2 n)
    | _ => exact hJ.elim

theorem upholds_routes :
    Upholds api (SplitApplies api) (fun v n r => v.answersInOrder api n r = true) fun last op v =>
      v.Settles api op ∧ Routes api last op v where
  start {last s t native operation} h hJ :=
    (start_settles h hJ.1 native operation).and (start_routes h hJ.1 native operation)
  resume h hx hJ happlies hs := by
    have hv := hJ.1.done fun _ => answered_of_resume hs
    exact (resume_settles h hx hv hs).and (resume_routes h hx hv hJ.2 happlies hs)
  timeout {last s s' t x} h hJ hs := by
    have hsettles := timeout_settles h hJ.1 hs
    exact hsettles.and (timeout_routes hsettles hJ.2 hs)
  answer hJ hcall hnone hinorder :=
    ⟨answer_settles hJ.1 hcall _, answer_routes hJ.1 hJ.2 hcall hnone hinorder⟩
  die hJ hlost := ⟨die_settles hJ.1 _, die_routes hJ.2 hlost⟩

/-! ## Routes -/

/-- What the one handler of an installed split answers. -/
theorem handlerAnswer_of_handlers {n : Nat} {socks5 : String} (api : ChromeLike)
    (hhandlers : s.handlers = [⟨n, socks5, split⟩]) (request : BrowserRequest) :
    s.handlerAnswer api request =
      if shouldTunnelRequest api.toLowerCase request split then
        some (match s.forListener socks5 with
          | some auth => .socks (parseAddress socks5) true auth
          | none => .failClosed)
      else none := by
  unfold handlerAnswer OnRequestHandler.answer
  rw [hhandlers]
  cases htunnel : shouldTunnelRequest api.toLowerCase request split with
  | false => simp [htunnel]
  | true =>
    cases hauth : s.forListener socks5 with
    | none => simp [htunnel, hauth]
    | some auth => simp [htunnel, hauth]

theorem forListener_congr (he : s'.endpoints = s.endpoints) (hauth : s'.auth = s.auth)
    (listener : String) : s'.forListener listener = s.forListener listener := by
  unfold forListener
  rw [he, hauth]

/-- Two clients with one split installed route alike, but for what each found of the settings in
`only` mode on Firefox. -/
theorem route_eq_iff (bypasses : ProxyValue → BrowserRequest → Bool)
    (hs : Installed api held e split s.onRequestHandler s.view.ledger)
    (hs' : Installed api none e split s'.onRequestHandler s'.view.ledger)
    (hhandlers : s.handlers = s.onRequestHandler.toList)
    (hhandlers' : s'.handlers = s'.onRequestHandler.toList)
    (he : s'.endpoints = s.endpoints) (hauth : s'.auth = s.auth) (request : BrowserRequest) :
    s.route api bypasses request = s'.route api bypasses request ↔
      (api.platform = .firefox → split.mode = .only →
        shouldTunnelRequest api.toLowerCase request split = false →
        ∀ value, held = some value → bypasses value request = true) := by
  cases hp : api.platform with
  | chromium =>
    simp only [Installed, hp] at hs hs'
    obtain ⟨http, hhttp, hwritten⟩ := hs
    obtain ⟨http', hhttp', hwritten'⟩ := hs'
    obtain rfl := Option.some.inj (hhttp.symm.trans hhttp')
    have hsettings : s.settings = s'.settings := hwritten.stored.trans hwritten'.stored.symm
    simp [route, hp, hsettings]
  | firefox =>
    simp only [Installed, hp] at hs hs'
    obtain ⟨⟨id, hhandler⟩, hs⟩ := hs
    obtain ⟨⟨id', hhandler'⟩, hs'⟩ := hs'
    rw [hhandler, Option.toList_some] at hhandlers
    rw [hhandler', Option.toList_some] at hhandlers'
    have hanswer := handlerAnswer_of_handlers api hhandlers request
    have hanswer' := handlerAnswer_of_handlers api hhandlers' request
    rw [forListener_congr he hauth] at hanswer'
    simp only [route, hp, hanswer, hanswer']
    cases htunnel : shouldTunnelRequest api.toLowerCase request split with
    | true => simp
    | false =>
      by_cases honly : split.mode = .only
      · rw [if_pos honly] at hs hs'
        have hsettings : s.settings = held := hs
        have hsettings' : s'.settings = none := hs'
        rw [hsettings, hsettings']
        cases held with
        | none => simp [settingsRoute]
        | some value =>
          cases hb : bypasses value request <;> simp [settingsRoute, honly, hb]
      · rw [if_neg honly] at hs hs'
        have hsettings : s.settings = s'.settings := hs.stored.trans hs'.stored.symm
        simp [hsettings, honly]

end State

namespace Sequence
open State

/-- Whether the browser and the calls behave: it takes settings in the order they are written, and
no `applySplit` fails to apply its own. -/
def successful (api : ChromeLike) (q : Sequence) (e : Event) : Bool :=
  match e with
  | .browserAnswer n r => q.client.view.answersInOrder api n r
  | .resume t _ =>
    match q.client.tasks t with
    | some (.applySplitProxy split _ n) =>
      (q.client.browserResults n).all fun r => (proxyApplied api split r).isOk
    | _ => true
  | _ => true

/-- A tunnel to `e`, after a run of successful calls the last of which was `operation`, called on
`before`. -/
structure After (api : ChromeLike) (operation : Operation) (before : BrowserView)
    (e : ExtensionEndpoints) (q : Sequence) : Prop where
  run : ∃ settings policy prediction, Run (step api) (fun q e => q.successful api e = true)
    { client := .initial settings policy prediction } q
  idle : q.client.idle = true
  tunnelUp : q.client.tunnelUp = true
  endpoints : q.client.endpoints = some e
  last : ∃ task, q.last = some { operation, task, before }

theorem splitApplies_of_successful {q : Sequence} (h : q.successful api (.resume t native) = true)
    (hx : q.client.tasks t = some x) : SplitApplies api x q.client.view := by
  rintro split previous n r rfl hr
  have hr : q.client.browserResults n = some r := hr
  simp only [successful, hx, hr, Option.all_some] at h
  cases happlied : proxyApplied api split r with
  | ok => rfl
  | error e =>
    rw [happlied] at h
    cases h

theorem After.owes {q : Sequence} (h : q.After api operation before e) :
    Owes (BrowserView.Accounted q.last) q.client ∧
      Owes (fun op v => v.Settles api op ∧ Routes api q.last op v) q.client := by
  obtain ⟨settings, policy, prediction, hrun⟩ := h.run
  refine ⟨?_, ?_⟩
  · refine hrun.invariant (I := fun q => Owes (BrowserView.Accounted q.last) q.client) ?_ ?_
    · intro q e q' hq hsuccessful hs
      refine step_owes upholds_accounted hq ?_ (fun _ => trivial) hs
      rintro t native x rfl hx split previous n r rfl hr
      exact splitApplies_of_successful hsuccessful hx _ _ n r rfl hr
    · exact owes_initial settings policy prediction accounted_initial
  · refine hrun.invariant
      (I := fun q => Owes (fun op v => v.Settles api op ∧ Routes api q.last op v) q.client) ?_ ?_
    · intro q e q' hq hsuccessful hs
      refine step_owes upholds_routes hq ?_ ?_ hs
      · rintro t native x rfl hx
        exact splitApplies_of_successful hsuccessful hx
      · rintro n r rfl
        exact hsuccessful
    · refine owes_initial settings policy prediction ⟨⟨fun _ _ => rfl, fun _ => ?_⟩, trivial⟩
      exact fun m c hc => absurd hc (by simp [BrowserView.ledger, view, initial])

/-- After an `applySplit` a request goes where it would after a fresh `connect` with the same split,
exactly unless Firefox is left with settings that a request outside an `only` split falls through
to. -/
theorem route_after_applySplit_iff {q fresh : Sequence}
    (hq : q.After api (.applySplit split) before e)
    (hfresh : fresh.After api (.connect options) before' e)
    (hsplit : options.split.getD DEFAULT_SPLIT = split) (hdown : before'.tunnelUp = false)
    (hunset : before'.settings = none) (hauth : fresh.client.auth = q.client.auth)
    (bypasses : ProxyValue → BrowserRequest → Bool) (request : BrowserRequest) :
    q.client.route api bypasses request = fresh.client.route api bypasses request ↔
      (api.platform = .firefox → split.mode = .only →
        shouldTunnelRequest api.toLowerCase request split = false →
        ∀ value, before.settings = some value → bypasses value request = true) := by
  obtain ⟨⟨op, htracked⟩, ⟨op₁, hroutes⟩⟩ := hq.owes
  obtain rfl := htracked.idle_iff.mp hq.idle
  obtain rfl := hroutes.idle_iff.mp hq.idle
  obtain ⟨⟨op', htracked'⟩, ⟨op₁', hroutes'⟩⟩ := hfresh.owes
  obtain rfl := htracked'.idle_iff.mp hfresh.idle
  obtain rfl := hroutes'.idle_iff.mp hfresh.idle
  obtain ⟨task, hlast⟩ := hq.last
  obtain ⟨task', hlast'⟩ := hfresh.last
  have hinstalled := hroutes.owes.2
  have hinstalled' := hroutes'.owes.2
  rw [hlast] at hinstalled
  rw [hlast'] at hinstalled'
  have hinstalled := hinstalled hq.tunnelUp e hq.endpoints
  have hinstalled' := hinstalled' hdown hfresh.tunnelUp e hfresh.endpoints
  rw [hunset, hsplit] at hinstalled'
  exact route_eq_iff bypasses hinstalled hinstalled' htracked.owes.1.2 htracked'.owes.1.2
    (hfresh.endpoints.trans hq.endpoints.symm) hauth request

/-- What Firefox sends direct under a list of the loopback names. -/
def loopbackOnly (_ : ProxyValue) (request : BrowserRequest) : Bool :=
  request.host = "localhost" || request.host = "127.0.0.1"

/-- A `connect` with `split` over the listener `a:1`, up to where it routes. -/
def hardenedConnect (split : SplitTunnelConfig) : List Event := [
  .connect { mnemonic := "", split := some split },
  .browserAnswer 0 (.ok (.details { levelOfControl := some .controllableByThisExtension })),
  .resume 0 true,
  .browserAnswer 1 (.ok (.details { levelOfControl := some .controllableByThisExtension })),
  .resume 0 true,
  .browserAnswer 2 (.ok (.bool true)),
  .resume 0 true,
  .message 0 (some (.response (.ok 1 (.hello 3 none)))),
  .resume 2 true,
  .resume 1 true,
  .message 0 (some (.response (.ok 2 (.connect { socks5 := "a:1" }
    (some { username := some "u", password := some "p" }) none)))),
  .resume 1 true,
  .resume 0 true,
  .browserAnswer 3 (.ok .undefined),
  .resume 0 true,
  .browserAnswer 4 (.ok .undefined),
  .resume 0 true]

/-- The split of one site. -/
def onlySite : SplitTunnelConfig := { mode := .only, rules := ["a.example"] }

/-- The split around one site. -/
def bypassSite : SplitTunnelConfig := { mode := .bypass, rules := ["a.example"] }

theorem route_after_applySplit_bypass :
    ∃ q fresh : Sequence, ∃ before before',
      q.After firefox (.applySplit bypassSite) before { socks5 := "a:1" } ∧
      fresh.After firefox (.connect { mnemonic := "", split := some bypassSite }) before'
        { socks5 := "a:1" } ∧
      ∀ request, q.client.route firefox loopbackOnly request =
        fresh.client.route firefox loopbackOnly request := by
  have hq : ∃ q before, exec (step firefox) (successful firefox)
        { client := .initial none none none }
        (firstTunnel ++ [.applySplit bypassSite, .browserAnswer 7 (.ok (.bool true)),
          .resume 3 true, .browserAnswer 8 (.ok (.details {})), .resume 3 true]) = some q ∧
      q.client.idle = true ∧ q.client.tunnelUp = true ∧
      q.client.endpoints = some { socks5 := "a:1" } ∧
      q.client.auth = some { username := "u", password := "p" } ∧
      q.last = some { operation := .applySplit bypassSite, task := 3, before } :=
    ⟨_, _, rfl, rfl, rfl, rfl, rfl, rfl⟩
  have hfresh : ∃ fresh before, exec (step firefox) (successful firefox)
        { client := .initial none none none }
        (hardenedConnect bypassSite ++ [.browserAnswer 5 (.ok .undefined), .resume 0 true,
          .browserAnswer 6 (.ok (.details {})), .resume 0 true]) = some fresh ∧
      fresh.client.idle = true ∧ fresh.client.tunnelUp = true ∧
      fresh.client.endpoints = some { socks5 := "a:1" } ∧
      fresh.client.auth = some { username := "u", password := "p" } ∧
      fresh.last = some { operation := .connect { mnemonic := "", split := some bypassSite },
                          task := 0, before } ∧
      before.tunnelUp = false ∧ before.settings = none :=
    ⟨_, _, rfl, rfl, rfl, rfl, rfl, rfl, rfl, rfl⟩
  obtain ⟨q, before, hrun, hidle, hup, he, hauth, hlast⟩ := hq
  obtain ⟨fresh, before', hrun', hidle', hup', he', hauth', hlast', hdown, hunset⟩ := hfresh
  have hafter : q.After firefox (.applySplit bypassSite) before { socks5 := "a:1" } :=
    ⟨⟨none, none, none, .of_exec hrun⟩, hidle, hup, he, 3, hlast⟩
  have hafter' : fresh.After firefox (.connect { mnemonic := "", split := some bypassSite }) before'
      { socks5 := "a:1" } :=
    ⟨⟨none, none, none, .of_exec hrun'⟩, hidle', hup', he', 0, hlast'⟩
  refine ⟨q, fresh, before, before', hafter, hafter', fun request => ?_⟩
  exact (route_after_applySplit_iff hafter hafter' rfl hdown hunset (hauth'.trans hauth.symm)
    loopbackOnly request).mpr fun _ => nofun

/-- A request outside the split falls through to the settings of the `connect` before, and goes to
their listener; after a `connect` with the split it goes direct. -/
theorem not_route_after_applySplit_only :
    ¬ ∀ (split : SplitTunnelConfig) (options : BrowserVpnConnectOptions)
      (before before' : BrowserView)
        (e : ExtensionEndpoints) (q fresh : Sequence),
      q.After firefox (.applySplit split) before e →
      fresh.After firefox (.connect options) before' e →
      options.split.getD DEFAULT_SPLIT = split → before'.tunnelUp = false →
      before'.settings = none → fresh.client.auth = q.client.auth →
      ∀ request, q.client.route firefox loopbackOnly request =
        fresh.client.route firefox loopbackOnly request := by
  have hq : ∃ q before, exec (step firefox) (successful firefox)
        { client := .initial none none none }
        (firstTunnel ++ [.applySplit onlySite, .resume 3 true, .resume 3 true]) = some q ∧
      q.client.idle = true ∧ q.client.tunnelUp = true ∧
      q.client.endpoints = some { socks5 := "a:1" } ∧
      q.client.auth = some { username := "u", password := "p" } ∧
      q.last = some { operation := .applySplit onlySite, task := 3, before } ∧
      q.client.settings = some (buildFirefoxProxyValue "a:1" DEFAULT_SPLIT) ∧
      q.client.handlers = [⟨1, "a:1", onlySite⟩] :=
    ⟨_, _, rfl, rfl, rfl, rfl, rfl, rfl, rfl, rfl⟩
  have hfresh : ∃ fresh before, exec (step firefox) (successful firefox)
        { client := .initial none none none }
        (hardenedConnect onlySite ++ [.resume 0 true, .resume 0 true]) = some fresh ∧
      fresh.client.idle = true ∧ fresh.client.tunnelUp = true ∧
      fresh.client.endpoints = some { socks5 := "a:1" } ∧
      fresh.client.auth = some { username := "u", password := "p" } ∧
      fresh.last = some { operation := .connect { mnemonic := "", split := some onlySite },
                          task := 0, before } ∧
      before.tunnelUp = false ∧ before.settings = none ∧
      fresh.client.settings = none ∧ fresh.client.handlers = [⟨0, "a:1", onlySite⟩] :=
    ⟨_, _, rfl, rfl, rfl, rfl, rfl, rfl, rfl, rfl, rfl, rfl⟩
  obtain ⟨q, before, hrun, hidle, hup, he, hauth, hlast, hset, hhandlers⟩ := hq
  obtain ⟨fresh, before', hrun', hidle', hup', he', hauth', hlast', hdown, hunset, hset',
    hhandlers'⟩ := hfresh
  have htunnel : shouldTunnelRequest firefox.toLowerCase { host := "b.example" } onlySite =
      false := by
    decide +kernel
  intro h
  have heq := h onlySite { mnemonic := "", split := some onlySite } before before'
    { socks5 := "a:1" } q fresh
    ⟨⟨none, none, none, .of_exec hrun⟩, hidle, hup, he, 3, hlast⟩
    ⟨⟨none, none, none, .of_exec hrun'⟩, hidle', hup', he', 0, hlast'⟩
    rfl hdown hunset (hauth'.trans hauth.symm) { host := "b.example" }
  have hlisted : loopbackOnly (buildFirefoxProxyValue "a:1" DEFAULT_SPLIT)
      { host := "b.example" } = false := by
    decide +kernel
  have hanswer := handlerAnswer_of_handlers firefox hhandlers { host := "b.example" }
  have hanswer' := handlerAnswer_of_handlers firefox hhandlers' { host := "b.example" }
  rw [htunnel] at hanswer hanswer'
  have hplatform : firefox.platform = .firefox := rfl
  simp [route, hplatform, hanswer, hanswer', hset, hset', settingsRoute, hlisted] at heq

end Sequence

end WarrenSdk.Extension
