import WarrenSdk.Extension.Client.Sequence
import WarrenSdk.Lib.Ledger

/-!
# What the browser holds of the proxy settings

The calls of a client on the browser are a ledger over its proxy settings. A browser takes the
writes in the order they are made, and `answersInOrder` says so of one answer. On Firefox nobody but
the operation in flight waits for one: `Settles`.
-/

namespace WarrenSdk.Extension
open Lib

/-- The call on the proxy settings that is awaited. -/
def Task.awaitedWrite : Task → Option Nat
  | .connect _ (.applyProxy _ n) | .connect _ (.restoreSettings _ n) | .reconnectLockdown _ n
  | .disconnectSettings n | .applySplitProxy _ _ n => some n
  | _ => none

namespace BrowserView

def ledger (v : BrowserView) : Ledger BrowserCall BrowserResult (Option ProxyValue) where
  calls := v.calls
  results := v.browserResults
  stored := v.settings

/-- The call `n` may be answered `r`: writes are answered in order, and Chromium answers none of
them `false`. -/
def answersInOrder (api : ChromeLike) (v : BrowserView) (n : Nat) (r : BrowserResult) : Bool :=
  match v.calls[n]? with
  | some c =>
    c.written.isNone ||
      ((List.range n).all fun m =>
        v.calls[m]?.all (·.written.isNone) || (v.browserResults m).isSome) &&
      (api.platform = .firefox || r ≠ .ok (.bool false))
  | none => true

theorem of_answersInOrder {v : BrowserView} (h : v.answersInOrder api n r = true)
    (hc : v.calls[n]? = some c) (hwrites : c.written ≠ none) :
    v.ledger.InOrder BrowserCall.written n ∧
      (api.platform = .chromium → r ≠ .ok (.bool false)) := by
  simp only [answersInOrder, hc,
    Option.isNone_eq_false_iff.mpr (Option.isSome_iff_ne_none.mpr hwrites),
    Bool.false_or, Bool.and_eq_true, Bool.or_eq_true, decide_eq_true_eq, List.all_eq_true,
    List.mem_range] at h
  refine ⟨fun m d hm hd hwrites => ?_, fun hp => h.2.resolve_left fun hf => ?_⟩
  · have hd : v.calls[m]? = some d := hd
    rcases h.1 m hm with hall | hr
    · rw [hd, Option.all_some, Option.isNone_iff_eq_none] at hall
      exact absurd hall hwrites
    · exact Option.isSome_iff_ne_none.mp hr
  · rw [hp] at hf
    cases hf

/-- Only calls that were made have results, and on Firefox every write has its own but the one the
operation in flight awaits. -/
structure Settles (api : ChromeLike) (op : Option Task) (v : BrowserView) : Prop where
  sound : v.ledger.Sound
  waits : api.platform = .firefox →
    v.ledger.Waits BrowserCall.written (op.bind Task.awaitedWrite)

theorem Settles.frame {v v' : BrowserView} (h : v.Settles api op) (hl : v'.ledger = v.ledger) :
    v'.Settles api op where
  sound := hl ▸ h.sound
  waits hp := hl ▸ h.waits hp

theorem Settles.done {v : BrowserView} (h : v.Settles api (some x))
    (hr : ∀ n, x.awaitedWrite = some n → v.browserResults n ≠ none) : v.Settles api none where
  sound := h.sound
  waits hp := (h.waits hp).done hr

end BrowserView

namespace State

variable {api : ChromeLike} {s s' : State}

/-! ## Awaits -/

theorem awaitCall_settles (h : Runs t s) (hv : s.view.Settles api none) {task : Nat → Task}
    (hx : ∀ n, (task n).isOperation = true)
    (hc : c.written = none ∨ ∀ n, (task n).awaitedWrite = some n) :
    Owes (BrowserView.Settles api) (s.awaitCall t c task) := by
  refine h.awaitCall (hx _) ⟨hv.sound.make c, fun hp => (hv.waits hp).make ?_⟩
  exact hc.imp id fun htask => htask s.calls.length

theorem awaitSettled_settles (h : Runs t s) (hv : s.view.Settles api none) {task : Nat → Task}
    (hx : ∀ n, (task n).isOperation = true) :
    Owes (BrowserView.Settles api) (s.awaitSettled t r task) := by
  have hview : BrowserView.ledger { s.view with
      calls := s.calls ++ [.none]
      browserResults := Function.update s.browserResults s.calls.length (some r) } =
      (s.view.ledger.make .none).answer BrowserCall.written tookEffect s.calls.length .none r :=
    (Ledger.answer_make (l := s.view.ledger) (c := .none) rfl r).symm
  refine h.awaitSettled (hx _) ⟨?_, fun hp => ?_⟩
  · rw [hview]
    exact (hv.sound.make _).answer List.getElem?_concat_length
  · rw [hview]
    exact ((hv.waits hp).make (.inl rfl)).answer

theorem awaitOptional_settles (h : Runs t s) (hv : s.view.Settles api none) {task : Nat → Task}
    (hx : ∀ n, (task n).isOperation = true) (hc : c.written = none) :
    Owes (BrowserView.Settles api) (s.awaitOptional has t c task) := by
  unfold awaitOptional
  split
  · exact awaitCall_settles h hv hx (.inl hc)
  · exact awaitSettled_settles h hv hx

theorem request_settles (h : Runs t s) (hv : s.view.Settles api none) (hx : x.isOperation = true)
    (hawaited : x.awaitedWrite = none) (native : Bool) (body : HostRequest) :
    Owes (BrowserView.Settles api) ((s.request api native body).suspend t x) := by
  refine h.request hx ⟨hv.sound, fun hp => ?_⟩ native body
  rw [Option.bind_some, hawaited]
  exact hv.waits hp

theorem applyProxy_settles (h : Runs t s) (hv : s.view.Settles api none) {task : Nat → Task}
    (hx : ∀ n, (task n).isOperation = true) (hawaited : ∀ n, (task n).awaitedWrite = some n)
    (endpoints : ExtensionEndpoints) (split : SplitTunnelConfig) :
    Owes (BrowserView.Settles api) (s.applyProxy api t endpoints split task) := by
  have hruns : Runs t (s.registerFirefoxOnRequest endpoints.socks5 split) := h.frame rfl rfl
  unfold applyProxy
  split
  · dsimp only
    split
    · exact awaitSettled_settles hruns (hv.frame rfl) hx
    · exact awaitCall_settles hruns (hv.frame rfl) hx (.inr hawaited)
  · split
    · exact awaitSettled_settles h hv hx
    · exact awaitCall_settles h hv hx (.inr hawaited)

theorem verifyRouting_settles (h : Runs t s) (hv : s.view.Settles api none) {task : Nat → Task}
    (hx : ∀ n, (task n).isOperation = true) (split : SplitTunnelConfig) :
    Owes (BrowserView.Settles api) (s.verifyRouting api t split task) := by
  unfold verifyRouting assertProxyControl
  split
  · exact awaitSettled_settles h hv hx
  · exact awaitOptional_settles h hv hx rfl

/-! ## `connect` -/

theorem connectFailed_settles (h : Runs t s) (hv : s.view.Settles api none) (c : ConnectCall)
    (e : Failure) : Owes (BrowserView.Settles api) (s.connectFailed t c e) := by
  have hruns : Runs t { s with onRequestHandler := c.heldHandler } := h.frame rfl rfl
  have ha : Aside { s with onRequestHandler := c.heldHandler }
      (State.closePort { s with onRequestHandler := c.heldHandler }) := closePort_aside
  have hclosed : Runs t
      { State.closePort { s with onRequestHandler := c.heldHandler } with connecting := false } :=
    (hruns.aside ha).frame rfl rfl
  exact hclosed.settle (hv.frame rfl) (.error e)

theorem connectCatch_settles (h : Runs t s) (hv : s.view.Settles api none) (c : ConnectCall)
    (e : Failure) : Owes (BrowserView.Settles api) (s.connectCatch t c e) := by
  have hruns : Runs t { s with endpoints := none, auth := none, source := none } := h.frame rfl rfl
  unfold connectCatch
  split
  · have hremoved (s : State) : s.removeOnRequestHandler.view.ledger = s.view.ledger := by
      unfold removeOnRequestHandler
      split <;> rfl
    have hremove := removeOnRequestHandler_runs hruns
    exact awaitCall_settles hremove (hv.frame (hremoved _)) (fun _ => rfl) (.inr fun _ => rfl)
  · exact connectFailed_settles hruns (hv.frame rfl) c e

theorem connectRestored_settles (h : Runs t s) (hv : s.view.Settles api none) (c : ConnectCall)
    (e : Failure) (r : BrowserResult) :
    Owes (BrowserView.Settles api) (s.connectRestored t c e r) := by
  unfold connectRestored
  split
  · exact connectFailed_settles h hv c e
  · split
    · exact awaitCall_settles h hv (fun _ => rfl) (.inl rfl)
    · exact connectFailed_settles h hv c e

theorem connectPolicyReleased_settles (h : Runs t s) (hv : s.view.Settles api none)
    (c : ConnectCall) (e : Failure) (r : BrowserResult) :
    Owes (BrowserView.Settles api) (s.connectPolicyReleased api t c e r) := by
  unfold connectPolicyReleased
  split
  · exact connectFailed_settles h hv c e
  · exact awaitOptional_settles h hv (fun _ => rfl) rfl

theorem connectStart_settles (h : Runs t s) (hv : s.view.Settles api none)
    (options : BrowserVpnConnectOptions) :
    Owes (BrowserView.Settles api) (s.connectStart api t options) := by
  unfold connectStart
  split
  · exact h.settle hv _
  · split
    · exact h.settle hv _
    · have hruns : Runs t { s with connecting := true, onRequestHandler := none } :=
        h.frame rfl rfl
      exact awaitOptional_settles hruns (hv.frame rfl) (fun _ => rfl) rfl

theorem connectControlled_settles (h : Runs t s) (hv : s.view.Settles api none) (c : ConnectCall)
    (r : BrowserResult) : Owes (BrowserView.Settles api) (s.connectControlled api t c r) := by
  unfold connectControlled
  split
  · exact connectCatch_settles h hv c _
  · exact awaitOptional_settles h hv (fun _ => rfl) rfl

theorem connectLeaksKnown_settles (h : Runs t s) (hv : s.view.Settles api none) (c : ConnectCall)
    (native : Bool) (r : BrowserResult) :
    Owes (BrowserView.Settles api) (s.connectLeaksKnown api t native c r) := by
  unfold connectLeaksKnown
  split
  · exact connectCatch_settles h hv c _
  · dsimp only
    split
    · exact awaitOptional_settles h hv (fun _ => rfl) rfl
    · exact request_settles h hv rfl rfl native _

theorem connectAccessKnown_settles (h : Runs t s) (hv : s.view.Settles api none) (c : ConnectCall)
    (native : Bool) (r : BrowserResult) :
    Owes (BrowserView.Settles api) (s.connectAccessKnown api t native c r) := by
  unfold connectAccessKnown
  split
  · exact connectCatch_settles h hv c _
  · split
    · exact connectCatch_settles h hv c _
    · split
      · exact request_settles h hv rfl rfl native _
      · exact connectCatch_settles h hv c _

theorem connectAnswered_settles (h : Runs t s) (hv : s.view.Settles api none) (c : ConnectCall)
    (r : TaskResult) : Owes (BrowserView.Settles api) (s.connectAnswered t c r) := by
  unfold connectAnswered
  split
  · exact connectCatch_settles h hv c _
  · split
    · exact connectCatch_settles h hv c _
    · exact awaitCall_settles h hv (fun _ => rfl) (.inl rfl)
  · exact connectCatch_settles h hv c _

theorem connectPolicyHardened_settles (h : Runs t s) (hv : s.view.Settles api none)
    (c : ConnectCall) (g : Granted) (r : BrowserResult) :
    Owes (BrowserView.Settles api) (s.connectPolicyHardened api t c g r) := by
  unfold connectPolicyHardened
  split
  · exact connectCatch_settles h hv c _
  · exact awaitOptional_settles h hv (fun _ => rfl) rfl

theorem connectHardened_settles (h : Runs t s) (hv : s.view.Settles api none) (c : ConnectCall)
    (g : Granted) (r : BrowserResult) :
    Owes (BrowserView.Settles api) (s.connectHardened api t c g r) := by
  unfold connectHardened
  split
  · exact connectCatch_settles h hv c _
  · dsimp only
    split
    · exact connectCatch_settles h hv _ _
    · have hruns : Runs t
          { s with endpoints := some g.endpoints, auth := some g.auth, source := some g } :=
        h.frame rfl rfl
      exact applyProxy_settles hruns (hv.frame rfl) (fun _ => rfl) (fun _ => rfl) _ _

theorem connectApplied_settles (h : Runs t s) (hv : s.view.Settles api none) (c : ConnectCall)
    (g : Granted) (r : BrowserResult) :
    Owes (BrowserView.Settles api) (s.connectApplied api t c g r) := by
  unfold connectApplied
  split
  · exact connectCatch_settles h hv c _
  · exact verifyRouting_settles h hv (fun _ => rfl) _

theorem connectVerified_settles (h : Runs t s) (hv : s.view.Settles api none) (c : ConnectCall)
    (g : Granted) (r : BrowserResult) :
    Owes (BrowserView.Settles api) (s.connectVerified t c g r) := by
  unfold connectVerified
  split
  · exact connectCatch_settles h hv c _
  · split
    · exact connectCatch_settles h hv c _
    · dsimp only
      refine Runs.settle ?_ ?_ _
      · split <;> exact h.frame rfl rfl
      · split <;> exact hv.frame rfl

/-! ## `reconnect`, `disconnect` and `applySplit` -/

theorem reconnectRelease_settles (h : Runs t s) (hv : s.view.Settles api none) (native : Bool)
    (options : BrowserVpnConnectOptions) :
    Owes (BrowserView.Settles api) (s.reconnectRelease api t native options) := by
  have hruns : Runs t { s with releasing := true } := h.frame rfl rfl
  unfold reconnectRelease
  dsimp only
  split
  · exact request_settles hruns (hv.frame rfl) rfl rfl native _
  · exact connectStart_settles (releaseHost_runs hruns) (hv.frame rfl) options

theorem reconnectStart_settles (h : Runs t s) (hv : s.view.Settles api none) (native : Bool)
    (options : BrowserVpnConnectOptions) :
    Owes (BrowserView.Settles api) (s.reconnectStart api t native options) := by
  unfold reconnectStart
  split
  · exact connectStart_settles h hv options
  · split
    · exact h.settle hv _
    · split
      · exact awaitCall_settles h hv (fun _ => rfl) (.inr fun _ => rfl)
      · exact reconnectRelease_settles h hv native options

theorem clearBrowserSettings_settles (h : Runs t s) (hv : s.view.Settles api none) :
    Owes (BrowserView.Settles api) (s.clearBrowserSettings t) := by
  have hremoved : s.removeOnRequestHandler.view.ledger = s.view.ledger := by
    unfold removeOnRequestHandler
    split <;> rfl
  have hremove := removeOnRequestHandler_runs h
  exact awaitCall_settles hremove (hv.frame hremoved) (fun _ => rfl) (.inr fun _ => rfl)

theorem disconnectStart_settles (h : Runs t s) (hv : s.view.Settles api none) (native : Bool) :
    Owes (BrowserView.Settles api) (s.disconnectStart api t native) := by
  have hruns : Runs t { s with releasing := true } := h.frame rfl rfl
  unfold disconnectStart
  dsimp only
  split
  · exact request_settles hruns (hv.frame rfl) rfl rfl native _
  · exact clearBrowserSettings_settles hruns (hv.frame rfl)

theorem disconnectEnd_settles (h : Runs t s) (hv : s.view.Settles api none) (r : TaskResult) :
    Owes (BrowserView.Settles api) (s.disconnectEnd t r) :=
  (releaseHost_runs h).settle (hv.frame rfl) r

theorem applySplitStart_settles (h : Runs t s) (hv : s.view.Settles api none)
    (split : SplitTunnelConfig) :
    Owes (BrowserView.Settles api) (s.applySplitStart api t split) := by
  unfold applySplitStart
  split
  · have hruns : Runs t { s with onRequestHandler := none } := h.frame rfl rfl
    exact applyProxy_settles hruns (hv.frame rfl) (fun _ => rfl) (fun _ => rfl) _ _
  · exact h.settle hv _

theorem applySplitApplied_settles (h : Runs t s) (hv : s.view.Settles api none)
    (split : SplitTunnelConfig) (previous : Option OnRequestHandler) (r : BrowserResult) :
    Owes (BrowserView.Settles api) (s.applySplitApplied api t split previous r) := by
  unfold applySplitApplied
  split
  · exact h.settle hv _
  · refine verifyRouting_settles ?_ ?_ (fun _ => rfl) split
    · split
      · exact h.frame rfl rfl
      · exact h
    · split
      · exact hv.frame rfl
      · exact hv

/-! ## Runs -/

/-- A call goes on once the write it awaits has its answer. -/
theorem answered_of_resume (hs : s.resume api t native x = some s')
    (hawaited : x.awaitedWrite = some n) : s.browserResults n ≠ none := by
  cases x with
  | connect c a =>
    cases a with
    | applyProxy | restoreSettings =>
      cases hawaited
      obtain ⟨r, hr, -⟩ := Option.map_eq_some_iff.mp hs
      rw [hr]
      exact Option.some_ne_none r
    | _ => cases hawaited
  | reconnectLockdown | disconnectSettings | applySplitProxy =>
    cases hawaited
    obtain ⟨r, hr, -⟩ := Option.map_eq_some_iff.mp hs
    rw [hr]
    exact Option.some_ne_none r
  | _ => cases hawaited

theorem resumeConnect_settles (h : Runs t s) (hv : s.view.Settles api none)
    (hs : s.resumeConnect api t native c a = some s') : Owes (BrowserView.Settles api) s' := by
  cases a with
  | assertProxyControl n =>
    obtain ⟨r, -, rfl⟩ := Option.map_eq_some_iff.mp hs
    exact connectControlled_settles h hv c r
  | holdsLeakHardening n =>
    obtain ⟨r, -, rfl⟩ := Option.map_eq_some_iff.mp hs
    exact connectLeaksKnown_settles h hv c native r
  | isAllowedIncognitoAccess n =>
    obtain ⟨r, -, rfl⟩ := Option.map_eq_some_iff.mp hs
    exact connectAccessKnown_settles h hv c native r
  | request request =>
    obtain ⟨r, -, rfl⟩ := Option.map_eq_some_iff.mp hs
    exact connectAnswered_settles h hv c r
  | hardenPolicy g n =>
    obtain ⟨r, -, rfl⟩ := Option.map_eq_some_iff.mp hs
    exact connectPolicyHardened_settles h hv c g r
  | hardenPrediction g n =>
    obtain ⟨r, -, rfl⟩ := Option.map_eq_some_iff.mp hs
    exact connectHardened_settles h hv c g r
  | applyProxy g n =>
    obtain ⟨r, -, rfl⟩ := Option.map_eq_some_iff.mp hs
    exact connectApplied_settles h hv c g r
  | verifyRouting g n =>
    obtain ⟨r, -, rfl⟩ := Option.map_eq_some_iff.mp hs
    exact connectVerified_settles h hv c g r
  | restoreSettings e n =>
    obtain ⟨r, -, rfl⟩ := Option.map_eq_some_iff.mp hs
    exact connectRestored_settles h hv c e r
  | releasePolicy e n =>
    obtain ⟨r, -, rfl⟩ := Option.map_eq_some_iff.mp hs
    exact connectPolicyReleased_settles h hv c e r
  | releasePrediction e n =>
    obtain ⟨r, -, rfl⟩ := Option.map_eq_some_iff.mp hs
    exact connectFailed_settles h hv c e

theorem resume_settles (h : Runs t s) (hx : x.isOperation = true) (hv : s.view.Settles api none)
    (hs : s.resume api t native x = some s') : Owes (BrowserView.Settles api) s' := by
  cases x with
  | hello | requestHandshake | requestAnswer | asking => cases hx
  | connect c a => exact resumeConnect_settles h hv hs
  | reconnectLockdown options n =>
    obtain ⟨r, -, rfl⟩ := Option.map_eq_some_iff.mp hs
    unfold reconnectLocked
    split
    · exact h.settle hv _
    · exact reconnectRelease_settles h hv native options
  | reconnectRelease options r =>
    obtain ⟨r, -, rfl⟩ := Option.map_eq_some_iff.mp hs
    exact connectStart_settles (releaseHost_runs h) (hv.frame rfl) options
  | disconnectRelease r =>
    obtain ⟨r, -, rfl⟩ := Option.map_eq_some_iff.mp hs
    exact clearBrowserSettings_settles h hv
  | disconnectSettings n =>
    obtain ⟨r, -, rfl⟩ := Option.map_eq_some_iff.mp hs
    unfold disconnectSettingsCleared
    split
    · exact disconnectEnd_settles h hv _
    · exact awaitCall_settles h hv (fun _ => rfl) (.inl rfl)
  | disconnectPolicy n =>
    obtain ⟨r, -, rfl⟩ := Option.map_eq_some_iff.mp hs
    unfold disconnectPolicyCleared
    split
    · exact disconnectEnd_settles h hv _
    · exact awaitOptional_settles h hv (fun _ => rfl) rfl
  | disconnectPrediction n =>
    obtain ⟨r, -, rfl⟩ := Option.map_eq_some_iff.mp hs
    unfold disconnectPredictionCleared
    split
    · exact disconnectEnd_settles h hv _
    · have hruns : Runs t { s with proxied := false } := h.frame rfl rfl
      exact disconnectEnd_settles hruns (hv.frame rfl) _
  | applySplitProxy split previous n =>
    obtain ⟨r, -, rfl⟩ := Option.map_eq_some_iff.mp hs
    exact applySplitApplied_settles h hv split previous r
  | applySplitVerify n =>
    obtain ⟨r, -, rfl⟩ := Option.map_eq_some_iff.mp hs
    unfold applySplitVerified
    split <;> exact h.settle hv _

theorem die_settles {v : BrowserView} (hv : v.Settles api op) (lost : Bool) :
    (v.die api lost).Settles api op := by
  by_cases hlost : lost = true ∧ api.platform = .chromium
  · have hledger : (v.die api lost).ledger =
        v.ledger.make (.settingsSet (some (buildChromiumLockdownValue []))) := by
      simp [BrowserView.die, BrowserView.ledger, Ledger.make, hlost]
    refine ⟨hledger ▸ hv.sound.make _, fun hp => ?_⟩
    rw [hlost.2] at hp
    cases hp
  · refine hv.frame ?_
    simp [BrowserView.die, BrowserView.ledger, hlost]

theorem start_settles (h : Runs t s) (hv : s.view.Settles api none) (native : Bool)
    (operation : Operation) :
    Owes (BrowserView.Settles api) (s.start api t native operation) := by
  cases operation with
  | connect options => exact connectStart_settles h hv options
  | reconnect options => exact reconnectStart_settles h hv native options
  | disconnect => exact disconnectStart_settles h hv native
  | applySplit split => exact applySplitStart_settles h hv split

theorem timeout_settles (h : Runs t s) (hv : s.view.Settles api (some x))
    (hs : s.timeout api t x = some s') : Owes (BrowserView.Settles api) s' := by
  cases x with
  | reconnectRelease options r =>
    cases hs
    exact connectStart_settles (releaseHost_runs h) ((hv.done nofun).frame rfl) options
  | disconnectRelease r =>
    cases hs
    exact clearBrowserSettings_settles h (hv.done nofun)
  | _ => cases hs

theorem answer_settles {v : BrowserView} (hv : v.Settles api op) (hc : v.calls[n]? = some c)
    (r : BrowserResult) : (v.answer n c r).Settles api op :=
  ⟨hv.sound.answer hc, fun hp => (hv.waits hp).answer⟩

end State

end WarrenSdk.Extension
