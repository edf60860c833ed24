import WarrenSdk.Link.Client

/-!
# The operations of a client whose answers fit

Each part of an operation, run as a call that makes no request of its own (`Steady`), leaves the
client sound. So does every event, where what comes in fits what was posted (`Fair.step`).
-/

namespace WarrenSdk.Link
open Lib Extension

section
variable (api : ChromeLike)

def Fair (s₀ s : State) : Prop := ∃ asked, Sound api s₀ asked s

/-- The call `t` runs, and it is none of a request. -/
def Steady (s₀ : State) (t : Nat) (s : State) : Prop :=
  ∃ asked, Sound api s₀ asked s ∧ asked t = none ∧ t < s.nextTask

/-- A call that makes no request of its own may be suspended so. -/
def Plain (received : List (Nat × HostResponse)) (t : Nat) (x : Task) : Prop :=
  ∀ asked sent, asked t = none → Awaits api asked sent received t x

end

variable {api : ChromeLike} {asked : Nat → Option HostRequest} {s₀ s s' : State} {t : Nat}
  {received : List (Nat × HostResponse)} {body : HostRequest} {g : Granted} {x : Task}
  {native : Bool} {c : ConnectCall} {e : Failure} {r : BrowserResult} {task : Nat → Task}
  {split : SplitTunnelConfig} {options : BrowserVpnConnectOptions}

/-! ## Awaits -/

theorem Steady.frame (h : Steady api s₀ t s) (hv : soundView s' = soundView s) :
    Steady api s₀ t s' := by
  obtain ⟨asked, hs, ht, hlt⟩ := h
  have hn : s'.nextTask = s.nextTask := congrArg (fun v => v.1.1) hv
  exact ⟨asked, hs.frame hv, ht, hn ▸ hlt⟩

theorem Steady.fail (h : Steady api s₀ t s) (he : Blameless e) :
    Fair api s₀ (s.settle t (.error e)) := by
  obtain ⟨asked, hs, ht, hlt⟩ := h
  exact ⟨asked, hs.settle_error hlt he⟩

theorem Steady.settle {v : TaskValue} (h : Steady api s₀ t s) :
    Fair api s₀ (s.settle t (.ok v)) := by
  obtain ⟨asked, hs, ht, hlt⟩ := h
  refine ⟨asked, hs.settle hlt (fun b hb => ?_) fun e he => by cases he⟩
  cases ht.symm.trans hb

theorem Steady.suspend (h : Steady api s₀ t s) (hx : Plain api s.received t x) :
    Fair api s₀ (s.suspend t x) := by
  obtain ⟨asked, hs, ht, hlt⟩ := h
  exact ⟨asked, hs.suspend hlt (hx asked s.sent ht)⟩

theorem Steady.awaitCall {call : BrowserCall} (h : Steady api s₀ t s)
    (hx : ∀ n, Plain api s.received t (task n)) : Fair api s₀ (s.awaitCall t call task) := by
  have hcalls : Steady api s₀ t { s with calls := s.calls ++ [call] } := h.frame rfl
  exact hcalls.suspend (hx s.calls.length)

theorem Steady.awaitSettled (h : Steady api s₀ t s) (hr : ∀ e, r = .error e → Blameless e)
    (hx : ∀ n, Plain api s.received t (task n)) : Fair api s₀ (s.awaitSettled t r task) := by
  obtain ⟨asked, hs, ht, hlt⟩ := h
  have hcalls : Sound api s₀ asked { s with
      calls := s.calls ++ [.none]
      browserResults := Function.update s.browserResults s.calls.length (some r) } :=
    { hs with
      thrown := by
        intro n e hn
        dsimp only at hn
        rcases eq_or_ne n s.calls.length with rfl | hne
        · rw [Function.update_self] at hn
          exact hr e (Option.some.inj hn)
        · rw [Function.update_of_ne hne] at hn
          exact hs.thrown hn }
  exact ⟨asked, hcalls.suspend hlt (hx s.calls.length asked s.sent ht)⟩

theorem Steady.awaitOptional {has : Bool} {call : BrowserCall} (h : Steady api s₀ t s)
    (hx : ∀ n, Plain api s.received t (task n)) :
    Fair api s₀ (s.awaitOptional has t call task) := by
  unfold State.awaitOptional
  split
  · exact h.awaitCall hx
  · exact h.awaitSettled (fun e heq => by cases heq) hx

theorem Steady.closePort (h : Steady api s₀ t s) : Steady api s₀ t s.closePort := by
  obtain ⟨asked, hs, ht, hlt⟩ := h
  exact ⟨asked, hs.closePort, ht, hlt⟩

/-- The call makes a request, and waits for it. -/
theorem Steady.request (h : Steady api s₀ t s) (hne : body.type ≠ "hello")
    (hx : ∀ asked sent received, asked t = none → asked s.nextTask = some body →
      Awaits api asked sent received t x) :
    Fair api s₀ ((s.request api native body).suspend t x) := by
  obtain ⟨asked, hs, ht, hlt⟩ := h
  obtain ⟨asked', hagrees, hs', hn, hbody⟩ := hs.request native hne
  refine ⟨asked', hs'.suspend (Nat.lt_trans hlt hn) (hx asked' _ _ ?_ hbody)⟩
  exact (hagrees t hlt).trans ht

theorem plain_other (hrequest : x.isRequest = false) (hconnect : x.isConnect = false)
    (hasking : ∀ q r, x ≠ .asking q r) : Plain api received t x :=
  fun _ _ ht => .other ht hrequest hconnect hasking

/-- A `connect` that waits for no request, and goes on with no answer. -/
theorem plain_connect {a : ConnectAwait} (hr : ∀ r, a ≠ .request r) (hg : a.granted = none)
    (he : ∀ e, failure? a = some e → Blameless e) : Plain api received t (.connect c a) := by
  refine fun _ _ ht => .connect ht (fun r heq => absurd heq (hr r)) (fun g heq => ?_) he
  cases hg.symm.trans heq

/-- A `connect` that goes on with its answer. -/
theorem plain_granted {a : ConnectAwait} (ha : a.granted = some g) (hg : Good api received g) :
    Plain api received t (.connect c a) := by
  refine fun _ _ ht => .connect ht (fun r heq => ?_) (fun g' heq => ?_) fun e heq => ?_
  · subst heq
    cases ha
  · cases ha.symm.trans heq
    exact hg
  · cases a with
    | restoreSettings | releasePolicy | releasePrediction => cases ha
    | _ => cases heq

/-! ## Routing -/

theorem uncontrollable_blameless : Blameless State.uncontrollable := by
  simp [Blameless, State.uncontrollable, Failure.of]

theorem hostGone_blameless : Blameless State.hostGone := by
  simp [Blameless, State.hostGone, Failure.of]

theorem proxyApplied_blameless (hr : ∀ e, r = .error e → Blameless e)
    (h : State.proxyApplied api split r = .error e) : Blameless e := by
  unfold State.proxyApplied at h
  split at h
  · cases h
    exact hr _ rfl
  · split at h
    · cases h
      exact uncontrollable_blameless
    · cases h

theorem proxyControl_blameless {acceptable : List LevelOfControl}
    (hr : ∀ e, r = .error e → Blameless e) (h : State.proxyControl acceptable r = .error e) :
    Blameless e := by
  unfold State.proxyControl at h
  split at h
  · cases h
    exact hr _ rfl
  · split at h
    · split at h
      · cases h
      · cases h
        exact uncontrollable_blameless
    · cases h

theorem Steady.removeOnRequestHandler (h : Steady api s₀ t s) :
    Steady api s₀ t s.removeOnRequestHandler := by
  unfold State.removeOnRequestHandler
  split
  · exact h.frame rfl
  · exact h

/-- There is an HTTP listener to route through where the browser needs one. -/
theorem Steady.applyProxy {endpoints : ExtensionEndpoints} (h : Steady api s₀ t s)
    (hhttp : api.platform = .chromium → endpoints.http.isSome = true)
    (hx : ∀ n, Plain api s.received t (task n)) :
    Fair api s₀ (s.applyProxy api t endpoints split task) := by
  unfold State.applyProxy
  split
  · have hregistered : Steady api s₀ t (s.registerFirefoxOnRequest endpoints.socks5 split) :=
      h.frame rfl
    dsimp only
    split
    · exact hregistered.awaitSettled (fun e heq => by cases heq) hx
    · exact hregistered.awaitCall hx
  · next hchromium =>
    split
    · next hnone =>
      have hsome := hhttp hchromium
      rw [hnone] at hsome
      cases hsome
    · exact h.awaitCall hx

theorem Steady.verifyRouting (h : Steady api s₀ t s) (hx : ∀ n, Plain api s.received t (task n)) :
    Fair api s₀ (s.verifyRouting api t split task) := by
  unfold State.verifyRouting
  split
  · exact h.awaitSettled (fun e heq => by cases heq) hx
  · exact h.awaitOptional hx

/-! ## `connect` -/

/-- The client lets go of the listener it held. -/
theorem Steady.forget (h : Steady api s₀ t s) :
    Steady api s₀ t { s with endpoints := none, auth := none, source := none } := by
  obtain ⟨asked, hs, ht, hlt⟩ := h
  exact ⟨asked, { hs with
    source := fun hg => by cases hg
    http := fun _ {_} he => by cases he }, ht, hlt⟩

theorem Steady.connectFailed (h : Steady api s₀ t s) (he : Blameless e) :
    Fair api s₀ (s.connectFailed t c e) := by
  have hheld : Steady api s₀ t { s with onRequestHandler := c.heldHandler } := h.frame rfl
  let closed := State.closePort { s with onRequestHandler := c.heldHandler }
  have hended : Steady api s₀ t { closed with connecting := false } := hheld.closePort.frame rfl
  exact hended.fail he

theorem Steady.connectCatch (h : Steady api s₀ t s) (he : Blameless e) :
    Fair api s₀ (s.connectCatch t c e) := by
  unfold State.connectCatch
  dsimp only
  split
  · refine h.forget.removeOnRequestHandler.awaitCall fun n => ?_
    exact plain_connect (fun r => by simp) rfl fun e' heq => by cases heq; exact he
  · exact h.forget.connectFailed he

theorem Steady.connectRestored (h : Steady api s₀ t s) (he : Blameless e) :
    Fair api s₀ (s.connectRestored t c e r) := by
  unfold State.connectRestored
  split
  · exact h.connectFailed he
  · split
    · refine h.awaitCall fun n => ?_
      exact plain_connect (fun r => by simp) rfl fun e' heq => by cases heq; exact he
    · exact h.connectFailed he

theorem Steady.connectPolicyReleased (h : Steady api s₀ t s) (he : Blameless e) :
    Fair api s₀ (s.connectPolicyReleased api t c e r) := by
  unfold State.connectPolicyReleased
  split
  · exact h.connectFailed he
  · refine h.awaitOptional fun n => ?_
    exact plain_connect (fun r => by simp) rfl fun e' heq => by cases heq; exact he

theorem Steady.connectStart (h : Steady api s₀ t s) :
    Fair api s₀ (s.connectStart api t options) := by
  unfold State.connectStart
  split
  · exact h.fail (by simp [Blameless, Failure.of])
  · split
    · exact h.fail (by simp [Blameless, Failure.of])
    · have hbegun : Steady api s₀ t { s with connecting := true, onRequestHandler := none } :=
        h.frame rfl
      refine hbegun.awaitOptional fun n => ?_
      exact plain_connect (fun r => by simp) rfl fun e' heq => by cases heq

theorem Steady.connectControlled (h : Steady api s₀ t s) (hr : ∀ e, r = .error e → Blameless e) :
    Fair api s₀ (s.connectControlled api t c r) := by
  unfold State.connectControlled
  split
  · next he => exact h.connectCatch (proxyControl_blameless hr he)
  · refine h.awaitOptional fun n => ?_
    exact plain_connect (fun r => by simp) rfl fun e' heq => by cases heq

theorem Steady.connectRequest (h : Steady api s₀ t s) :
    Fair api s₀ (s.connectRequest api t native c) := by
  refine h.request (by simp [HostRequest.type]) fun asked sent received ht hbody => ?_
  refine .connect ht (fun r heq => ?_) (fun g heq => by cases heq) fun e heq => by cases heq
  cases heq
  exact hbody

theorem Steady.connectLeaksKnown (h : Steady api s₀ t s) (hr : ∀ e, r = .error e → Blameless e) :
    Fair api s₀ (s.connectLeaksKnown api t native c r) := by
  unfold State.connectLeaksKnown
  split
  · exact h.connectCatch (hr _ rfl)
  · dsimp only
    split
    · refine h.awaitOptional fun n => ?_
      exact plain_connect (fun r => by simp) rfl fun e' heq => by cases heq
    · exact h.connectRequest

theorem Steady.connectAccessKnown (h : Steady api s₀ t s) (hr : ∀ e, r = .error e → Blameless e) :
    Fair api s₀ (s.connectAccessKnown api t native c r) := by
  unfold State.connectAccessKnown
  split
  · exact h.connectCatch (hr _ rfl)
  · split
    · exact h.connectCatch (by simp [Blameless, Failure.of])
    · split
      · exact h.connectRequest
      · exact h.connectCatch (by simp [Blameless, Failure.of])

/-- An answer to a `connect` carries credentials, and a listener that the browser can use. -/
theorem Steady.connectAnswered {r : TaskResult} (h : Steady api s₀ t s)
    (hr : Resolves s.received (connectBody api c) r) : Fair api s₀ (s.connectAnswered t c r) := by
  cases r with
  | error e => exact h.connectCatch hr
  | ok v =>
    obtain ⟨port, b, rfl, hfits, id, hmem⟩ :=
      hr.answer (by simp [connectBody, HostRequest.type])
    unfold connectBody at hfits
    cases hfits with
    | @connect _ _ _ _ _ _ endpoints rawAuth auth hauth hhttp exit =>
      have hgood : Good api s.received { port, endpoints, auth, exit } :=
        { heard := ⟨id, rawAuth, hmem, hauth⟩
          http := fun hchromium => hhttp (if_pos hchromium) }
      unfold State.connectAnswered
      dsimp only
      rw [hauth]
      exact h.awaitCall fun n => plain_granted rfl hgood

theorem Steady.connectPolicyHardened (h : Steady api s₀ t s) (hg : Good api s.received g)
    (hr : ∀ e, r = .error e → Blameless e) : Fair api s₀ (s.connectPolicyHardened api t c g r) := by
  unfold State.connectPolicyHardened
  split
  · exact h.connectCatch (hr _ rfl)
  · exact h.awaitOptional fun n => plain_granted rfl hg

theorem Steady.connectHardened (h : Steady api s₀ t s) (hg : Good api s.received g)
    (hr : ∀ e, r = .error e → Blameless e) : Fair api s₀ (s.connectHardened api t c g r) := by
  unfold State.connectHardened
  split
  · exact h.connectCatch (hr _ rfl)
  · dsimp only
    split
    · exact h.connectCatch hostGone_blameless
    · have htaken : Steady api s₀ t { s with
          endpoints := some g.endpoints, auth := some g.auth, source := some g } := by
        obtain ⟨asked, hs, ht, hlt⟩ := h
        refine ⟨asked, { hs with source := fun heq => ?_, http := fun hchromium {_} heq => ?_ },
          ht, hlt⟩
        · cases heq
          exact hg
        · cases heq
          exact hg.http hchromium
      exact htaken.applyProxy hg.http fun n => plain_granted rfl hg

theorem Steady.connectApplied (h : Steady api s₀ t s) (hg : Good api s.received g)
    (hr : ∀ e, r = .error e → Blameless e) : Fair api s₀ (s.connectApplied api t c g r) := by
  unfold State.connectApplied
  split
  · next he => exact h.connectCatch (proxyApplied_blameless hr he)
  · exact h.verifyRouting fun n => plain_granted rfl hg

theorem Steady.connectVerified (h : Steady api s₀ t s) (hr : ∀ e, r = .error e → Blameless e) :
    Fair api s₀ (s.connectVerified t c g r) := by
  unfold State.connectVerified
  split
  · next he => exact h.connectCatch (proxyControl_blameless hr he)
  · split
    · exact h.connectCatch hostGone_blameless
    · dsimp only
      cases c.heldHandler with
      | none => exact Steady.settle (h.frame rfl)
      | some handler => exact Steady.settle (h.frame rfl)

/-- A `connect` goes on. -/
theorem Sound.resumeConnect {a : ConnectAwait} (h : Sound api s₀ asked s) (hlt : t < s.nextTask)
    (ha : Awaits api asked s.sent s.received t (.connect c a))
    (hs : s.resumeConnect api t native c a = some s') : Fair api s₀ s' := by
  cases ha with
  | other _ _ hconnect => cases hconnect
  | connect ht hreq hg he =>
    have hsteady : Steady api s₀ t s := ⟨asked, h, ht, hlt⟩
    cases a with
    | assertProxyControl n =>
      obtain ⟨r, hr, rfl⟩ := Option.map_eq_some_iff.mp hs
      exact hsteady.connectControlled (h.answer_blameless hr)
    | holdsLeakHardening n =>
      obtain ⟨r, hr, rfl⟩ := Option.map_eq_some_iff.mp hs
      exact hsteady.connectLeaksKnown (h.answer_blameless hr)
    | isAllowedIncognitoAccess n =>
      obtain ⟨r, hr, rfl⟩ := Option.map_eq_some_iff.mp hs
      exact hsteady.connectAccessKnown (h.answer_blameless hr)
    | request u =>
      obtain ⟨r, hr, rfl⟩ := Option.map_eq_some_iff.mp hs
      exact hsteady.connectAnswered (h.resolved (hreq u rfl) hr)
    | hardenPolicy g n =>
      obtain ⟨r, hr, rfl⟩ := Option.map_eq_some_iff.mp hs
      exact hsteady.connectPolicyHardened (hg g rfl) (h.answer_blameless hr)
    | hardenPrediction g n =>
      obtain ⟨r, hr, rfl⟩ := Option.map_eq_some_iff.mp hs
      exact hsteady.connectHardened (hg g rfl) (h.answer_blameless hr)
    | applyProxy g n =>
      obtain ⟨r, hr, rfl⟩ := Option.map_eq_some_iff.mp hs
      exact hsteady.connectApplied (hg g rfl) (h.answer_blameless hr)
    | verifyRouting g n =>
      obtain ⟨r, hr, rfl⟩ := Option.map_eq_some_iff.mp hs
      exact hsteady.connectVerified (h.answer_blameless hr)
    | restoreSettings e n =>
      obtain ⟨r, hr, rfl⟩ := Option.map_eq_some_iff.mp hs
      exact hsteady.connectRestored (he e rfl)
    | releasePolicy e n =>
      obtain ⟨r, hr, rfl⟩ := Option.map_eq_some_iff.mp hs
      exact hsteady.connectPolicyReleased (he e rfl)
    | releasePrediction e n =>
      obtain ⟨r, hr, rfl⟩ := Option.map_eq_some_iff.mp hs
      exact hsteady.connectFailed (he e rfl)

/-! ## `reconnect`, `disconnect` and `applySplit` -/

theorem Steady.releaseHost (h : Steady api s₀ t s) : Steady api s₀ t s.releaseHost := by
  have hforgot : Steady api s₀ t { s with
      tunnelUp := false, endpoints := none, auth := none, exit := none, source := none } :=
    h.forget.frame rfl
  exact hforgot.closePort.frame rfl

theorem Steady.reconnectReleased (h : Steady api s₀ t s) :
    Fair api s₀ (s.reconnectReleased api t options) := h.releaseHost.connectStart

theorem Steady.reconnectRelease (h : Steady api s₀ t s) :
    Fair api s₀ (s.reconnectRelease api t native options) := by
  have hreleasing : Steady api s₀ t { s with releasing := true } := h.frame rfl
  unfold State.reconnectRelease
  dsimp only
  split
  · refine hreleasing.request (by simp [HostRequest.type]) fun asked sent received ht _ => ?_
    exact .other ht rfl rfl fun q r => by simp
  · exact hreleasing.reconnectReleased

theorem Steady.reconnectStart (h : Steady api s₀ t s) :
    Fair api s₀ (s.reconnectStart api t native options) := by
  unfold State.reconnectStart
  split
  · exact h.connectStart
  · split
    · exact h.fail (by simp [Blameless, Failure.of])
    · split
      · exact h.awaitCall fun n => plain_other rfl rfl fun q r => by simp
      · exact h.reconnectRelease

theorem Steady.reconnectLocked (h : Steady api s₀ t s) (hr : ∀ e, r = .error e → Blameless e) :
    Fair api s₀ (s.reconnectLocked api t native options r) := by
  unfold State.reconnectLocked
  split
  · exact h.fail (hr _ rfl)
  · exact h.reconnectRelease

theorem Steady.clearBrowserSettings (h : Steady api s₀ t s) :
    Fair api s₀ (s.clearBrowserSettings t) :=
  h.removeOnRequestHandler.awaitCall fun n => plain_other rfl rfl fun q r => by simp

theorem Steady.disconnectStart (h : Steady api s₀ t s) :
    Fair api s₀ (s.disconnectStart api t native) := by
  have hreleasing : Steady api s₀ t { s with releasing := true } := h.frame rfl
  unfold State.disconnectStart
  dsimp only
  split
  · refine hreleasing.request (by simp [HostRequest.type]) fun asked sent received ht _ => ?_
    exact .other ht rfl rfl fun q r => by simp
  · exact hreleasing.clearBrowserSettings

theorem Steady.disconnectSettingsCleared (h : Steady api s₀ t s)
    (hr : ∀ e, r = .error e → Blameless e) : Fair api s₀ (s.disconnectSettingsCleared t r) := by
  unfold State.disconnectSettingsCleared
  split
  · exact h.releaseHost.fail (hr _ rfl)
  · exact h.awaitCall fun n => plain_other rfl rfl fun q r => by simp

theorem Steady.disconnectPolicyCleared (h : Steady api s₀ t s)
    (hr : ∀ e, r = .error e → Blameless e) :
    Fair api s₀ (s.disconnectPolicyCleared api t r) := by
  unfold State.disconnectPolicyCleared
  split
  · exact h.releaseHost.fail (hr _ rfl)
  · exact h.awaitOptional fun n => plain_other rfl rfl fun q r => by simp

theorem Steady.disconnectPredictionCleared (h : Steady api s₀ t s)
    (hr : ∀ e, r = .error e → Blameless e) : Fair api s₀ (s.disconnectPredictionCleared t r) := by
  unfold State.disconnectPredictionCleared
  split
  · exact h.releaseHost.fail (hr _ rfl)
  · have hcleared : Steady api s₀ t { s with proxied := false } := h.frame rfl
    exact hcleared.releaseHost.settle

/-- What is up is routed anew through the listener it has. -/
theorem Steady.applySplitStart (h : Steady api s₀ t s) :
    Fair api s₀ (s.applySplitStart api t split) := by
  unfold State.applySplitStart
  split
  · next endpoints hup hendpoints =>
    have hhttp : api.platform = .chromium → endpoints.http.isSome = true := by
      obtain ⟨asked, hs, -⟩ := h
      exact fun hchromium => hs.http hchromium hendpoints
    have hheld : Steady api s₀ t { s with onRequestHandler := none } := h.frame rfl
    exact hheld.applyProxy hhttp fun n => plain_other rfl rfl fun q r => by simp
  · exact h.fail (by simp [Blameless, Failure.of])

theorem Steady.applySplitApplied {previous : Option OnRequestHandler} (h : Steady api s₀ t s)
    (hr : ∀ e, r = .error e → Blameless e) :
    Fair api s₀ (s.applySplitApplied api t split previous r) := by
  unfold State.applySplitApplied
  split
  · next he => exact h.fail (proxyApplied_blameless hr he)
  · have hremoved (u : State) (hu : soundView u = soundView s) :
        Fair api s₀ (u.verifyRouting api t split .applySplitVerify) :=
      (h.frame hu).verifyRouting fun n => plain_other rfl rfl fun q r => by simp
    dsimp only
    cases previous with
    | none => exact hremoved s rfl
    | some handler => exact hremoved _ rfl

theorem Steady.applySplitVerified (h : Steady api s₀ t s) (hr : ∀ e, r = .error e → Blameless e) :
    Fair api s₀ (s.applySplitVerified t r) := by
  unfold State.applySplitVerified
  split
  · next he => exact h.fail (proxyControl_blameless hr he)
  · exact h.settle

/-! ## Requests and questions -/

/-- A hello is answered by one of the same version. -/
theorem Sound.helloAnswered {r : Except Failure (Nat × ResponseBody)} (h : Sound api s₀ asked s)
    (hlt : t < s.nextTask) (ht : asked t = some (helloBody api))
    (hr : Settles s.received (helloBody api) r) : Sound api s₀ asked (s.helloAnswered t r) := by
  unfold State.helloAnswered
  cases r with
  | ok v =>
    obtain ⟨p, b⟩ := v
    obtain ⟨hfits, -⟩ := hr
    unfold helloBody at hfits
    cases hfits with
    | hello protocol channel datapath =>
      dsimp only
      rw [if_pos rfl]
      refine h.settle hlt (fun b hb => ?_) fun e he => by cases he
      cases ht.symm.trans hb
      exact ⟨rfl, datapath, rfl⟩
  | error e =>
    cases e with
    | extension e =>
      obtain ⟨hprotocol, hhost⟩ := hr
      dsimp only
      rw [if_neg (hhost rfl)]
      exact h.settle_error hlt hprotocol
    | thrown => exact h.settle_error hlt trivial

/-- A request is posted once its port has shaken hands. -/
theorem Sound.requestHandshakeDone {r : TaskResult} (h : Sound api s₀ asked s)
    (hlt : t < s.nextTask) (ht : asked t = some body) (hne : body.type ≠ "hello")
    (hr : ∀ e, r = .error e → Blameless e) :
    Sound api s₀ asked (s.requestHandshakeDone t native body r) := by
  unfold State.requestHandshakeDone
  split
  · exact h.settle_error hlt (hr _ rfl)
  · split
    · next hs => exact h.settle_error hlt (send_blameless hs)
    · next hs =>
      obtain ⟨hsent, hn, p, hmem⟩ := h.send hs fun v channel heq => by
        subst heq
        exact absurd rfl hne
      exact hsent.suspend (hn ▸ hlt) (.requestAnswer ht hmem)

theorem Sound.requestAnswered {p m : Nat} {r : Except Failure (Nat × ResponseBody)}
    (h : Sound api s₀ asked s) (hlt : t < s.nextTask) (ht : asked t = some body)
    (hm : (p, m, body) ∈ s.sent) (hr : s.answers m = some r) :
    Sound api s₀ asked (s.settle t (r.map fun (port, body) => .answer port body)) := by
  obtain ⟨p', body', hm', hsettles⟩ := h.answers hr
  obtain ⟨-, rfl⟩ := h.one hm hm'
  have herror {e : Failure} (he : Settles s.received body (.error e)) : Blameless e := by
    cases e with
    | extension e => exact he.1
    | thrown => trivial
  cases r with
  | ok v =>
    refine h.settle hlt (fun b hb => ?_) fun e he => by cases he
    cases ht.symm.trans hb
    exact hsettles
  | error e => exact h.settle_error hlt (herror hsettles)

/-- A question that is answered is answered by what it asks for. -/
theorem result_blameless {q : Question} {r : TaskResult}
    (hr : Resolves received (q.body.getD (helloBody api)) r) (he : q.result r = .error e) :
    Blameless e := by
  cases r with
  | error e' =>
    cases he
    exact hr
  | ok v =>
    cases q with
    | datapath => cases he
    | status | listExits | account =>
      obtain ⟨p, b, rfl, hfits, -⟩ := hr.answer (by simp [Question.body, HostRequest.type])
      cases hfits
      cases he

theorem Steady.finishAsking {q : Question} {r : TaskResult} (h : Steady api s₀ t s)
    (he : ∀ e, q.result r = .error e → Blameless e) : Fair api s₀ (s.finishAsking t q r) := by
  have hsettle (u : State) (hu : Steady api s₀ t u) : Fair api s₀ (u.settle t (q.result r)) := by
    cases hresult : q.result r with
    | error e => exact hu.fail (he e hresult)
    | ok v => exact hu.settle
  have hcounted : Steady api s₀ t { s with questions := s.questions - 1 } := h.frame rfl
  unfold State.finishAsking
  dsimp only
  split
  · exact hsettle _ hcounted.closePort
  · exact hsettle _ hcounted

theorem Steady.askStart {q : Question} (h : Steady api s₀ t s) :
    Fair api s₀ (s.askStart api t native q) := by
  have hcounted : Steady api s₀ t { s with questions := s.questions + 1 } := h.frame rfl
  unfold State.askStart
  dsimp only
  split
  · next hbody =>
    split
    · next ho =>
      refine hcounted.finishAsking fun e he => ?_
      cases he
      exact openPort_blameless ho
    · next u ho =>
      obtain ⟨asked, hs, ht, hlt⟩ := hcounted
      obtain ⟨hu, hn, -⟩ := hs.openPort ho
      have hltu : t < u.nextTask := hn ▸ hlt
      obtain ⟨asked', hagrees, hshaken, hle, hhello⟩ := hu.shakeHands native
      refine ⟨asked', hshaken.suspend (Nat.lt_of_lt_of_le hltu hle) (.asking ?_ ?_)⟩
      · exact (hagrees t hltu).trans ht
      · rw [hbody]
        exact hhello
  · next b hbody =>
    refine hcounted.request ?_ fun asked sent received ht hr => .asking ht ?_
    · cases q <;> cases hbody <;> simp [HostRequest.type]
    · rw [hbody]
      exact hr

/-! ## Events -/

/-- A call goes on. -/
theorem Sound.resume (h : Sound api s₀ asked s) (hlt : t < s.nextTask)
    (ha : Awaits api asked s.sent s.received t x) (hs : s.resume api t native x = some s') :
    Fair api s₀ s' := by
  cases ha with
  | hello ht hm =>
    obtain ⟨r, hr, rfl⟩ := Option.map_eq_some_iff.mp hs
    obtain ⟨p, b, hb, hsettles⟩ := h.answers hr
    obtain ⟨-, rfl⟩ := h.one hm hb
    exact ⟨asked, h.helloAnswered hlt ht hsettles⟩
  | requestHandshake ht hne =>
    obtain ⟨r, hr, rfl⟩ := Option.map_eq_some_iff.mp hs
    exact ⟨asked, h.requestHandshakeDone hlt ht hne (h.resolved_blameless hr)⟩
  | requestAnswer ht hm =>
    obtain ⟨r, hr, rfl⟩ := Option.map_eq_some_iff.mp hs
    exact ⟨asked, h.requestAnswered hlt ht hm hr⟩
  | asking ht hq =>
    obtain ⟨r, hr, rfl⟩ := Option.map_eq_some_iff.mp hs
    have hsteady : Steady api s₀ t s := ⟨asked, h, ht, hlt⟩
    exact hsteady.finishAsking fun e he => result_blameless (h.resolved hq hr) he
  | connect ht hreq hg he => exact h.resumeConnect hlt (.connect ht hreq hg he) hs
  | other ht hrequest hconnect hasking =>
    have hsteady : Steady api s₀ t s := ⟨asked, h, ht, hlt⟩
    cases x with
    | hello | requestHandshake | requestAnswer => cases hrequest
    | asking q r => exact absurd rfl (hasking q r)
    | connect => cases hconnect
    | reconnectLockdown options n =>
      obtain ⟨r, hr, rfl⟩ := Option.map_eq_some_iff.mp hs
      exact hsteady.reconnectLocked (h.answer_blameless hr)
    | reconnectRelease options n =>
      obtain ⟨r, hr, rfl⟩ := Option.map_eq_some_iff.mp hs
      exact hsteady.reconnectReleased
    | disconnectRelease n =>
      obtain ⟨r, hr, rfl⟩ := Option.map_eq_some_iff.mp hs
      exact hsteady.clearBrowserSettings
    | disconnectSettings n =>
      obtain ⟨r, hr, rfl⟩ := Option.map_eq_some_iff.mp hs
      exact hsteady.disconnectSettingsCleared (h.answer_blameless hr)
    | disconnectPolicy n =>
      obtain ⟨r, hr, rfl⟩ := Option.map_eq_some_iff.mp hs
      exact hsteady.disconnectPolicyCleared (h.answer_blameless hr)
    | disconnectPrediction n =>
      obtain ⟨r, hr, rfl⟩ := Option.map_eq_some_iff.mp hs
      exact hsteady.disconnectPredictionCleared (h.answer_blameless hr)
    | applySplitProxy split previous n =>
      obtain ⟨r, hr, rfl⟩ := Option.map_eq_some_iff.mp hs
      exact hsteady.applySplitApplied (h.answer_blameless hr)
    | applySplitVerify n =>
      obtain ⟨r, hr, rfl⟩ := Option.map_eq_some_iff.mp hs
      exact hsteady.applySplitVerified (h.answer_blameless hr)

/-- A release stops waiting for its host. -/
theorem Sound.timeout (h : Sound api s₀ asked s) (hlt : t < s.nextTask)
    (ha : Awaits api asked s.sent s.received t x) (hs : s.timeout api t x = some s') :
    Fair api s₀ s' := by
  cases ha with
  | other ht hrequest hconnect hasking =>
    have hsteady : Steady api s₀ t s := ⟨asked, h, ht, hlt⟩
    cases x with
    | reconnectRelease options n =>
      cases hs
      exact hsteady.reconnectReleased
    | disconnectRelease n =>
      cases hs
      exact hsteady.clearBrowserSettings
    | _ => cases hs
  | _ => cases hs

theorem Sound.portDied (h : Sound api s₀ asked s) (p : Nat) :
    Sound api s₀ asked (s.portDied api p) := by
  have hdead : Sound api s₀ asked (State.rejectPending "native messaging host disconnected" { s with
      live := Function.update s.live p false, portDead := true, tunnelUp := false, auth := none
      exit := none }) :=
    (h.rejectPending _).move rfl fun _ hm => (List.not_mem_nil hm).elim
  unfold State.portDied
  dsimp only
  split
  · unfold State.blockReleasedListener
    split
    · exact hdead.frame rfl
    · exact hdead
  · exact hdead

theorem Sound.browserAnswered {n : Nat} {call : BrowserCall} (h : Sound api s₀ asked s)
    (hr : ∀ e, r = .error e → Blameless e) : Sound api s₀ asked
      { s.takeEffect call r with
        browserResults := Function.update s.browserResults n (some r) } := by
  have heffect : Sound api s₀ asked (s.takeEffect call r) := by
    rw [State.takeEffect_eq]
    exact h.frame rfl
  exact {
    heffect with
    thrown := by
      intro m e hm
      dsimp only at hm
      rcases eq_or_ne m n with rfl | hne
      · rw [Function.update_self] at hm
        exact hr e (Option.some.inj hm)
      · rw [Function.update_of_ne hne] at hm
        exact h.thrown hm }

/-- An event that is no message leaves the client sound. -/
theorem Fair.step {e : Extension.Event} (h : Fair api s₀ s) (hmessage : ∀ p m, e ≠ .message p m)
    (hbrowser : ∀ n f, e = .browserAnswer n (.error f) → Blameless f)
    (hs : Extension.step api s e = some s') : Fair api s s' := by
  obtain ⟨asked, hbase⟩ := h
  have hsound := hbase.rebase
  have hsteady : Steady api s s.nextTask { s with nextTask := s.nextTask + 1 } :=
    ⟨asked, hsound.number, hsound.asked_next, Nat.lt_succ_self _⟩
  have hwoken {t : Nat} {x : Task} (ht : s.tasks t = some x) :
      t < s.nextTask ∧ Awaits api asked s.sent s.received t x := by
    refine ⟨Nat.lt_of_not_le fun hle => ?_, hsound.awaits ht⟩
    cases (hsound.fresh hle).1.symm.trans ht
  cases e with
  | connect options =>
    cases hs
    exact hsteady.connectStart
  | reconnect options native =>
    cases hs
    exact hsteady.reconnectStart
  | disconnect native =>
    cases hs
    exact hsteady.disconnectStart
  | applySplit split =>
    cases hs
    exact hsteady.applySplitStart
  | ask question native =>
    cases hs
    exact hsteady.askStart
  | resume t native =>
    obtain ⟨x, ht, hresume⟩ := Option.bind_eq_some_iff.mp hs
    obtain ⟨hlt, hawaits⟩ := hwoken ht
    exact hsound.wake.resume hlt hawaits hresume
  | timeout t =>
    obtain ⟨x, ht, htimeout⟩ := Option.bind_eq_some_iff.mp hs
    obtain ⟨hlt, hawaits⟩ := hwoken ht
    exact hsound.wake.timeout hlt hawaits htimeout
  | browserAnswer n r =>
    unfold Extension.step at hs
    dsimp only at hs
    split at hs
    · split at hs
      · cases hs
        exact ⟨asked, hsound.browserAnswered fun f heq => hbrowser n f (heq ▸ rfl)⟩
      · cases hs
    · cases hs
  | message p m => exact absurd rfl (hmessage p m)
  | death p =>
    unfold Extension.step at hs
    dsimp only at hs
    split at hs
    · cases hs
      exact ⟨asked, hsound.portDied p⟩
    · cases hs

/-- How a message fits what was posted. -/
def Fitting (s : State) (p : Nat) : HostResponse → Prop
  | .ok id b => ∃ body, (p, id, body) ∈ s.sent ∧ Fits body b
  | .error id _ _ => ∃ body, (p, id, body) ∈ s.sent ∧ body.type ≠ "hello"

/-- A message that fits leaves the client sound. -/
theorem Fair.message {p : Nat} {response : HostResponse} (h : Fair api s₀ s)
    (hfit : Fitting s p response) : Fair api (s.onMessage p (some (.response response)))
      (s.onMessage p (some (.response response))) := by
  obtain ⟨asked, hsound⟩ := h
  have hmore : s.received ⊆ s.received ++ [(p, response)] := List.subset_append_left ..
  have hheard : Sound api { s with received := s.received ++ [(p, response)] } asked
      { s with received := s.received ++ [(p, response)] } :=
    { hsound with
      answers := fun hm => by
        obtain ⟨p', b, hb, hr⟩ := hsound.answers hm
        exact ⟨p', b, hb, hr.mono hmore⟩
      awaits := fun ht => (hsound.awaits ht).mono id id (List.Subset.refl _) hmore
      resolved := fun ht hr => (hsound.resolved ht hr).mono hmore
      source := fun hg => (hsound.source hg).mono hmore
      grown := List.Subset.refl _
      heard := rfl
      kept := id }
  have hself : (p, response) ∈ s.received ++ [(p, response)] :=
    List.mem_append_right _ (List.mem_singleton_self _)
  unfold State.onMessage
  dsimp only
  split
  · refine ⟨asked, { hheard with
      posted := fun hm => hheard.posted (List.mem_of_mem_filter hm)
      settled := fun {p' m b} hb hm => ?_
      answers := fun {m r} hm => ?_
      grown := List.Subset.refl _
      heard := rfl
      kept := id }⟩
    · dsimp only at hm ⊢
      rcases eq_or_ne m response.id with rfl | hne
      · rw [Function.update_self]
        exact Option.some_ne_none _
      · rw [Function.update_of_ne hne]
        refine hheard.settled hb fun hpending => hm ?_
        exact List.mem_filter.mpr ⟨hpending, decide_eq_true hne⟩
    · dsimp only at hm
      rcases eq_or_ne m response.id with rfl | hne
      · rw [Function.update_self] at hm
        cases hm
        cases response with
        | ok id b =>
          obtain ⟨body, hbody, hfits⟩ := hfit
          exact ⟨p, body, hbody, hfits, id, hself⟩
        | error id code message =>
          obtain ⟨body, hbody, hhello⟩ := hfit
          refine ⟨p, body, hbody, ?_, fun h => absurd h hhello⟩
          simp
      · rw [Function.update_of_ne hne] at hm
        exact hheard.answers hm
  · exact ⟨asked, hheard⟩

theorem fair_initial (api : ChromeLike) (settings : Option ProxyValue) (policy : Option String)
    (predictionSetting : Option Bool) :
    Fair api (.initial settings policy predictionSetting)
      (.initial settings policy predictionSetting) := by
  refine ⟨fun _ => none, ?_⟩
  constructor <;> simp [State.initial]

end WarrenSdk.Link
