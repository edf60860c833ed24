import WarrenSdk.Extension.Client.FailClosed
import WarrenSdk.Extension.Client.Sequence

/-!
# The handlers that are registered

Between operations the browser should know the handler that the client tracks and no other. While an
operation is in flight there may be two, the one it registered and the one it took aside: `Tracks`
says which. The only way to lose one is an `applySplit` whose new settings do not take, which leaves
the handler it took aside registered for good.
-/

namespace WarrenSdk.Extension
open Lib

/-- Handlers have ids of their own, below the next. -/
structure BrowserView.Fresh (v : BrowserView) : Prop where
  lt : ∀ {h}, h ∈ v.handlers → h.id < v.nextHandler
  nodup : (v.handlers.map (·.id)).Nodup

/-- The registered handlers are `held` and the one that is tracked. -/
def BrowserView.Beside (held : Option OnRequestHandler) (v : BrowserView) : Prop :=
  v.handlers = held.toList ++ v.onRequestHandler.toList

/-- The handlers an operation in flight has registered. -/
def BrowserView.Tracks (v : BrowserView) : Option Task → Prop
  | some (.connect c (.applyProxy _ _)) | some (.connect c (.verifyRouting _ _)) =>
    v.Beside c.heldHandler ∧ c.hardened = true
  | some (.connect c (.restoreSettings _ _)) | some (.connect c (.releasePolicy _ _))
  | some (.connect c (.releasePrediction _ _)) =>
    v.Beside c.heldHandler ∧ v.onRequestHandler = none
  | some (.connect c _) =>
    v.Beside c.heldHandler ∧ v.onRequestHandler = none ∧ c.hardened = false
  | some (.disconnectSettings _) | some (.disconnectPolicy _) | some (.disconnectPrediction _) =>
    v.Beside none ∧ v.onRequestHandler = none
  | some (.applySplitProxy _ previous _) => v.Beside previous
  | _ => v.Beside none

/-- What a handler owes to the operation in flight. -/
def BrowserView.Tracked (op : Option Task) (v : BrowserView) : Prop := v.Fresh ∧ v.Tracks op

/-- What a `disconnect` that was called last leaves behind. -/
def BrowserView.Disconnected (v : BrowserView) : Option Task → Prop
  | none => v.handlers = []
  | some (.disconnectRelease _) | some (.disconnectSettings _) | some (.disconnectPolicy _)
  | some (.disconnectPrediction _) => True
  | some _ => False

/-- What the handlers owe to the operation that was called last. -/
def BrowserView.Accounted (last : Option Called) (op : Option Task) (v : BrowserView) : Prop :=
  v.Tracked op ∧ (last.map (·.operation) = some .disconnect → v.Disconnected op)

/-- An `applySplit` that took a handler aside has its new settings applied. -/
def SplitTakes (api : ChromeLike) (x : Task) (v : BrowserView) : Prop :=
  ∀ split previous n r, x = .applySplitProxy split (some previous) n →
    v.browserResults n = some r → State.proxyApplied api split r = .ok ()

namespace State

variable {api : ChromeLike} {s s' : State}

/-! ## Handlers that come and go -/

/-- The handler that was taken aside is removed. -/
theorem filter_beside {held tracked : Option OnRequestHandler}
    (hnodup : ((held.toList ++ tracked.toList).map (·.id)).Nodup) (h : held = some x) :
    (held.toList ++ tracked.toList).filter (·.id != x.id) = tracked.toList := by
  subst h
  cases tracked with
  | none => simp
  | some y =>
    have hne : x.id ≠ y.id := by simpa using hnodup
    simp [hne.symm]

/-- The handler that is tracked is removed. -/
theorem filter_tracked {held tracked : Option OnRequestHandler}
    (hnodup : ((held.toList ++ tracked.toList).map (·.id)).Nodup) (h : tracked = some x) :
    (held.toList ++ tracked.toList).filter (·.id != x.id) = held.toList := by
  subst h
  cases held with
  | none => simp
  | some y =>
    have hne : y.id ≠ x.id := by simpa using hnodup
    simp [hne]

theorem fresh_removeListener (hf : s.view.Fresh) (x : OnRequestHandler) :
    (s.removeListener x).view.Fresh where
  lt h := hf.lt (List.mem_filter.mp h).1
  nodup := ((List.filter_sublist).map _).nodup hf.nodup

theorem beside_removeListener (hf : s.view.Fresh) (hb : s.view.Beside (some x)) :
    (s.removeListener x).view.Beside none := by
  have hnodup := hf.nodup
  rw [hb] at hnodup
  show s.view.handlers.filter (·.id != x.id) = _
  rw [hb]
  exact filter_beside hnodup rfl

theorem removeOnRequestHandler_spec (hf : s.view.Fresh) (hb : s.view.Beside held) :
    s.removeOnRequestHandler.view.Fresh ∧ s.removeOnRequestHandler.view.Beside held ∧
      s.removeOnRequestHandler.view.onRequestHandler = none := by
  unfold removeOnRequestHandler
  split
  · next x hx =>
    have hfresh := fresh_removeListener hf x
    refine ⟨⟨hfresh.lt, hfresh.nodup⟩, ?_, rfl⟩
    have hnodup := hf.nodup
    rw [hb] at hnodup
    show s.view.handlers.filter (·.id != x.id) = _
    rw [hb, filter_tracked hnodup hx]
    exact (List.append_nil _).symm
  · next hnone => exact ⟨hf, hb, hnone⟩

theorem beside_register (hb : s.view.Beside held) (hnone : s.onRequestHandler = none)
    (socks5 : String) (split : SplitTunnelConfig) :
    (s.registerFirefoxOnRequest socks5 split).view.Beside held := by
  have hhandlers : s.handlers = held.toList ++ s.onRequestHandler.toList := hb
  rw [hnone, Option.toList_none, List.append_nil] at hhandlers
  show s.handlers ++ _ = _
  rw [hhandlers]
  rfl

theorem fresh_register (hf : s.view.Fresh) (socks5 : String) (split : SplitTunnelConfig) :
    (s.registerFirefoxOnRequest socks5 split).view.Fresh where
  lt {h} hh := by
    rcases List.mem_append.mp hh with hh | hh
    · exact Nat.lt_succ_of_lt (hf.lt hh)
    · rw [List.mem_singleton.mp hh]
      exact Nat.lt_succ_self _
  nodup := by
    have happ : (s.registerFirefoxOnRequest socks5 split).handlers.map (·.id) =
        s.handlers.map (·.id) ++ [s.nextHandler] := List.map_append
    show ((s.registerFirefoxOnRequest socks5 split).handlers.map (·.id)).Nodup
    rw [happ]
    refine List.nodup_append.mpr ⟨hf.nodup, List.nodup_cons.mpr ⟨List.not_mem_nil, .nil⟩, ?_⟩
    intro id hid next hnext
    obtain ⟨h, hh, rfl⟩ := List.mem_map.mp hid
    rw [List.mem_singleton.mp hnext]
    exact Nat.ne_of_lt (hf.lt hh)

/-! ## Awaits -/

theorem awaitCall_tracked (h : Runs t s) {task : Nat → Task} (hx : ∀ n, (task n).isOperation = true)
    (hJ : ∀ n, s.view.Tracked (some (task n))) :
    Owes BrowserView.Tracked (s.awaitCall t c task) := by
  obtain ⟨hf, hJ⟩ := hJ s.calls.length
  exact h.awaitCall (hx _) ⟨⟨hf.lt, hf.nodup⟩, hJ⟩

theorem awaitSettled_tracked (h : Runs t s) {task : Nat → Task}
    (hx : ∀ n, (task n).isOperation = true) (hJ : ∀ n, s.view.Tracked (some (task n))) :
    Owes BrowserView.Tracked (s.awaitSettled t r task) := by
  obtain ⟨hf, hJ⟩ := hJ s.calls.length
  exact h.awaitSettled (hx _) ⟨⟨hf.lt, hf.nodup⟩, hJ⟩

theorem awaitOptional_tracked (h : Runs t s) {task : Nat → Task}
    (hx : ∀ n, (task n).isOperation = true) (hJ : ∀ n, s.view.Tracked (some (task n))) :
    Owes BrowserView.Tracked (s.awaitOptional has t c task) := by
  unfold awaitOptional
  split
  · exact awaitCall_tracked h hx hJ
  · exact awaitSettled_tracked h hx hJ

/-- `applyProxy` registers a handler beside the one taken aside. -/
theorem applyProxy_tracked (h : Runs t s) (hf : s.view.Fresh) (hb : s.view.Beside held)
    (hnone : s.onRequestHandler = none) {task : Nat → Task}
    (hx : ∀ n, (task n).isOperation = true)
    (hJ : ∀ {v n}, BrowserView.Beside held v → v.Tracks (some (task n)))
    (endpoints : ExtensionEndpoints) (split : SplitTunnelConfig) :
    Owes BrowserView.Tracked (s.applyProxy api t endpoints split task) := by
  have hruns : Runs t (s.registerFirefoxOnRequest endpoints.socks5 split) := h.frame rfl rfl
  have hfresh := fresh_register hf endpoints.socks5 split
  have hbeside := beside_register hb hnone endpoints.socks5 split
  unfold applyProxy
  split
  · dsimp only
    split
    · exact awaitSettled_tracked hruns hx fun _ => ⟨hfresh, hJ hbeside⟩
    · exact awaitCall_tracked hruns hx fun _ => ⟨hfresh, hJ hbeside⟩
  · split
    · exact awaitSettled_tracked h hx fun _ => ⟨hf, hJ hb⟩
    · exact awaitCall_tracked h hx fun _ => ⟨hf, hJ hb⟩

theorem verifyRouting_tracked (h : Runs t s) {task : Nat → Task}
    (hx : ∀ n, (task n).isOperation = true) (hJ : ∀ n, s.view.Tracked (some (task n)))
    (split : SplitTunnelConfig) : Owes BrowserView.Tracked (s.verifyRouting api t split task) := by
  unfold verifyRouting assertProxyControl
  split
  · exact awaitSettled_tracked h hx hJ
  · exact awaitOptional_tracked h hx hJ

/-! ## `connect` -/

/-- A failed `connect` puts the handler it took aside back. -/
theorem connectFailed_tracked (h : Runs t s) (hf : s.view.Fresh)
    (hb : s.view.Beside c.heldHandler) (hnone : s.onRequestHandler = none) (e : Failure) :
    Owes BrowserView.Tracked (s.connectFailed t c e) := by
  have ha : Aside { s with onRequestHandler := c.heldHandler }
      (State.closePort { s with onRequestHandler := c.heldHandler }) := closePort_aside
  have hruns : Runs t { s with onRequestHandler := c.heldHandler } := h.frame rfl rfl
  have hview : s.handlers = c.heldHandler.toList ++ s.onRequestHandler.toList := hb
  rw [hnone, Option.toList_none, List.append_nil] at hview
  have hsettled : Runs t
      { State.closePort { s with onRequestHandler := c.heldHandler } with connecting := false } :=
    (hruns.aside ha).frame rfl rfl
  exact hsettled.settle ⟨⟨hf.lt, hf.nodup⟩, hview⟩ (.error e)

/-- Before the browser is hardened, no handler was registered that the `catch` would remove. -/
theorem connectCatch_tracked (h : Runs t s) (hf : s.view.Fresh)
    (hb : s.view.Beside c.heldHandler)
    (hnone : c.hardened = false → s.onRequestHandler = none) (e : Failure) :
    Owes BrowserView.Tracked (s.connectCatch t c e) := by
  have hruns : Runs t { s with endpoints := none, auth := none, source := none } := h.frame rfl rfl
  have hfresh : BrowserView.Fresh
      (State.view { s with endpoints := none, auth := none, source := none }) := ⟨hf.lt, hf.nodup⟩
  have hbeside : BrowserView.Beside c.heldHandler
      (State.view { s with endpoints := none, auth := none, source := none }) := hb
  unfold connectCatch
  split
  · obtain ⟨hf', hb', hnone'⟩ := removeOnRequestHandler_spec hfresh hbeside
    exact awaitCall_tracked (removeOnRequestHandler_runs hruns) (fun _ => rfl)
      fun _ => ⟨hf', hb', hnone'⟩
  · next hc =>
    exact connectFailed_tracked hruns hfresh hbeside (hnone (Bool.eq_false_of_not_eq_true hc)) e

theorem connectStart_tracked (h : Runs t s) (hf : s.view.Fresh) (hb : s.view.Beside none)
    (options : BrowserVpnConnectOptions) :
    Owes BrowserView.Tracked (s.connectStart api t options) := by
  unfold connectStart
  split
  · exact h.settle ⟨hf, hb⟩ _
  · split
    · exact h.settle ⟨hf, hb⟩ _
    · have hruns : Runs t { s with connecting := true, onRequestHandler := none } :=
        h.frame rfl rfl
      have hbeside : s.handlers = s.onRequestHandler.toList ++ [] :=
        hb.trans (List.append_nil _).symm
      exact awaitOptional_tracked hruns (fun _ => rfl)
        fun _ => ⟨⟨hf.lt, hf.nodup⟩, hbeside, rfl, rfl⟩

/-- `connect` before its routing is applied: the handler that was tracked is taken aside, and
nothing is registered yet. -/
theorem connectBefore_tracked (h : Runs t s) (hf : s.view.Fresh)
    (hb : s.view.Beside c.heldHandler) (hnone : s.onRequestHandler = none)
    (hc : c.hardened = false) :
    (∀ r, Owes BrowserView.Tracked (s.connectControlled api t c r)) ∧
    (∀ native r, Owes BrowserView.Tracked (s.connectLeaksKnown api t native c r)) ∧
    (∀ native r, Owes BrowserView.Tracked (s.connectAccessKnown api t native c r)) ∧
    (∀ r, Owes BrowserView.Tracked (s.connectAnswered t c r)) ∧
    (∀ g r, Owes BrowserView.Tracked (s.connectPolicyHardened api t c g r)) := by
  have hcatch (e : Failure) : Owes BrowserView.Tracked (s.connectCatch t c e) :=
    connectCatch_tracked h hf hb (fun _ => hnone) e
  refine ⟨fun r => ?_, fun native r => ?_, fun native r => ?_, fun r => ?_, fun g r => ?_⟩
  · unfold connectControlled
    split
    · exact hcatch _
    · exact awaitOptional_tracked h (fun _ => rfl) fun _ => ⟨hf, hb, hnone, hc⟩
  · unfold connectLeaksKnown
    split
    · exact hcatch _
    · dsimp only
      split
      · exact awaitOptional_tracked h (fun _ => rfl) fun _ => ⟨hf, hb, hnone, hc⟩
      · exact h.request rfl ⟨hf, hb, hnone, hc⟩ native _
  · unfold connectAccessKnown
    split
    · exact hcatch _
    · split
      · exact hcatch _
      · split
        · exact h.request rfl ⟨hf, hb, hnone, hc⟩ native _
        · exact hcatch _
  · unfold connectAnswered
    split
    · exact hcatch _
    · split
      · exact hcatch _
      · exact awaitCall_tracked h (fun _ => rfl) fun _ => ⟨hf, hb, hnone, hc⟩
    · exact hcatch _
  · unfold connectPolicyHardened
    split
    · exact hcatch _
    · exact awaitOptional_tracked h (fun _ => rfl) fun _ => ⟨hf, hb, hnone, hc⟩

/-- `connect` where it is hardened: the handler it registers goes beside the one taken aside. -/
theorem connectHardened_tracked (h : Runs t s) (hf : s.view.Fresh)
    (hb : s.view.Beside c.heldHandler) (hnone : s.onRequestHandler = none) (g : Granted)
    (r : BrowserResult) : Owes BrowserView.Tracked (s.connectHardened api t c g r) := by
  unfold connectHardened
  split
  · exact connectCatch_tracked h hf hb (fun _ => hnone) _
  · dsimp only
    split
    · exact connectCatch_tracked (c := { c with hardened := true }) h hf hb (fun _ => hnone) _
    · have hruns : Runs t
          { s with endpoints := some g.endpoints, auth := some g.auth, source := some g } :=
        h.frame rfl rfl
      refine applyProxy_tracked hruns ⟨hf.lt, hf.nodup⟩ hb hnone (fun _ => rfl) ?_ _ _
      intro v n hb'
      exact ⟨hb', rfl⟩

theorem connectApplied_tracked (h : Runs t s) (hf : s.view.Fresh)
    (hb : s.view.Beside c.heldHandler) (hc : c.hardened = true) (g : Granted) (r : BrowserResult) :
    Owes BrowserView.Tracked (s.connectApplied api t c g r) := by
  unfold connectApplied
  split
  · exact connectCatch_tracked h hf hb (fun hc' => by rw [hc] at hc'; cases hc') _
  · refine verifyRouting_tracked h (fun _ => rfl) ?_ _
    intro n
    exact ⟨hf, hb, hc⟩

/-- `connect` where it resolves: the handler that was taken aside is removed. -/
theorem connectVerified_tracked (h : Runs t s) (hf : s.view.Fresh)
    (hb : s.view.Beside c.heldHandler) (hc : c.hardened = true) (g : Granted) (r : BrowserResult) :
    Owes BrowserView.Tracked (s.connectVerified t c g r) := by
  have hcatch (e : Failure) : Owes BrowserView.Tracked (s.connectCatch t c e) :=
    connectCatch_tracked h hf hb (fun hc' => by rw [hc] at hc'; cases hc') e
  unfold connectVerified
  split
  · exact hcatch _
  · split
    · exact hcatch _
    · dsimp only
      split
      · next held hheld =>
        rw [hheld] at hb
        have hfresh := fresh_removeListener hf held
        have hbeside := beside_removeListener hf hb
        refine Runs.settle ?_ ⟨⟨hfresh.lt, hfresh.nodup⟩, hbeside⟩ _
        exact h.frame rfl rfl
      · next hheld =>
        rw [hheld] at hb
        refine Runs.settle ?_ ⟨⟨hf.lt, hf.nodup⟩, hb⟩ _
        exact h.frame rfl rfl

/-- The failure path of a `connect` that removed the handler it had registered. -/
theorem connectRestored_tracked (h : Runs t s) (hf : s.view.Fresh)
    (hb : s.view.Beside c.heldHandler) (hnone : s.onRequestHandler = none) (e : Failure)
    (r : BrowserResult) : Owes BrowserView.Tracked (s.connectRestored t c e r) := by
  unfold connectRestored
  split
  · exact connectFailed_tracked h hf hb hnone e
  · split
    · exact awaitCall_tracked h (fun _ => rfl) fun _ => ⟨hf, hb, hnone⟩
    · exact connectFailed_tracked h hf hb hnone e

theorem connectPolicyReleased_tracked (h : Runs t s) (hf : s.view.Fresh)
    (hb : s.view.Beside c.heldHandler) (hnone : s.onRequestHandler = none) (e : Failure)
    (r : BrowserResult) : Owes BrowserView.Tracked (s.connectPolicyReleased api t c e r) := by
  unfold connectPolicyReleased
  split
  · exact connectFailed_tracked h hf hb hnone e
  · exact awaitOptional_tracked h (fun _ => rfl) fun _ => ⟨hf, hb, hnone⟩

theorem resumeConnect_tracked (h : Runs t s) (hJ : s.view.Tracked (some (.connect c a)))
    (hs : s.resumeConnect api t native c a = some s') : Owes BrowserView.Tracked s' := by
  obtain ⟨hf, hJ⟩ := hJ
  cases a with
  | assertProxyControl n =>
    obtain ⟨r, -, rfl⟩ := Option.map_eq_some_iff.mp hs
    exact (connectBefore_tracked h hf hJ.1 hJ.2.1 hJ.2.2).1 r
  | holdsLeakHardening n =>
    obtain ⟨r, -, rfl⟩ := Option.map_eq_some_iff.mp hs
    exact (connectBefore_tracked h hf hJ.1 hJ.2.1 hJ.2.2).2.1 native r
  | isAllowedIncognitoAccess n =>
    obtain ⟨r, -, rfl⟩ := Option.map_eq_some_iff.mp hs
    exact (connectBefore_tracked h hf hJ.1 hJ.2.1 hJ.2.2).2.2.1 native r
  | request request =>
    obtain ⟨r, -, rfl⟩ := Option.map_eq_some_iff.mp hs
    have hbefore := @connectBefore_tracked api s t c h hf hJ.1 hJ.2.1 hJ.2.2
    exact hbefore.2.2.2.1 r
  | hardenPolicy g n =>
    obtain ⟨r, -, rfl⟩ := Option.map_eq_some_iff.mp hs
    exact (connectBefore_tracked h hf hJ.1 hJ.2.1 hJ.2.2).2.2.2.2 g r
  | hardenPrediction g n =>
    obtain ⟨r, -, rfl⟩ := Option.map_eq_some_iff.mp hs
    exact connectHardened_tracked h hf hJ.1 hJ.2.1 g r
  | applyProxy g n =>
    obtain ⟨r, -, rfl⟩ := Option.map_eq_some_iff.mp hs
    exact connectApplied_tracked h hf hJ.1 hJ.2 g r
  | verifyRouting g n =>
    obtain ⟨r, -, rfl⟩ := Option.map_eq_some_iff.mp hs
    exact connectVerified_tracked h hf hJ.1 hJ.2 g r
  | restoreSettings e n =>
    obtain ⟨r, -, rfl⟩ := Option.map_eq_some_iff.mp hs
    exact connectRestored_tracked h hf hJ.1 hJ.2 e r
  | releasePolicy e n =>
    obtain ⟨r, -, rfl⟩ := Option.map_eq_some_iff.mp hs
    exact connectPolicyReleased_tracked h hf hJ.1 hJ.2 e r
  | releasePrediction e n =>
    obtain ⟨r, -, rfl⟩ := Option.map_eq_some_iff.mp hs
    exact connectFailed_tracked h hf hJ.1 hJ.2 e

/-! ## `reconnect`, `disconnect` and `applySplit` -/

theorem reconnectReleased_tracked (h : Runs t s) (hf : s.view.Fresh) (hb : s.view.Beside none)
    (options : BrowserVpnConnectOptions) :
    Owes BrowserView.Tracked (s.reconnectReleased api t options) :=
  connectStart_tracked (releaseHost_runs h) ⟨hf.lt, hf.nodup⟩ hb options

theorem reconnectRelease_tracked (h : Runs t s) (hf : s.view.Fresh) (hb : s.view.Beside none)
    (native : Bool) (options : BrowserVpnConnectOptions) :
    Owes BrowserView.Tracked (s.reconnectRelease api t native options) := by
  have hruns : Runs t { s with releasing := true } := h.frame rfl rfl
  unfold reconnectRelease
  dsimp only
  split
  · exact hruns.request rfl ⟨⟨hf.lt, hf.nodup⟩, hb⟩ native _
  · exact reconnectReleased_tracked hruns ⟨hf.lt, hf.nodup⟩ hb options

theorem reconnectStart_tracked (h : Runs t s) (hf : s.view.Fresh) (hb : s.view.Beside none)
    (native : Bool) (options : BrowserVpnConnectOptions) :
    Owes BrowserView.Tracked (s.reconnectStart api t native options) := by
  unfold reconnectStart
  split
  · exact connectStart_tracked h hf hb options
  · split
    · exact h.settle ⟨hf, hb⟩ _
    · split
      · exact awaitCall_tracked h (fun _ => rfl) fun _ => ⟨hf, hb⟩
      · exact reconnectRelease_tracked h hf hb native options

theorem applySplitStart_tracked (h : Runs t s) (hf : s.view.Fresh) (hb : s.view.Beside none)
    (split : SplitTunnelConfig) :
    Owes BrowserView.Tracked (s.applySplitStart api t split) := by
  unfold applySplitStart
  split
  · have hruns : Runs t { s with onRequestHandler := none } := h.frame rfl rfl
    have hbeside : BrowserView.Beside s.onRequestHandler
        (State.view { s with onRequestHandler := none }) :=
      hb.trans (List.append_nil _).symm
    refine applyProxy_tracked hruns ⟨hf.lt, hf.nodup⟩ hbeside rfl (fun _ => rfl) ?_ _ _
    intro v n hb'
    exact hb'
  · exact h.settle ⟨hf, hb⟩ _

/-- `applySplit` past `applyProxy`: the handler it took aside goes only if the settings took. -/
theorem applySplitApplied_tracked (h : Runs t s) (hf : s.view.Fresh) (hb : s.view.Beside previous)
    (htakes : previous ≠ none → proxyApplied api split r = .ok ()) :
    Owes BrowserView.Tracked (s.applySplitApplied api t split previous r) := by
  have hverify {s : State} (h : Runs t s) (hf : s.view.Fresh) (hb : s.view.Beside none) :
      Owes BrowserView.Tracked (s.verifyRouting api t split .applySplitVerify) := by
    refine verifyRouting_tracked h (fun _ => rfl) ?_ split
    intro n
    exact ⟨hf, hb⟩
  unfold applySplitApplied
  split
  · next e he =>
    cases previous with
    | none => exact h.settle ⟨hf, hb⟩ _
    | some handler =>
      rw [htakes (Option.some_ne_none _)] at he
      cases he
  · cases previous with
    | none => exact hverify h hf hb
    | some handler =>
      exact hverify (h.frame rfl rfl) (fresh_removeListener hf handler)
        (beside_removeListener hf hb)

/-- What `disconnect` owes along its parts. -/
def Leaves (op : Option Task) (v : BrowserView) : Prop := v.Tracked op ∧ v.Disconnected op

/-- The end of `disconnect`, whichever of its calls it ends at. -/
theorem disconnectEnd_leaves (h : Runs t s) (hf : s.view.Fresh) (hb : s.view.Beside none)
    (hnone : s.onRequestHandler = none) (r : TaskResult) :
    Owes Leaves (s.disconnectEnd t r) := by
  have hhandlers : s.handlers = s.onRequestHandler.toList := hb
  rw [hnone] at hhandlers
  exact (releaseHost_runs h).settle ⟨⟨⟨hf.lt, hf.nodup⟩, hb⟩, hhandlers⟩ r

theorem clearBrowserSettings_leaves (h : Runs t s) (hf : s.view.Fresh) (hb : s.view.Beside none) :
    Owes Leaves (s.clearBrowserSettings t) := by
  obtain ⟨hf', hb', hnone⟩ := removeOnRequestHandler_spec hf hb
  exact (removeOnRequestHandler_runs h).awaitCall rfl
    ⟨⟨⟨hf'.lt, hf'.nodup⟩, hb', hnone⟩, trivial⟩

theorem disconnectStart_leaves (h : Runs t s) (hf : s.view.Fresh) (hb : s.view.Beside none)
    (native : Bool) : Owes Leaves (s.disconnectStart api t native) := by
  have hruns : Runs t { s with releasing := true } := h.frame rfl rfl
  have hfresh : BrowserView.Fresh (State.view { s with releasing := true }) := ⟨hf.lt, hf.nodup⟩
  unfold disconnectStart
  dsimp only
  split
  · exact hruns.request rfl ⟨⟨hfresh, hb⟩, trivial⟩ native _
  · exact clearBrowserSettings_leaves hruns hfresh hb

theorem disconnectSettingsCleared_leaves (h : Runs t s) (hf : s.view.Fresh)
    (hb : s.view.Beside none) (hnone : s.onRequestHandler = none) (r : BrowserResult) :
    Owes Leaves (s.disconnectSettingsCleared t r) := by
  unfold disconnectSettingsCleared
  split
  · exact disconnectEnd_leaves h hf hb hnone _
  · exact h.awaitCall rfl ⟨⟨⟨hf.lt, hf.nodup⟩, hb, hnone⟩, trivial⟩

theorem disconnectPolicyCleared_leaves (h : Runs t s) (hf : s.view.Fresh)
    (hb : s.view.Beside none) (hnone : s.onRequestHandler = none) (r : BrowserResult) :
    Owes Leaves (s.disconnectPolicyCleared api t r) := by
  unfold disconnectPolicyCleared
  split
  · exact disconnectEnd_leaves h hf hb hnone _
  · have hview {calls results} : Leaves (some (.disconnectPrediction s.calls.length))
        { s.view with calls := calls, browserResults := results } :=
      ⟨⟨⟨hf.lt, hf.nodup⟩, hb, hnone⟩, trivial⟩
    exact h.awaitOptional rfl (fun _ => hview) (fun _ => hview)

theorem disconnectPredictionCleared_leaves (h : Runs t s) (hf : s.view.Fresh)
    (hb : s.view.Beside none) (hnone : s.onRequestHandler = none) (r : BrowserResult) :
    Owes Leaves (s.disconnectPredictionCleared t r) := by
  unfold disconnectPredictionCleared
  split
  · exact disconnectEnd_leaves h hf hb hnone _
  · have hruns : Runs t { s with proxied := false } := h.frame rfl rfl
    exact disconnectEnd_leaves hruns ⟨hf.lt, hf.nodup⟩ hb hnone _

/-! ## Runs -/

theorem accounted_of_leaves (h : Owes Leaves s) (last : Option Called) :
    Owes (BrowserView.Accounted last) s :=
  h.mono fun hJ => ⟨hJ.1, fun _ => hJ.2⟩

theorem accounted_of_tracked (h : Owes BrowserView.Tracked s)
    (hlast : last.map Called.operation ≠ some .disconnect) :
    Owes (BrowserView.Accounted last) s :=
  h.mono fun hJ => ⟨hJ, fun heq => absurd heq hlast⟩

theorem upholds_accounted :
    Upholds api (SplitTakes api) (fun _ _ _ => True) BrowserView.Accounted where
  start {last s t native operation} h hJ := by
    obtain ⟨hf, hb⟩ := hJ.1
    cases operation with
    | connect options => exact accounted_of_tracked (connectStart_tracked h hf hb options) nofun
    | reconnect options =>
      exact accounted_of_tracked (reconnectStart_tracked h hf hb native options) nofun
    | disconnect => exact accounted_of_leaves (disconnectStart_leaves h hf hb native) _
    | applySplit split => exact accounted_of_tracked (applySplitStart_tracked h hf hb split) nofun
  resume {last s s' t native x} h hx hJ htakes hs := by
    obtain ⟨⟨hf, hJ⟩, hlast⟩ := hJ
    cases x with
    | hello | requestHandshake | requestAnswer | asking => cases hx
    | connect c a => exact accounted_of_tracked (resumeConnect_tracked h ⟨hf, hJ⟩ hs) hlast
    | reconnectLockdown options n =>
      obtain ⟨r, -, rfl⟩ := Option.map_eq_some_iff.mp hs
      refine accounted_of_tracked ?_ hlast
      unfold reconnectLocked
      split
      · exact h.settle ⟨hf, hJ⟩ _
      · exact reconnectRelease_tracked h hf hJ native options
    | reconnectRelease options r =>
      obtain ⟨r, -, rfl⟩ := Option.map_eq_some_iff.mp hs
      exact accounted_of_tracked (reconnectReleased_tracked h hf hJ options) hlast
    | disconnectRelease r =>
      obtain ⟨r, -, rfl⟩ := Option.map_eq_some_iff.mp hs
      exact accounted_of_leaves (clearBrowserSettings_leaves h hf hJ) last
    | disconnectSettings n =>
      obtain ⟨r, -, rfl⟩ := Option.map_eq_some_iff.mp hs
      exact accounted_of_leaves (disconnectSettingsCleared_leaves h hf hJ.1 hJ.2 r) last
    | disconnectPolicy n =>
      obtain ⟨r, -, rfl⟩ := Option.map_eq_some_iff.mp hs
      exact accounted_of_leaves (disconnectPolicyCleared_leaves h hf hJ.1 hJ.2 r) last
    | disconnectPrediction n =>
      obtain ⟨r, -, rfl⟩ := Option.map_eq_some_iff.mp hs
      exact accounted_of_leaves (disconnectPredictionCleared_leaves h hf hJ.1 hJ.2 r) last
    | applySplitProxy split previous n =>
      obtain ⟨r, hr, rfl⟩ := Option.map_eq_some_iff.mp hs
      refine accounted_of_tracked (applySplitApplied_tracked h hf hJ ?_) hlast
      intro hprevious
      obtain ⟨handler, rfl⟩ := Option.ne_none_iff_exists'.mp hprevious
      exact htakes split handler n r rfl hr
    | applySplitVerify n =>
      obtain ⟨r, -, rfl⟩ := Option.map_eq_some_iff.mp hs
      refine accounted_of_tracked ?_ hlast
      unfold applySplitVerified
      split <;> exact h.settle ⟨hf, hJ⟩ _
  timeout {last s s' t x} h hJ hs := by
    obtain ⟨⟨hf, hJ⟩, hlast⟩ := hJ
    cases x with
    | reconnectRelease options r =>
      cases hs
      exact accounted_of_tracked (reconnectReleased_tracked h hf hJ options) hlast
    | disconnectRelease r =>
      cases hs
      exact accounted_of_leaves (clearBrowserSettings_leaves h hf hJ) last
    | _ => cases hs
  answer h _ _ _ := ⟨⟨⟨h.1.1.lt, h.1.1.nodup⟩, h.1.2⟩, h.2⟩
  die h _ := ⟨⟨⟨h.1.1.lt, h.1.1.nodup⟩, h.1.2⟩, h.2⟩

/-- A handler whose replacement did not take stays registered, and nothing tracks it. -/
theorem applySplitApplied_orphans (h : Runs t s) (hb : s.view.Beside (some handler))
    (hr : proxyApplied api split r ≠ .ok ()) :
    (s.applySplitApplied api t split (some handler) r).idle = true ∧
      (s.applySplitApplied api t split (some handler) r).handlers ≠
        (s.applySplitApplied api t split (some handler) r).onRequestHandler.toList := by
  unfold applySplitApplied
  split
  · next e he =>
    constructor
    · obtain ⟨op, hop⟩ := h.settle (J := fun op _ => op = none) rfl (.error e)
      have hnone := hop.owes
      exact hop.idle_iff.mpr (Option.map_eq_none_iff.mp hnone)
    · intro heq
      have hlength := congrArg List.length ((show s.handlers = _ from hb).symm.trans heq)
      rw [List.length_append] at hlength
      exact absurd hlength (by simp [view, State.settle])
  · next he => exact absurd he hr

end State

/-- Every handler that is registered between operations is the one tracked, and none is after a
`disconnect` that resolved. -/
structure Sequence.NoneOrphaned (q : Sequence) : Prop where
  tracked : q.client.idle = true → q.client.handlers = q.client.onRequestHandler.toList
  disconnected : ∀ {called v}, q.client.idle = true → q.last = some called →
    called.operation = .disconnect → q.client.results called.task = some (.ok v) →
    q.client.handlers = []

/-- Where an `applySplit` goes on that took a handler aside, its new settings were applied. -/
def Sequence.ReplacementTakes (api : ChromeLike) (q : Sequence) (e : Event) : Prop :=
  ∀ t native split previous n r, e = .resume t native →
    q.client.tasks t = some (.applySplitProxy split (some previous) n) →
    q.client.browserResults n = some r → State.proxyApplied api split r = .ok ()

theorem State.accounted_initial {settings : Option ProxyValue} {policy : Option String}
    {prediction : Option Bool} :
    BrowserView.Accounted none none (State.initial settings policy prediction).view where
  left :=
    { left :=
        { lt := fun hx => absurd hx List.not_mem_nil
          nodup := .nil }
      right := rfl }
  right h := by cases h

namespace Sequence
open State

theorem noneOrphaned_of_owes {q : Sequence} (h : Owes (BrowserView.Accounted q.last) q.client) :
    q.NoneOrphaned := by
  obtain ⟨op, h⟩ := h
  constructor
  · intro hidle
    obtain rfl := h.idle_iff.mp hidle
    exact h.owes.1.2
  · intro called v hidle hlast hcalled _
    obtain rfl := h.idle_iff.mp hidle
    refine h.owes.2 ?_
    rw [hlast, Option.map_some, hcalled]

/-- No handler is ever orphaned exactly in the runs in which every `applySplit` that replaces a
handler has its new settings applied. -/
theorem noneOrphaned_iff (api : ChromeLike) (settings : Option ProxyValue) (policy : Option String)
    (prediction : Option Bool) (events : List Event) :
    Always (step api) NoneOrphaned { client := .initial settings policy prediction } events ↔
      Guarded (step api) (ReplacementTakes api) { client := .initial settings policy prediction }
        events := by
  refine always_iff_guarded (I := fun q => Owes (BrowserView.Accounted q.last) q.client)
    noneOrphaned_of_owes ?_ ?_ ?_
  · intro q e q' h htakes hs
    refine step_owes upholds_accounted h ?_ (fun _ => trivial) hs
    rintro t native x rfl hx split previous n r rfl hr
    exact htakes t native split previous n r rfl hx hr
  · intro q e q' h htakes hs hP
    simp only [ReplacementTakes, not_forall] at htakes
    obtain ⟨t, native, split, previous, n, r, rfl, ht, hr, hfail⟩ := htakes
    obtain ⟨op, h⟩ := h
    obtain rfl := h.only ht rfl
    obtain ⟨s', hs', rfl⟩ := Option.map_eq_some_iff.mp hs
    simp only [Extension.step, ht, Option.bind_some, State.resume] at hs'
    obtain ⟨r', hr', rfl⟩ := Option.map_eq_some_iff.mp hs'
    obtain rfl := Option.some.inj (hr.symm.trans hr')
    have horphan := applySplitApplied_orphans (h.runs ht rfl) h.owes.1.2 hfail
    exact horphan.2 (hP.tracked horphan.1)
  · exact owes_initial settings policy prediction accounted_initial

/-- An `applySplit` whose settings Firefox does not apply. -/
def splitRefused : List Event :=
  firstTunnel ++ [.applySplit DEFAULT_SPLIT, .browserAnswer 7 (.ok (.bool false)), .resume 3 true]

/-- The handler of the `connect` is still registered, beside the one that is tracked. -/
theorem not_noneOrphaned_splitRefused :
    ¬ Always (step firefox) NoneOrphaned { client := .initial none none none } splitRefused := by
  have hrun : ∃ q, exec (step firefox) (fun _ _ => true) { client := .initial none none none }
      splitRefused = some q ∧ q.client.idle = true ∧ q.client.handlers.length = 2 :=
    ⟨_, rfl, rfl, rfl⟩
  obtain ⟨q, hq, hidle, hlength⟩ := hrun
  intro h
  rw [(h.exec hq).tracked hidle] at hlength
  cases htracked : q.client.onRequestHandler with
  | none =>
    rw [htracked] at hlength
    cases hlength
  | some handler =>
    rw [htracked] at hlength
    cases hlength

end Sequence

end WarrenSdk.Extension
