import WarrenSdk.Extension.Client.Hold

/-!
# Every operation keeps what is held

One lemma for each part of each operation. A part of `connect` starts from what `Waiting` knew at
the await it resumes from: `Carries` for the handler it holds back, and `Keeps` once it has found
the settings held.
-/

namespace WarrenSdk.Extension
namespace State

variable {api : ChromeLike} {since : Option Nat} {running : Bool} {s s' : State} {t : Nat}

theorem HoldInv.browserResults_calls (h : HoldInv api since running s) :
    s.browserResults s.calls.length = none := by
  by_contra hb
  exact Nat.lt_irrefl _ (h.call_lt hb)

@[simp] theorem awaitOptional_true :
    s.awaitOptional true t call task = s.awaitCall t call task := rfl

theorem Free.frame (h : Free s t) (ht : s'.tasks = s.tasks) (hn : s'.nextTask = s.nextTask) :
    s'.Free t := ⟨ht ▸ h.1, hn ▸ h.2⟩

/-! ## Calls other than `connect` -/

theorem HoldInv.requestHandshakeDone (h : HoldInv api since false s) (ht : s.Free t) :
    HoldInv api since false (s.requestHandshakeDone t native body r) := by
  unfold State.requestHandshakeDone
  split
  · exact h.settle_error
  · split
    · exact h.settle_error
    · next hs => exact (h.aside (send_aside hs)).suspend (ht.aside (send_aside hs)) ⟨rfl, rfl⟩

theorem HoldInv.helloAnswered (h : HoldInv api since false s) :
    HoldInv api since false (s.helloAnswered t r) := by
  have hclosed : HoldInv api since false s.closePort := h.aside closePort_aside
  unfold State.helloAnswered
  split
  · split
    · exact h.settle fun _ hr => by cases hr
    · exact hclosed.settle_error
  · exact hclosed.settle_error
  · split
    · exact hclosed.settle_error
    · exact h.settle_error
  · exact h.settle_error

theorem HoldInv.finishAsking (h : HoldInv api since false s)
    (hr : ∀ e, r = .ok (.endpoints e) → since ≠ none) :
    HoldInv api since false (s.finishAsking t q r) := by
  have h' : HoldInv api since false { s with questions := s.questions - 1 } := h.frame rfl id
  have hend e (hq : q.result r = .ok (.endpoints e)) : since ≠ none :=
    hr e ((Question.result_ok hq).resolve_right (by simp [TaskValue.isReport]))
  unfold State.finishAsking
  simp only
  split
  · exact (h'.aside closePort_aside).settle hend
  · exact h'.settle hend

theorem HoldInv.askStart (h : HoldInv api since false s) (ht : s.Free t) :
    HoldInv api since false (s.askStart api t native q) := by
  have h' : HoldInv api since false { s with questions := s.questions + 1 } := h.frame rfl id
  have ht' : Free { s with questions := s.questions + 1 } t := ht
  unfold State.askStart
  simp only
  split
  · split
    · exact h'.finishAsking fun _ hr => by cases hr
    · next ho =>
      have ha := (openPort_aside ho).trans (shakeHands_aside api native)
      exact (h'.aside ha).suspend (ht'.aside ha) ⟨rfl, rfl⟩
  · exact (h'.aside request_aside).suspend (ht'.aside request_aside) ⟨rfl, rfl⟩

/-! ## The failure path of `connect` -/

theorem HoldInv.connectFailed (h : HoldInv api since true s)
    (hc : Carries api since s c.heldHandler) : HoldInv api since false (s.connectFailed t c e) := by
  have halone := (h.alone rfl).2
  have h' : HoldInv api since false
      { s with onRequestHandler := c.heldHandler, connecting := false } :=
    { h with
      connecting := fun ht => absurd ht (halone _ _ _)
      alone := fun hr => by cases hr
      busy := fun hc => by cases hc
      down := fun hc => by cases hc
      handler_lt := hc.held_lt
      spare := hc.spare
      waiting := fun ht => absurd ht (halone _ _ _)
      idle := fun hsince _ => hc.anchor hsince }
  refine HoldInv.settle_error ?_
  exact h'.frame rfl id

theorem removeOnRequestHandler_tasks : s.removeOnRequestHandler.tasks = s.tasks ∧
    s.removeOnRequestHandler.nextTask = s.nextTask ∧
      s.removeOnRequestHandler.calls = s.calls := by
  unfold State.removeOnRequestHandler
  split <;> exact ⟨rfl, rfl, rfl⟩

theorem mem_removeListener {h p : OnRequestHandler} (hm : h ∈ s.handlers) (hne : h.id ≠ p.id) :
    h ∈ (s.removeListener p).handlers := by
  simp only [State.removeListener, List.mem_filter, bne_iff_ne]
  exact ⟨hm, hne⟩

/-- The handler a failing `connect` registered goes; the one it holds back stays. -/
theorem HoldInv.removeOnRequestHandler (h : HoldInv api since true s)
    (hc : Carries api since s held) : HoldInv api since true s.removeOnRequestHandler ∧
      Carries api since s.removeOnRequestHandler held := by
  have halone := (h.alone rfl).2
  unfold State.removeOnRequestHandler
  split
  · next p hp =>
    constructor
    · exact { h with
        handler_lt := fun ho => by cases ho
        spare := fun _ ho => by cases ho
        waiting := fun ht => absurd ht (halone _ _ _)
        idle := fun _ hidle => by cases (h.alone rfl).1.symm.trans hidle }
    · exact { hc with
        apart := fun _ ho => by cases ho
        anchor := fun hsince hfx => by
          obtain ⟨x, hx, hheld⟩ := hc.anchor hsince hfx
          exact ⟨x, mem_removeListener hx (hc.apart hheld hp), hheld⟩ }
  · exact ⟨h, hc⟩

theorem HoldInv.connectCatch (h : HoldInv api since true s)
    (hc : Carries api since s c.heldHandler) (ht : s.Free t)
    (hk : since ≠ none → c.hardened = true → Keeps api c) :
    HoldInv api since false (s.connectCatch t c e) := by
  have h₁ : HoldInv api since true { s with endpoints := none, auth := none, source := none } :=
    h.frame rfl id
  have hc₁ : Carries api since { s with endpoints := none, auth := none, source := none }
      c.heldHandler := hc.frame rfl
  unfold State.connectCatch
  simp only
  split
  · next hh =>
    obtain ⟨h₂, hc₂⟩ := h₁.removeOnRequestHandler hc₁
    generalize hs₂ : State.removeOnRequestHandler
      { s with endpoints := none, auth := none, source := none } = s₂ at h₂ hc₂ ⊢
    have ht₂ : s₂.Free t := by
      subst hs₂
      exact Free.frame (s := s) ht removeOnRequestHandler_tasks.1 removeOnRequestHandler_tasks.2.1
    cases hb : controlled c.before
    · -- Only a `connect` that found nothing held clears the settings, or one on Firefox.
      have hnone : since ≠ none → api.platform ≠ .chromium := fun hsince hp => by
        rw [(hk hsince hh).1 hp] at hb
        cases hb
      have hfit : s₂.Accepts api since true (.connect c (.restoreSettings e s₂.calls.length)) :=
        ⟨rfl, hc₂, trivial, fun hsince => ⟨hk hsince hh, fun hp => absurd hp (hnone hsince)⟩⟩
      refine (h₂.suspend ht₂ hfit).append (fun _ => ⟨t, c, e, ?_⟩) (fun hx => by cases hx)
        fun hsince => ⟨by simp, by simp, fun hp => absurd hp (hnone hsince)⟩
      simp [State.suspend]
    · refine h₂.awaitCall ht₂ rfl ⟨rfl, hc₂.frame rfl, trivial, fun hsince => ?_⟩
      exact ⟨hk hsince hh, fun _ => ⟨_, List.getElem?_concat_length⟩⟩
  · exact h₁.connectFailed hc₁

theorem HoldInv.connectRestored (h : HoldInv api since true s)
    (hc : Carries api since s c.heldHandler) (ht : s.Free t) (hk : since ≠ none → Keeps api c) :
    HoldInv api since false (s.connectRestored t c e r) := by
  unfold State.connectRestored
  split
  · exact h.connectFailed hc
  · split
    · next hrel =>
      have hnone : since = none := by
        by_contra hsince
        rw [(hk hsince).2] at hrel
        cases hrel.1
      have hfit : s.Accepts api since true (.connect c (.releasePolicy e s.calls.length)) :=
        ⟨rfl, hc, trivial, fun hsince => absurd hnone hsince⟩
      refine (h.suspend ht hfit).append (fun hx => by cases hx) (fun _ => ⟨t, c, e, ?_⟩)
        fun hsince => absurd hnone hsince
      simp [State.suspend]
    · exact h.connectFailed hc

theorem HoldInv.connectPolicyReleased (h : HoldInv api since true s)
    (hc : Carries api since s c.heldHandler) (ht : s.Free t) (hnone : since = none) :
    HoldInv api since false (s.connectPolicyReleased api t c e r) := by
  unfold State.connectPolicyReleased
  split
  · exact h.connectFailed hc
  · unfold awaitOptional
    split
    · have hfit : s.Accepts api since true (.connect c (.releasePrediction e s.calls.length)) :=
        ⟨rfl, hc, trivial, fun hsince => absurd hnone hsince⟩
      exact (h.suspend ht hfit).append (fun hx => by cases hx) (fun hx => by cases hx)
        fun hsince => absurd hnone hsince
    · exact h.awaitSettled ht ⟨rfl, hc.frame rfl, trivial, fun hsince => absurd hnone hsince⟩

/-! ## The way of `connect` to its request -/

theorem HoldInv.connectStart (hapi : api.Readable) (h : HoldInv api since false s)
    (ht : s.Free t) : HoldInv api since false (s.connectStart api t options) := by
  unfold State.connectStart
  split
  · exact h.settle_error
  next hc =>
  split
  · exact h.settle_error
  next hu =>
  simp only [Bool.not_eq_true] at hc hu
  have halone : ∀ t c a, s.tasks t ≠ some (.connect c a) := fun t c a ht => by
    cases (h.connecting ht).symm.trans hc
  have h' : HoldInv api since true { s with connecting := true, onRequestHandler := none } :=
    { h with
      connecting := fun _ => rfl
      alone := fun _ => ⟨rfl, halone⟩
      busy := fun _ => .inl rfl
      down := fun _ => hu
      handler_lt := fun ho => by cases ho
      spare := fun _ ho => by cases ho
      waiting := fun ht => absurd ht (halone _ _ _)
      idle := fun _ hc => by cases hc }
  have hcarries : Carries api since
      { s with connecting := true, onRequestHandler := none } s.onRequestHandler :=
    { held_lt := h.handler_lt
      apart := fun _ ho => by cases ho
      spare := h.spare
      anchor := fun hsince => h.idle hsince hc }
  unfold State.assertProxyControl
  rw [hapi.settingsGet, awaitOptional_true]
  refine h'.awaitCall ht rfl
    ⟨rfl, hcarries.frame rfl, List.getElem?_concat_length, fun _ => ⟨rfl, fun _ v hv => ?_⟩⟩
  cases h.browserResults_calls.symm.trans hv

theorem proxyControl_ok (h : proxyControl levels r = .ok d) : ∃ v, r = .ok v ∧ d = v.details? := by
  cases r with
  | error e => cases h
  | ok v =>
    refine ⟨v, rfl, ?_⟩
    unfold proxyControl at h
    simp only at h
    split at h
    · split at h
      · exact (Except.ok.inj h).symm
      · cases h
    · exact (Except.ok.inj h).symm

theorem HoldInv.connectControlled (hapi : api.Readable) (h : HoldInv api since true s)
    (hc : Carries api since s c.heldHandler) (ht : s.Free t)
    (hk : since ≠ none → c.hardened = false ∧ (api.platform = .chromium →
      ∀ v, r = .ok v → controlled v.details? = true)) :
    HoldInv api since false (s.connectControlled api t c r) := by
  unfold State.connectControlled
  split
  · exact h.connectCatch hc ht fun hsince hh => by cases (hk hsince).1.symm.trans hh
  · next before hb =>
    obtain ⟨v, rfl, rfl⟩ := proxyControl_ok hb
    rw [hapi.policyGet, awaitOptional_true]
    refine h.awaitCall ht rfl ⟨rfl, hc.frame rfl, List.getElem?_concat_length, fun hsince => ?_⟩
    refine ⟨(hk hsince).1, fun hp => (hk hsince).2 hp v rfl, fun v hv => ?_⟩
    cases h.browserResults_calls.symm.trans hv

theorem HoldInv.connectRequest (h : HoldInv api since true s)
    (hc : Carries api since s c.heldHandler) (ht : s.Free t) (hk : since ≠ none → Keeps api c) :
    HoldInv api since false (s.connectRequest api t native c) :=
  (h.aside request_aside).suspend (ht.aside request_aside)
    ⟨rfl, hc.aside request_aside, trivial, hk⟩

theorem HoldInv.connectLeaksKnown (h : HoldInv api since true s)
    (hc : Carries api since s c.heldHandler) (ht : s.Free t)
    (hk : since ≠ none → c.hardened = false ∧
      (api.platform = .chromium → controlled c.before = true) ∧
        ∀ v, r = .ok v → controlled v.details? = true) :
    HoldInv api since false (s.connectLeaksKnown api t native c r) := by
  unfold State.connectLeaksKnown
  split
  · exact h.connectCatch hc ht fun hsince hh => by cases (hk hsince).1.symm.trans hh
  · next v =>
    have hk' : since ≠ none → Keeps api { c with leaksHeld := controlled v.details? } :=
      fun hsince => ⟨(hk hsince).2.1, (hk hsince).2.2 v rfl⟩
    simp only
    split
    · unfold awaitOptional
      split
      · exact h.awaitCall ht rfl ⟨rfl, hc.frame rfl, trivial, hk'⟩
      · exact h.awaitSettled ht ⟨rfl, hc.frame rfl, trivial, hk'⟩
    · exact h.connectRequest (c := { c with leaksHeld := controlled v.details? }) hc ht hk'

theorem HoldInv.connectAccessKnown (h : HoldInv api since true s)
    (hc : Carries api since s c.heldHandler) (ht : s.Free t) (hk : since ≠ none → Keeps api c) :
    HoldInv api since false (s.connectAccessKnown api t native c r) := by
  have hcatch {e} : HoldInv api since false (s.connectCatch t c e) :=
    h.connectCatch hc ht fun hsince _ => hk hsince
  unfold State.connectAccessKnown
  split
  · exact hcatch
  · split
    · exact hcatch
    · split
      · exact h.connectRequest hc ht hk
      · exact hcatch

theorem HoldInv.connectAnswered (h : HoldInv api since true s)
    (hc : Carries api since s c.heldHandler) (ht : s.Free t) (hk : since ≠ none → Keeps api c) :
    HoldInv api since false (s.connectAnswered t c r) := by
  have hcatch {e} : HoldInv api since false (s.connectCatch t c e) :=
    h.connectCatch hc ht fun hsince _ => hk hsince
  unfold State.connectAnswered
  split
  · exact hcatch
  · split
    · exact hcatch
    · refine h.awaitCall ht rfl
        ⟨rfl, hc.frame rfl, ⟨⟨_, List.getElem?_concat_length⟩, fun v hv => ?_⟩, hk⟩
      cases h.browserResults_calls.symm.trans hv
  · exact hcatch

/-! ## The way of `connect` to its tunnel -/

theorem HoldInv.connectPolicyHardened (h : HoldInv api since true s)
    (hc : Carries api since s c.heldHandler) (ht : s.Free t) (hk : since ≠ none → Keeps api c)
    (hp : ∀ v, r = .ok v → s.policy ≠ none) :
    HoldInv api since false (s.connectPolicyHardened api t c g r) := by
  unfold State.connectPolicyHardened
  split
  · exact h.connectCatch hc ht fun hsince _ => hk hsince
  · next v =>
    unfold awaitOptional
    split
    · exact h.awaitCall ht rfl ⟨rfl, hc.frame rfl, hp v rfl, hk⟩
    · exact h.awaitSettled ht ⟨rfl, hc.frame rfl, hp v rfl, hk⟩

/-- A handler registered while no `connect` is suspended becomes the one tracked. -/
theorem HoldInv.register (h : HoldInv api since running s) (socks5 : String)
    (split : SplitTunnelConfig) (halone : ∀ t c a, s.tasks t ≠ some (.connect c a)) :
    HoldInv api since running (s.registerFirefoxOnRequest socks5 split) :=
  { h with
    handler_lt := fun ho => by
      cases ho
      exact Nat.lt_succ_self _
    spare_lt := fun ht => Nat.lt_succ_of_lt (h.spare_lt ht)
    spare := fun ht ho => by
      cases ho
      exact Nat.ne_of_gt (h.spare_lt ht)
    waiting := fun ht => absurd ht (halone _ _ _)
    idle := fun _ _ _ => ⟨_, List.mem_append_right _ (List.mem_singleton.mpr rfl), rfl⟩ }

theorem Carries.register (hc : Carries api since s held) :
    Carries api since (s.registerFirefoxOnRequest socks5 split) held where
  held_lt hh := Nat.lt_succ_of_lt (hc.held_lt hh)
  apart hh ho := by
    cases ho
    exact Nat.ne_of_lt (hc.held_lt hh)
  spare := hc.spare
  anchor hsince hfx := (hc.anchor hsince hfx).imp fun _ hx => ⟨List.mem_append_left _ hx.1, hx.2⟩

theorem HoldInv.connectApplyProxy {endpoints : ExtensionEndpoints} (h : HoldInv api since true s)
    (hc : Carries api since s c.heldHandler) (ht : s.Free t) (hk : since ≠ none → Keeps api c)
    (hp : s.policy ≠ none) :
    HoldInv api since false
      (s.applyProxy api t endpoints split fun n => .connect c (.applyProxy g n)) := by
  unfold State.applyProxy
  split
  · have h' := h.register endpoints.socks5 split (h.alone rfl).2
    have hrouted : Routed api (s.registerFirefoxOnRequest endpoints.socks5 split) :=
      fun _ => ⟨_, List.mem_append_right _ (List.mem_singleton.mpr rfl), rfl⟩
    simp only
    split
    · exact h'.awaitSettled ht ⟨rfl, hc.register.frame rfl, ⟨hp, hrouted⟩, hk⟩
    · exact h'.awaitCall ht rfl ⟨rfl, hc.register.frame rfl, ⟨hp, hrouted⟩, hk⟩
  · next hplat =>
    have hrouted : Routed api s := fun hfx => by cases hplat.symm.trans hfx
    split
    · exact h.awaitSettled ht ⟨rfl, hc.frame rfl, ⟨hp, hrouted⟩, hk⟩
    · exact h.awaitCall ht rfl ⟨rfl, hc.frame rfl, ⟨hp, hrouted⟩, hk⟩

theorem HoldInv.connectHardened (h : HoldInv api since true s)
    (hc : Carries api since s c.heldHandler) (ht : s.Free t) (hk : since ≠ none → Keeps api c)
    (hp : s.policy ≠ none) : HoldInv api since false (s.connectHardened api t c g r) := by
  unfold State.connectHardened
  split
  · exact h.connectCatch hc ht fun hsince _ => hk hsince
  · simp only
    split
    · exact h.connectCatch (c := { c with hardened := true }) hc ht fun hsince _ => hk hsince
    · exact HoldInv.connectApplyProxy (c := { c with hardened := true })
        (s := { s with endpoints := some g.endpoints, auth := some g.auth, source := some g })
        (h.frame rfl id) (hc.frame rfl) ht hk hp

theorem HoldInv.connectApplied (hapi : api.Readable) (h : HoldInv api since true s)
    (hc : Carries api since s c.heldHandler) (ht : s.Free t) (hk : since ≠ none → Keeps api c)
    (hp : s.policy ≠ none) (hrouted : s.Routed api) :
    HoldInv api since false (s.connectApplied api t c g r) := by
  unfold State.connectApplied
  split
  · exact h.connectCatch hc ht fun hsince _ => hk hsince
  · unfold State.verifyRouting
    split
    · next hfx =>
      refine h.awaitSettled ht ⟨rfl, hc.frame rfl, ⟨hp, hrouted, fun hplat => ?_⟩, hk⟩
      cases hfx.1.symm.trans hplat
    · unfold State.assertProxyControl
      rw [hapi.settingsGet, awaitOptional_true]
      refine h.awaitCall ht rfl ⟨rfl, hc.frame rfl, ⟨hp, hrouted, fun _ => ?_⟩, hk⟩
      refine ⟨List.getElem?_concat_length, fun r' d hr _ => ?_⟩
      cases h.browserResults_calls.symm.trans hr

/-- A `connect` resolves: from now on, the browser is held. -/
theorem HoldInv.connectVerified (h : HoldInv api since true s)
    (hc : Carries api since s c.heldHandler) (ht : s.Free t) (hk : since ≠ none → Keeps api c)
    (hp : s.policy ≠ none) (hrouted : s.Routed api)
    (hs : api.platform = .chromium → ∀ d, proxyControl [.controlledByThisExtension] r = .ok d →
      s.settings ≠ none) :
    HoldFrom api since (s.connectVerified t c g r) := by
  have hcatch {e} : HoldInv api since false (s.connectCatch t c e) :=
    h.connectCatch hc ht fun hsince _ => hk hsince
  have halone := (h.alone rfl).2
  unfold State.connectVerified
  split
  · exact hcatch.holdFrom
  next d hd =>
  split
  · exact hcatch.holdFrom
  have hsince : since.or (some s.calls.length) ≠ none := by cases since <;> simp
  have hresolve {l} (hl : api.platform = .firefox → ∃ x ∈ l, s.onRequestHandler = some x) :
      HoldInv api (since.or (some s.calls.length)) false
        { s with proxied := true, tunnelUp := true, exit := parseTunnelExit g.exit, handlers := l,
                 connecting := false } :=
    { h with
      connecting := fun ht => absurd ht (halone _ _ _)
      alone := fun hr => by cases hr
      busy := fun hc => by cases hc
      down := fun hc => by cases hc
      waiting := fun ht => absurd ht (halone _ _ _)
      resolved := fun _ => hsince
      noClear := fun {k n} hk hle => by
        cases since with
        | none =>
          cases hk
          simp [List.getElem?_eq_none hle]
        | some k' => exact h.noClear hk hle
      policy := fun _ => hp
      settings := fun _ hplat => hs hplat d hd
      idle := fun _ _ => hl }
  refine ⟨since.or (some s.calls.length), fun hne => ?_, ?_⟩
  · cases since with
    | none => exact absurd rfl hne
    | some k => rfl
  · refine HoldInv.settle ?_ fun _ _ => hsince
    cases hheld : c.heldHandler with
    | none => exact hresolve hrouted
    | some p =>
      refine hresolve fun hfx => ?_
      obtain ⟨x, hx, ho⟩ := hrouted hfx
      exact ⟨x, mem_removeListener hx (Ne.symm (hc.apart hheld ho)), ho⟩

/-! ## `reconnect` and `applySplit` -/

theorem HoldInv.reconnectReleased (hapi : api.Readable) (h : HoldInv api since false s)
    (ht : s.Free t) : HoldInv api since false (s.reconnectReleased api t options) := by
  have h' : HoldInv api since false s.releaseHost := h.frame rfl fun hu => by cases hu
  exact h'.connectStart hapi (Free.frame (s := s) ht rfl rfl)

theorem HoldInv.reconnectRelease (hapi : api.Readable) (h : HoldInv api since false s)
    (ht : s.Free t) : HoldInv api since false (s.reconnectRelease api t native options) := by
  have h' : HoldInv api since false { s with releasing := true } := h.frame rfl id
  have ht' : Free { s with releasing := true } t := ht
  unfold State.reconnectRelease
  simp only
  split
  · exact (h'.aside request_aside).suspend (ht'.aside request_aside) ⟨rfl, rfl⟩
  · exact h'.reconnectReleased hapi ht'

theorem HoldInv.reconnectStart (hapi : api.Readable) (h : HoldInv api since false s)
    (ht : s.Free t) : HoldInv api since false (s.reconnectStart api t native options) := by
  unfold State.reconnectStart
  split
  · exact h.connectStart hapi ht
  · split
    · exact h.settle_error
    · split
      · exact h.awaitCall ht rfl ⟨rfl, rfl⟩
      · exact h.reconnectRelease hapi ht

theorem HoldInv.reconnectLocked (hapi : api.Readable) (h : HoldInv api since false s)
    (ht : s.Free t) : HoldInv api since false (s.reconnectLocked api t native options r) := by
  unfold State.reconnectLocked
  split
  · exact h.settle_error
  · exact h.reconnectRelease hapi ht

/-- The new routing goes in before the old handler is spared. -/
theorem HoldInv.applySplitStart (h : HoldInv api since false s) (ht : s.Free t) :
    HoldInv api since false (s.applySplitStart api t split) := by
  unfold State.applySplitStart
  split
  · next endpoints hu he =>
    have hidle : s.connecting = false := by
      by_contra hc
      cases hu.symm.trans (h.down (by simpa using hc))
    have halone : ∀ t c a, s.tasks t ≠ some (.connect c a) := fun t c a ht => by
      cases (h.connecting ht).symm.trans hidle
    unfold State.applyProxy
    split
    · have h' := h.register endpoints.socks5 split halone
      have hspare p (hp : s.onRequestHandler = some p) : s.connecting = false ∧
          p.id < (s.registerFirefoxOnRequest endpoints.socks5 split).nextHandler ∧
            ∀ x, (s.registerFirefoxOnRequest endpoints.socks5 split).onRequestHandler = some x →
              x.id ≠ p.id := by
        have hlt := h.handler_lt hp
        refine ⟨hidle, Nat.lt_succ_of_lt hlt, fun x hx => ?_⟩
        cases hx
        exact Nat.ne_of_gt hlt
      simp only
      split
      · exact h'.awaitSettled ht ⟨rfl, hspare⟩
      · exact h'.awaitCall ht rfl ⟨rfl, hspare⟩
    · next hplat =>
      have h' : HoldInv api since false { s with onRequestHandler := none } :=
        { h with
          handler_lt := fun ho => by cases ho
          spare := fun _ ho => by cases ho
          waiting := fun ht => absurd ht (halone _ _ _)
          idle := fun _ _ hfx => by cases hplat.symm.trans hfx }
      have hspare p (hp : s.onRequestHandler = some p) : s.connecting = false ∧
          p.id < s.nextHandler ∧ ∀ x : OnRequestHandler, none = some x → x.id ≠ p.id :=
        ⟨hidle, h.handler_lt hp, fun x hx => by cases hx⟩
      split
      · exact h'.awaitSettled ht ⟨rfl, hspare⟩
      · exact h'.awaitCall ht rfl ⟨rfl, hspare⟩
  · exact h.settle_error

/-- `applySplit` removes a handler that nothing goes back to. -/
theorem HoldInv.removeListener (h : HoldInv api since false s)
    (ho : ∀ x, s.onRequestHandler = some x → x.id ≠ p.id)
    (hc : ∀ {t c a x}, s.tasks t = some (.connect c a) → c.heldHandler = some x → x.id ≠ p.id) :
    HoldInv api since false (s.removeListener p) := by
  have hrouted (hr : Routed api s) : Routed api (s.removeListener p) := fun hfx => by
    obtain ⟨x, hx, hox⟩ := hr hfx
    exact ⟨x, mem_removeListener hx (ho x hox), hox⟩
  exact { h with
    waiting := fun {t c a} ht =>
      { h.waiting ht with
        anchor := fun hsince hfx => by
          obtain ⟨x, hx, hheld⟩ := (h.waiting ht).anchor hsince hfx
          exact ⟨x, mem_removeListener hx (hc ht hheld), hheld⟩
        knows := by
          have hk := (h.waiting ht).knows
          cases a
          case applyProxy => exact ⟨hk.1, hrouted hk.2⟩
          case verifyRouting => exact ⟨hk.1, hrouted hk.2.1, hk.2.2⟩
          all_goals exact hk
        kept := fun hsince => by
          have hk := (h.waiting ht).kept hsince
          cases a <;> exact hk }
    idle := fun hsince hidle => hrouted (h.idle hsince hidle) }

theorem HoldInv.applySplitApplied (h : HoldInv api since false s) (ht : s.Free t)
    (ho : ∀ p x, previous = some p → s.onRequestHandler = some x → x.id ≠ p.id)
    (hc : ∀ {p t c a x}, previous = some p → s.tasks t = some (.connect c a) →
      c.heldHandler = some x → x.id ≠ p.id) :
    HoldInv api since false (s.applySplitApplied api t split previous r) := by
  have hverify {s : State} (h : HoldInv api since false s) (ht : s.Free t) :
      HoldInv api since false (s.verifyRouting api t split .applySplitVerify) := by
    unfold State.verifyRouting
    split
    · exact h.awaitSettled ht ⟨rfl, rfl⟩
    · unfold State.assertProxyControl awaitOptional
      split
      · exact h.awaitCall ht rfl ⟨rfl, rfl⟩
      · exact h.awaitSettled ht ⟨rfl, rfl⟩
  unfold State.applySplitApplied
  split
  · exact h.settle_error
  · cases previous with
    | none => exact hverify h ht
    | some p =>
      exact hverify (h.removeListener (ho p · rfl) (hc rfl)) (Free.frame (s := s) ht rfl rfl)

theorem HoldInv.applySplitVerified (h : HoldInv api since false s) :
    HoldInv api since false (s.applySplitVerified t r) := by
  unfold State.applySplitVerified
  split
  · exact h.settle_error
  · exact h.settle fun _ hr => by cases hr

/-! ## What happens to the client -/

theorem HoldInv.portDied (h : HoldInv api since false s) :
    HoldInv api since false (s.portDied api p) := by
  have h' : HoldInv api since false (State.rejectPending "native messaging host disconnected"
      { s with live := Function.update s.live p false, portDead := true, tunnelUp := false,
               auth := none, exit := none }) :=
    h.frame rfl fun hu => by cases hu
  unfold State.portDied
  simp only
  split
  · unfold blockReleasedListener
    split
    · exact h'.append_plain rfl
    · exact h'
  · exact h'

theorem HoldInv.onMessage (h : HoldInv api since false s) :
    HoldInv api since false (s.onMessage p m) := by
  unfold State.onMessage
  split
  · simp only
    split
    · exact h.frame rfl id
    · exact h.frame rfl id
  · exact h

theorem HoldInv.resumeConnect (hapi : api.Readable) (h : HoldInv api since false s)
    (ht : s.tasks t = some (.connect c a))
    (hs : (s.wake t).resumeConnect api t native c a = some s') : HoldFrom api since s' := by
  have hdone : (∀ e n, a = .restoreSettings e n → s.browserResults n ≠ none) ∧
      ∀ e n, a = .releasePolicy e n → s.browserResults n ≠ none := by
    constructor <;> rintro e n rfl hn <;>
      simp [State.resumeConnect, State.wake, hn] at hs
  obtain ⟨hw, hwait⟩ := h.wake_connect ht hdone.1 hdone.2
  have hfree := h.free_wake ht
  have hc := hwait.toCarries
  have hknows := hwait.knows
  have hkept := hwait.kept
  cases a <;> simp only [State.resumeConnect, Option.map_eq_some_iff] at hs <;>
    obtain ⟨r, hr, rfl⟩ := hs
  case verifyRouting g n =>
    exact hw.connectVerified hc hfree hkept hknows.1 hknows.2.1
      fun hp d hd => (hknows.2.2 hp).2 r d hr hd
  all_goals refine HoldInv.holdFrom ?_
  case assertProxyControl n =>
    refine hw.connectControlled hapi hc hfree fun hsince => ⟨(hkept hsince).1, fun hp v hv => ?_⟩
    exact (hkept hsince).2 hp v (hv ▸ hr)
  case holdsLeakHardening n =>
    refine hw.connectLeaksKnown hc hfree fun hsince => ⟨(hkept hsince).1, (hkept hsince).2.1, ?_⟩
    exact fun v hv => (hkept hsince).2.2 v (hv ▸ hr)
  case isAllowedIncognitoAccess => exact hw.connectAccessKnown hc hfree hkept
  case request => exact hw.connectAnswered hc hfree hkept
  case hardenPolicy g n =>
    exact hw.connectPolicyHardened hc hfree hkept fun v hv => hknows.2 v (hv ▸ hr)
  case hardenPrediction => exact hw.connectHardened hc hfree hkept hknows
  case applyProxy => exact hw.connectApplied hapi hc hfree hkept hknows.1 hknows.2
  case restoreSettings => exact hw.connectRestored hc hfree fun hsince => (hkept hsince).1
  case releasePolicy =>
    refine hw.connectPolicyReleased hc hfree ?_
    by_contra hsince
    exact hkept hsince
  case releasePrediction => exact hw.connectFailed hc

theorem HoldInv.resume (hapi : api.Readable) (h : HoldInv api since false s)
    (ht : s.tasks t = some x) (hs : (s.wake t).resume api t native x = some s') :
    HoldFrom api since s' := by
  have hfree := h.free_wake ht
  have hlast := h.lasting ht
  cases x
  case connect c a => exact h.resumeConnect hapi ht hs
  all_goals
    refine HoldInv.holdFrom ?_
    obtain ⟨r, hr, rfl⟩ := Option.map_eq_some_iff.mp hs
    have hw := h.wake ht rfl
  case hello => exact hw.helloAnswered
  case requestHandshake => exact hw.requestHandshakeDone hfree
  case requestAnswer => exact hw.settle fun e hx => by cases r <;> cases hx
  case asking => exact hw.finishAsking fun e hx => hw.resolved (hx ▸ hr)
  case reconnectLockdown => exact hw.reconnectLocked hapi hfree
  case reconnectRelease => exact hw.reconnectReleased hapi hfree
  case applySplitProxy split previous n =>
    refine hw.applySplitApplied hfree (fun p x hp => ?_) fun {p t' c a x} hp hc => ?_
    · subst hp
      exact h.spare ht
    · subst hp
      exact (h.waiting (wake_tasks hc).2).spare ht
  case applySplitVerify => exact hw.applySplitVerified
  all_goals cases hlast

/-- The events of the runs in which the browser is held: no `disconnect`, and faithful stores. -/
def holding (s : State) : Event → Bool
  | .disconnect _ => false
  | .browserAnswer n r => s.calls[n]?.all (s.faithful · r)
  | _ => true

theorem HoldInv.step {e : Event} (hapi : api.Readable) (h : HoldInv api since false s)
    (he : s.holding e = true) (hs : Extension.step api s e = some s') :
    HoldFrom api since s' := by
  have hnext : HoldInv api since false { s with nextTask := s.nextTask + 1 } :=
    h.aside (by constructor <;> simp)
  have hfree : Free { s with nextTask := s.nextTask + 1 } s.nextTask := by
    refine ⟨?_, Nat.lt_succ_self _⟩
    by_contra hn
    exact Nat.lt_irrefl _ (h.task_lt hn)
  cases e
  case resume t native =>
    obtain ⟨x, ht, hs⟩ := Option.bind_eq_some_iff.mp hs
    exact h.resume hapi ht hs
  all_goals refine HoldInv.holdFrom ?_
  case connect => cases hs; exact hnext.connectStart hapi hfree
  case reconnect => cases hs; exact hnext.reconnectStart hapi hfree
  case disconnect => cases he
  case applySplit => cases hs; exact hnext.applySplitStart hfree
  case ask => cases hs; exact hnext.askStart hfree
  case timeout t =>
    obtain ⟨x, ht, hs⟩ := Option.bind_eq_some_iff.mp hs
    have hlast := h.lasting ht
    cases x <;> cases hs
    case reconnectRelease =>
      exact (h.wake ht rfl).reconnectReleased hapi (h.free_wake ht)
    case disconnectRelease => cases hlast
  case browserAnswer n r =>
    simp only [Extension.step] at hs
    split at hs
    · next call hn =>
      split at hs
      · next hb =>
        cases hs
        exact h.answer hn hb (by simpa [holding, hn] using he)
      · cases hs
    · cases hs
  case message p m =>
    simp only [Extension.step] at hs
    split at hs
    · cases hs; exact h.onMessage
    · cases hs
  case death p =>
    simp only [Extension.step] at hs
    split at hs
    · cases hs; exact h.portDied
    · cases hs

theorem HoldInv.initial {settings : Option ProxyValue} {policy : Option String} :
    HoldInv api none false (.initial settings policy prediction) := by
  constructor <;> intros <;> simp_all [State.initial]

end State

end WarrenSdk.Extension
