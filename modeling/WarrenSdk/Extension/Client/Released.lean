import WarrenSdk.Extension.Client.Listener

/-!
# The listener of a released host

On Chromium the browser must not stay pointed at a listener that a host no longer serves. The parts
of `reconnect` and `applySplit` and the events of a run keep `ReleaseInv`, as long as no `reconnect`
is done with the release of its host while something else than the block was written last. Once
nothing is in flight any more, what was written last is what the browser holds.
-/

namespace WarrenSdk.Extension
open Lib

namespace State

variable {api : ChromeLike} {s s' : State}

/-! ## `reconnect` and `applySplit` -/

/-- The host is released where the block was written last. -/
theorem ReleaseInv.releaseHost (h : ReleaseInv api true s) (hb : s.Blocked) :
    ReleaseInv api false s.releaseHost where
  toCallInv := { h.toCallInv with }
  releasing hr := by cases hr
  up hu := by cases hu
  down _ _ _ _ := hb
  waits {t c a} hx := by
    rcases h.waits hx with hs | hr
    · exact absurd hb hs.2
    · refine .inr ?_
      cases a with
      | applyProxy g n =>
        refine ⟨hr.1, hr.2.1, ?_⟩
        have hrest := hr.2.2
        split at hrest
        · next hhttp =>
          rw [if_pos hhttp]
          exact hrest
        · exact absurd hb hrest.2.not_blocked
      | verifyRouting g n => exact absurd hb hr.2.2.2.not_blocked
      | _ => exact hr

theorem ReleaseInv.reconnectReleased (hget : api.settingsGet = true) (h : ReleaseInv api true s)
    (hb : s.Blocked) (hfree : s.tasks t = none)
    (hconnecting : ∀ {t c a}, s.tasks t = some (.connect c a) → s.connecting = true) :
    ReleaseInv api false (s.reconnectReleased api t options) :=
  (h.releaseHost hb).connectStart hget hfree hconnecting

/-- A running `reconnect` waits for the release of its host. -/
theorem ReleaseInv.suspend_release (h : ReleaseInv api true s) (hfree : s.tasks t = none) :
    ReleaseInv api false (s.suspend t (.reconnectRelease options r)) := by
  have hother {t' y} (hy : y ≠ .reconnectRelease options r) :
      (s.suspend t (.reconnectRelease options r)).tasks t' = some y ↔ s.tasks t' = some y :=
    tasks_suspend_iff hfree hy
  have hself : (s.suspend t (.reconnectRelease options r)).tasks t =
      some (.reconnectRelease options r) := Function.update_self ..
  have hmoving : (s.suspend t (.reconnectRelease options r)).Moving false :=
    .inr ⟨t, _, hself, rfl⟩
  exact
    { sound := h.sound
      took := h.took
      last := h.last
      lockdown := by
        intro t' options' n hx
        exact h.lockdown ((hother fun he => by cases he).mp hx)
      releasing := fun _ => .inr ⟨t, options, r, hself⟩
      up := fun _ hm => absurd hmoving hm
      down := fun _ _ _ hm => absurd hmoving hm
      waits := by
        intro t' c a hx
        refine (h.waits ((hother fun he => by cases he).mp hx)).imp (fun hs => ⟨hmoving, hs.2⟩) ?_
        exact fun hr => hr.frame rfl rfl rfl rfl }

theorem ReleaseInv.reconnectRelease (hget : api.settingsGet = true) (h : ReleaseInv api true s)
    (hb : s.portOpen = false → s.Blocked) (hfree : s.Free t)
    (hlt : ∀ {t}, s.tasks t ≠ none → t < s.nextTask)
    (hconnecting : ∀ {t c a}, s.tasks t = some (.connect c a) → s.connecting = true) :
    ReleaseInv api false (s.reconnectRelease api t native options) := by
  have hreleasing : ReleaseInv api true { s with releasing := true } :=
    { toCallInv := { h.toCallInv with }
      releasing := fun _ => .inl rfl
      up := h.up
      down := h.down
      waits := fun hx => (h.waits hx).imp id fun hr => hr.frame rfl rfl rfl rfl }
  unfold State.reconnectRelease
  dsimp only
  split
  · have ha : Aside { s with releasing := true }
        (State.request api native .disconnect { s with releasing := true }) := request_aside
    have hfree' : Free { s with releasing := true } t := hfree
    exact (hreleasing.aside ha hlt).suspend_release (hfree'.aside ha).1
  · next ho =>
    refine hreleasing.reconnectReleased hget (hb ?_) hfree.1 hconnecting
    exact Bool.eq_false_of_not_eq_true ho

/-- A `reconnect` writes the block, and from then on is under way. -/
theorem ReleaseInv.awaitLockdown (h : ReleaseInv api false s) (hfree : s.tasks t = none)
    (halone : ∀ t c a, s.tasks t ≠ some (.connect c a)) :
    ReleaseInv api false
      (s.awaitCall t (.settingsSet (some (buildChromiumLockdownValue [])))
        (.reconnectLockdown options)) := by
  have hmade := h.toCallInv.make (.settingsSet (some (buildChromiumLockdownValue [])))
  have hself : (s.awaitCall t (.settingsSet (some (buildChromiumLockdownValue [])))
      (.reconnectLockdown options)).tasks t = some (.reconnectLockdown options s.calls.length) :=
    Function.update_self ..
  have hmoving : (s.awaitCall t (.settingsSet (some (buildChromiumLockdownValue [])))
      (.reconnectLockdown options)).Moving false := .inr ⟨t, _, hself, rfl⟩
  have hother {t' y} (hy : y ≠ .reconnectLockdown options s.calls.length) :
      (s.awaitCall t (.settingsSet (some (buildChromiumLockdownValue [])))
        (.reconnectLockdown options)).tasks t' = some y ↔ s.tasks t' = some y :=
    tasks_suspend_iff hfree hy
  exact
    { sound := hmade.sound
      took := hmade.took
      last := hmade.last
      lockdown := by
        intro t' options' n hx
        by_cases he : t' = t
        · subst he
          cases hself.symm.trans hx
          exact List.getElem?_concat_length
        · simp only [awaitCall, Function.update_of_ne he] at hx
          exact append_of_call (h.lockdown hx)
      releasing := fun hr => (h.releasing hr).imp_right fun ⟨t', options', r, hx⟩ =>
        ⟨t', options', r, (hother fun he => by cases he).mpr hx⟩
      up := fun _ hm => absurd hmoving hm
      down := fun _ _ _ hm => absurd hmoving hm
      waits := by
        intro t' c a hx
        exact absurd ((hother fun he => by cases he).mp hx) (halone t' c a) }

/-- A woken `reconnect` runs. -/
theorem ReleaseInv.wake_move (h : ReleaseInv api false s) : ReleaseInv api true (s.wake t) where
  sound := h.sound
  took := h.took
  last := h.last
  lockdown hx := h.lockdown (wake_tasks hx).2
  releasing _ := .inl rfl
  up _ hm := absurd (.inl rfl) hm
  down _ _ _ hm := absurd (.inl rfl) hm
  waits hx := (h.waits (wake_tasks hx).2).imp (fun hs => ⟨.inl rfl, hs.2⟩)
    fun hr => hr.frame rfl rfl rfl rfl

/-- A woken `connect` is the only one, and has found and written what it had. -/
theorem ReleaseInv.wake_connect (h : ReleaseInv api false s)
    (ht : s.tasks t = some (.connect c a)) : ReleaseInv api false (s.wake t) ∧
      (Stale false (s.wake t) ∨ Ready api (s.wake t) c a) := by
  have hother {t' y} (hy : y.isMove = true) : (s.wake t).tasks t' = some y ↔
      s.tasks t' = some y := by
    refine tasks_wake_iff ht ?_
    rintro rfl
    cases hy
  have hmoving : (s.wake t).Moving false ↔ s.Moving false := by
    constructor
    · rintro (hm | ⟨t', y, hy, hmove⟩)
      · cases hm
      · exact .inr ⟨t', y, (hother hmove).mp hy, hmove⟩
    · rintro (hm | ⟨t', y, hy, hmove⟩)
      · cases hm
      · exact .inr ⟨t', y, (hother hmove).mpr hy, hmove⟩
  have hwaits {c' a'} (hw : s.Stale false ∨ s.Ready api c' a') :
      Stale false (s.wake t) ∨ Ready api (s.wake t) c' a' :=
    hw.imp (fun hs => ⟨hmoving.mpr hs.1, hs.2⟩) fun hr => hr.frame rfl rfl rfl rfl
  refine ⟨?_, hwaits (h.waits ht)⟩
  exact
    { sound := h.sound
      took := h.took
      last := h.last
      lockdown := fun hx => h.lockdown (wake_tasks hx).2
      releasing := fun hr => (h.releasing hr).imp_right fun ⟨t', options, r, hx⟩ =>
        ⟨t', options, r, (hother rfl).mpr hx⟩
      up := fun hu hm => h.up hu (hmoving.not.mp hm)
      down := fun hp hu hc hm => h.down hp hu hc (hmoving.not.mp hm)
      waits := fun hx => hwaits (h.waits (wake_tasks hx).2) }

theorem ReleaseInv.reconnectLocked (hget : api.settingsGet = true) (h : ReleaseInv api true s)
    (hb : s.portOpen = false → s.Blocked) (hfree : s.Free t)
    (hlt : ∀ {t}, s.tasks t ≠ none → t < s.nextTask)
    (hconnecting : ∀ {t c a}, s.tasks t = some (.connect c a) → s.connecting = true) :
    ReleaseInv api false (s.reconnectLocked api t native options (.ok v)) :=
  h.reconnectRelease hget hb hfree hlt hconnecting

theorem ReleaseInv.reconnectStart (hapi : api.Readable) (hp : api.platform = .chromium)
    (h : ReleaseInv api false s) (hfree : s.tasks t = none)
    (hconnecting : ∀ {t c a}, s.tasks t = some (.connect c a) → s.connecting = true) :
    ReleaseInv api false (s.reconnectStart api t native options) := by
  unfold State.reconnectStart
  split
  · exact h.connectStart hapi.settingsGet hfree hconnecting
  · split
    · exact h.settle
    · next hc =>
      rw [hp]
      refine h.awaitLockdown hfree fun t' c a ht => ?_
      exact hc (hconnecting ht)

/-- While the tunnel is up, its listener may be written again. -/
theorem ReleaseInv.pointBack (h : ReleaseInv api false s) (hup : s.tunnelUp = true)
    (he : s.endpoints = some e) (hhttp : e.http = some http)
    (halone : ∀ t c a, s.tasks t ≠ some (.connect c a)) :
    ReleaseInv api false { s with calls := s.calls ++
      [.settingsSet (some (buildChromiumProxyValue api.toLowerCase http split))] } where
  toCallInv := h.toCallInv.make _
  releasing := h.releasing
  up _ _ := ⟨e, he, http, split, hhttp, lastWritten_append_write rfl⟩
  down _ hu := by
    rw [hup] at hu
    cases hu
  waits hx := absurd hx (halone _ _ _)

theorem ReleaseInv.applySplitStart (hp : api.platform = .chromium) (h : ReleaseInv api false s)
    (hfree : s.tasks t = none) (hdown : s.connecting = true → s.tunnelUp = false)
    (hconnecting : ∀ {t c a}, s.tasks t = some (.connect c a) → s.connecting = true) :
    ReleaseInv api false (s.applySplitStart api t split) := by
  unfold State.applySplitStart
  split
  · next endpoints hup he =>
    have halone : ∀ t c a, s.tasks t ≠ some (.connect c a) := by
      intro t' c a ht
      rw [hdown (hconnecting ht)] at hup
      cases hup
    have hdropped : ReleaseInv api false { s with onRequestHandler := none } :=
      h.frame rfl fun _ _ _ => Iff.rfl
    unfold applyProxy
    simp only [hp]
    split
    · exact (hdropped.settled _).suspend hfree rfl
    · next http hhttp => exact (hdropped.pointBack hup he hhttp halone).suspend hfree rfl
  · exact h.settle

theorem ReleaseInv.applySplitApplied (hp : api.platform = .chromium) (h : ReleaseInv api false s)
    (hfree : s.tasks t = none) :
    ReleaseInv api false (s.applySplitApplied api t split previous r) := by
  have hverify {s : State} (h : ReleaseInv api false s) (hfree : s.tasks t = none) :
      ReleaseInv api false (s.verifyRouting api t split .applySplitVerify) := by
    unfold verifyRouting assertProxyControl
    rw [if_neg (by rw [hp]; exact fun hf => by cases hf.1)]
    unfold awaitOptional
    split
    · exact (h.read rfl).suspend hfree rfl
    · exact (h.settled _).suspend hfree rfl
  unfold State.applySplitApplied
  split
  · exact h.settle
  · dsimp only
    split
    · exact hverify (h.frame rfl fun _ _ _ => Iff.rfl) hfree
    · exact hverify h hfree

theorem ReleaseInv.applySplitVerified (h : ReleaseInv api false s) :
    ReleaseInv api false (s.applySplitVerified t r) := by
  unfold State.applySplitVerified
  split <;> exact h.settle

/-! ## Requests and questions -/

theorem ReleaseInv.requestHandshakeDone (h : ReleaseInv api false s) (hfree : s.Free t)
    (hlt : ∀ {t}, s.tasks t ≠ none → t < s.nextTask) :
    ReleaseInv api false (s.requestHandshakeDone t native body r) := by
  unfold State.requestHandshakeDone
  split
  · exact h.settle
  · split
    · exact h.settle
    · next hs =>
      have ha := send_aside hs
      exact (h.aside ha hlt).suspend (hfree.aside ha).1 rfl

theorem ReleaseInv.helloAnswered (h : ReleaseInv api false s)
    (hlt : ∀ {t}, s.tasks t ≠ none → t < s.nextTask) :
    ReleaseInv api false (s.helloAnswered t r) := by
  have hclosed : ReleaseInv api false s.closePort := h.aside closePort_aside hlt
  unfold State.helloAnswered
  split
  · split
    · exact h.settle
    · exact hclosed.settle
  · exact hclosed.settle
  · split
    · exact hclosed.settle
    · exact h.settle
  · exact h.settle

theorem ReleaseInv.finishAsking (h : ReleaseInv api false s)
    (hlt : ∀ {t}, s.tasks t ≠ none → t < s.nextTask) :
    ReleaseInv api false (s.finishAsking t q r) := by
  have hasked : ReleaseInv api false { s with questions := s.questions - 1 } :=
    h.frame rfl fun _ _ _ => Iff.rfl
  unfold State.finishAsking
  dsimp only
  split
  · exact (hasked.aside closePort_aside hlt).settle
  · exact hasked.settle

theorem ReleaseInv.askStart (h : ReleaseInv api false s) (hfree : s.Free t)
    (hlt : ∀ {t}, s.tasks t ≠ none → t < s.nextTask) :
    ReleaseInv api false (s.askStart api t native q) := by
  have hasked : ReleaseInv api false { s with questions := s.questions + 1 } :=
    h.frame rfl fun _ _ _ => Iff.rfl
  have hfree' : Free { s with questions := s.questions + 1 } t := hfree
  unfold State.askStart
  dsimp only
  split
  · split
    · exact hasked.finishAsking hlt
    · next ho =>
      have ha := (openPort_aside ho).trans (shakeHands_aside api native)
      exact (hasked.aside ha hlt).suspend (hfree'.aside ha).1 rfl
  · exact (hasked.aside request_aside hlt).suspend (hfree'.aside request_aside).1 rfl

/-! ## Events -/

/-- The listener of a tunnel that dies is blocked, unless a `reconnect` is under way. -/
theorem ReleaseInv.portDied (hp : api.platform = .chromium) (h : ReleaseInv api false s)
    (halone : s.tunnelUp = true → ∀ t c a, s.tasks t ≠ some (.connect c a)) :
    ReleaseInv api false (s.portDied api p) := by
  have hfallen : s.Moving false ∨ s.tunnelUp = false → ReleaseInv api false { s with
      tunnelUp := false } := fun hlost =>
    { toCallInv := { h.toCallInv with }
      releasing := h.releasing
      up := fun hu => by cases hu
      down := fun hproxied _ hc hm => hlost.elim (fun hm' => absurd hm' hm) fun hu =>
        h.down hproxied hu hc hm
      waits := fun hx => (h.waits hx).imp id fun hr => hr.frame rfl rfl rfl rfl }
  unfold State.portDied
  dsimp only
  split
  · next hlost =>
    rw [Bool.and_eq_true] at hlost
    have hblocked : ReleaseInv api false { s with
        tunnelUp := false
        calls := s.calls ++ [.settingsSet (some (buildChromiumLockdownValue []))] } :=
      { toCallInv := { h.toCallInv.make (.settingsSet (some (buildChromiumLockdownValue []))) with }
        releasing := h.releasing
        up := fun hu => by cases hu
        down := fun _ _ _ _ => lastWritten_append_write rfl
        waits := fun hx => absurd hx (halone hlost.1 _ _ _) }
    unfold blockReleasedListener
    simp only [hp]
    exact hblocked.frame rfl fun _ _ _ => Iff.rfl
  · next hlost =>
    refine (hfallen ?_).frame rfl fun _ _ _ => Iff.rfl
    cases hu : s.tunnelUp
    · exact .inr rfl
    · rw [hu, Bool.true_and, Bool.not_eq_true', Bool.not_eq_false] at hlost
      rcases h.releasing hlost with hr | ⟨t, options, r, hx⟩
      · cases hr
      · exact .inl (.inr ⟨t, _, hx, rfl⟩)

theorem ReleaseInv.onMessage (h : ReleaseInv api false s) :
    ReleaseInv api false (s.onMessage p m) := by
  unfold State.onMessage
  split
  · dsimp only
    split
    · exact h.frame rfl fun _ _ _ => Iff.rfl
    · exact h.frame rfl fun _ _ _ => Iff.rfl
  · exact h

/-- A `reconnect` is about to give up its host: what it waited for is settled, or its time is up. -/
def givesUp (s : State) : Event → Bool
  | .resume t _ =>
    match s.tasks t with
    | some (.reconnectRelease _ r) => (s.results r).isSome
    | some (.reconnectLockdown _ n) => !s.portOpen && (s.browserResults n).isSome
    | _ => false
  | .timeout t =>
    match s.tasks t with
    | some (.reconnectRelease _ _) => true
    | _ => false
  | _ => false

/-- The calls on the proxy settings are answered in the order they are made, and what is written
takes effect. -/
def inOrder (s : State) : Event → Bool
  | .browserAnswer n r =>
    s.calls[n]?.all fun c =>
      c.written = none && c ≠ .settingsGet ||
        ((List.range n).all fun m =>
          s.calls[m]?.all (fun d => decide (d.written = none)) || (s.browserResults m).isSome) &&
        (c.written = none || tookEffect r)
  | _ => true

theorem of_inOrder (h : s.inOrder (.browserAnswer n r) = true) (hc : s.calls[n]? = some c) :
    (c.written ≠ none → s.view.ledger.InOrder BrowserCall.written n ∧ tookEffect r = true) ∧
      (c = .settingsGet → s.view.ledger.InOrder BrowserCall.written n) := by
  simp only [inOrder, hc, Option.all_some, Bool.or_eq_true, Bool.and_eq_true, decide_eq_true_eq,
    List.all_eq_true, List.mem_range] at h
  have horder (hall : ∀ m < n, (s.calls[m]?.all fun d => decide (d.written = none)) = true ∨
      (s.browserResults m).isSome = true) : s.view.ledger.InOrder BrowserCall.written n := by
    intro m d hm hd hwrites
    have hd : s.calls[m]? = some d := hd
    rcases hall m hm with hnone | hr
    · rw [hd, Option.all_some, decide_eq_true_eq] at hnone
      exact absurd hnone hwrites
    · exact Option.isSome_iff_ne_none.mp hr
  rcases h with ⟨hnone, hget⟩ | ⟨hall, htook⟩
  · exact ⟨fun hwrites => absurd hnone hwrites, fun hc => absurd hc hget⟩
  · exact ⟨fun hwrites => ⟨horder hall, htook.resolve_left hwrites⟩, fun _ => horder hall⟩

/-- A `connect` goes on. -/
theorem ReleaseInv.resumeConnect (hp : api.platform = .chromium) (h : ReleaseInv api false s)
    (hi : HoldInv api since false s) (ht : s.tasks t = some (.connect c a))
    (hs : (s.wake t).resumeConnect api t native c a = some s') : ReleaseInv api false s' := by
  obtain ⟨hw, hready⟩ := h.wake_connect ht
  have hup : (s.wake t).tunnelUp = false := hi.down (hi.connecting ht)
  have hrun : Running (s.wake t) :=
    ⟨hi.connecting ht, fun t' c' a' ht' => (wake_tasks ht').1 (hi.unique (wake_tasks ht').2 ht)⟩
  have hfree : (s.wake t).Free t := hi.free_wake ht
  have hlt : ∀ {t'}, (s.wake t).tasks t' ≠ none → t' < (s.wake t).nextTask :=
    fun ht' => hi.task_lt (wake_ne_none ht')
  cases a with
  | assertProxyControl n =>
    obtain ⟨r, hr, rfl⟩ := Option.map_eq_some_iff.mp hs
    refine hw.connectControlled hrun hup hfree.1 (hready.imp id fun hf => ⟨hf.1, fun hp => ?_⟩)
    obtain ⟨hblocked, -, -, hfound⟩ := hf.2 hp
    exact ⟨hblocked, fun v hv => hfound v (hv ▸ hr)⟩
  | holdsLeakHardening n =>
    obtain ⟨r, hr, rfl⟩ := Option.map_eq_some_iff.mp hs
    exact hw.connectLeaksKnown hrun hup hfree hlt hready
  | isAllowedIncognitoAccess n =>
    obtain ⟨r, hr, rfl⟩ := Option.map_eq_some_iff.mp hs
    exact hw.connectAccessKnown hrun hup hfree hlt hready
  | request n =>
    obtain ⟨r, hr, rfl⟩ := Option.map_eq_some_iff.mp hs
    exact hw.connectAnswered hrun hup hfree.1 hready
  | hardenPolicy g n =>
    obtain ⟨r, hr, rfl⟩ := Option.map_eq_some_iff.mp hs
    exact hw.connectPolicyHardened hrun hup hfree.1 hready
  | hardenPrediction g n =>
    obtain ⟨r, hr, rfl⟩ := Option.map_eq_some_iff.mp hs
    exact hw.connectHardened hp hrun hup hfree.1 hready
  | applyProxy g n =>
    obtain ⟨r, hr, rfl⟩ := Option.map_eq_some_iff.mp hs
    exact hw.connectApplied hp hrun hup hfree.1 hready hr
  | verifyRouting g n =>
    obtain ⟨r, hr, rfl⟩ := Option.map_eq_some_iff.mp hs
    exact hw.connectVerified hrun hup hfree.1 hready
  | restoreSettings e n =>
    obtain ⟨r, hr, rfl⟩ := Option.map_eq_some_iff.mp hs
    exact hw.connectRestored hrun hfree.1 hready
  | releasePolicy e n =>
    obtain ⟨r, hr, rfl⟩ := Option.map_eq_some_iff.mp hs
    exact hw.connectPolicyReleased hrun hfree.1 hready
  | releasePrediction e n =>
    obtain ⟨r, hr, rfl⟩ := Option.map_eq_some_iff.mp hs
    exact hw.connectFailed hrun hready

theorem ReleaseInv.resume (hapi : api.Readable) (hp : api.platform = .chromium)
    (h : ReleaseInv api false s) (hi : HoldInv api since false s) (ht : s.tasks t = some x)
    (hb : s.givesUp (.resume t native) = true → s.Blocked)
    (hs : (s.wake t).resume api t native x = some s') : ReleaseInv api false s' := by
  have hfree : (s.wake t).Free t := hi.free_wake ht
  have hlt : ∀ {t'}, (s.wake t).tasks t' ≠ none → t' < (s.wake t).nextTask :=
    fun ht' => hi.task_lt (wake_ne_none ht')
  have hconnecting : ∀ {t' c a}, (s.wake t).tasks t' = some (.connect c a) →
      (s.wake t).connecting = true := fun ht' => hi.connecting (wake_tasks ht').2
  have hlast := hi.lasting ht
  cases x with
  | connect c a => exact h.resumeConnect hp hi ht hs
  | hello m =>
    obtain ⟨r, -, rfl⟩ := Option.map_eq_some_iff.mp hs
    exact (h.wake ht rfl).helloAnswered hlt
  | requestHandshake body hello =>
    obtain ⟨r, -, rfl⟩ := Option.map_eq_some_iff.mp hs
    exact (h.wake ht rfl).requestHandshakeDone hfree hlt
  | requestAnswer m =>
    obtain ⟨r, -, rfl⟩ := Option.map_eq_some_iff.mp hs
    exact (h.wake ht rfl).settle
  | asking q request =>
    obtain ⟨r, -, rfl⟩ := Option.map_eq_some_iff.mp hs
    exact (h.wake ht rfl).finishAsking hlt
  | reconnectLockdown options n =>
    obtain ⟨r, hr, rfl⟩ := Option.map_eq_some_iff.mp hs
    have hr : s.browserResults n = some r := hr
    have htook := h.took (h.lockdown ht) (Option.some_ne_none _) hr
    cases r with
    | error e => cases htook
    | ok v =>
      refine h.wake_move.reconnectLocked hapi.settingsGet (fun ho => hb ?_) hfree hlt hconnecting
      have ho : s.portOpen = false := ho
      simp [givesUp, ht, hr, ho]
  | reconnectRelease options request =>
    obtain ⟨r, hr, rfl⟩ := Option.map_eq_some_iff.mp hs
    have hr : s.results request = some r := hr
    have hblocked : s.Blocked := hb (by simp [givesUp, ht, hr])
    exact h.wake_move.reconnectReleased hapi.settingsGet hblocked hfree.1 hconnecting
  | applySplitProxy split previous n =>
    obtain ⟨r, -, rfl⟩ := Option.map_eq_some_iff.mp hs
    exact (h.wake ht rfl).applySplitApplied hp hfree.1
  | applySplitVerify n =>
    obtain ⟨r, -, rfl⟩ := Option.map_eq_some_iff.mp hs
    exact (h.wake ht rfl).applySplitVerified
  | disconnectRelease | disconnectSettings | disconnectPolicy | disconnectPrediction => cases hlast

/-- The events of the runs in which every `reconnect` gives its host up while the block was written
last. -/
structure Releasing (s : State) (e : Event) : Prop where
  holding : s.holding e = true
  inOrder : s.inOrder e = true
  losses : s.LossesSeen e
  blocked : s.givesUp e = true → s.Blocked

theorem ReleaseInv.step {e : Event} (hapi : api.Readable) (hp : api.platform = .chromium)
    (h : ReleaseInv api false s) (hi : HoldInv api since false s) (he : s.Releasing e)
    (hs : Extension.step api s e = some s') : ReleaseInv api false s' := by
  have hnext : ReleaseInv api false { s with nextTask := s.nextTask + 1 } :=
    h.frame rfl fun _ _ _ => Iff.rfl
  have hfree : Free { s with nextTask := s.nextTask + 1 } s.nextTask := by
    refine ⟨?_, Nat.lt_succ_self _⟩
    by_contra hn
    exact Nat.lt_irrefl _ (hi.task_lt hn)
  have hlt : ∀ {t}, s.tasks t ≠ none → t < s.nextTask + 1 :=
    fun ht => Nat.lt_succ_of_lt (hi.task_lt ht)
  cases e with
  | connect options =>
    cases hs
    exact hnext.connectStart hapi.settingsGet hfree.1 hi.connecting
  | reconnect options native =>
    cases hs
    exact hnext.reconnectStart hapi hp hfree.1 hi.connecting
  | disconnect native => cases he.holding
  | applySplit split =>
    cases hs
    exact hnext.applySplitStart hp hfree.1 hi.down hi.connecting
  | ask q native =>
    cases hs
    exact hnext.askStart hfree hlt
  | resume t native =>
    obtain ⟨x, ht, hs⟩ := Option.bind_eq_some_iff.mp hs
    exact h.resume hapi hp hi ht he.blocked hs
  | timeout t =>
    obtain ⟨x, ht, hs⟩ := Option.bind_eq_some_iff.mp hs
    have hlast := hi.lasting ht
    cases x with
    | reconnectRelease options r =>
      cases hs
      have hblocked : s.Blocked := he.blocked (by simp [givesUp, ht])
      exact h.wake_move.reconnectReleased hapi.settingsGet hblocked (hi.free_wake ht).1
        fun ht' => hi.connecting (wake_tasks ht').2
    | disconnectRelease r => cases hlast
    | _ => cases hs
  | browserAnswer n r =>
    simp only [Extension.step] at hs
    split at hs
    · next c hc =>
      split at hs
      · next hnone =>
        cases hs
        obtain ⟨hwrite, hget⟩ := of_inOrder he.inOrder hc
        have hfaithful : s.faithful c r = true := by simpa [State.holding, hc] using he.holding
        exact h.answer hc hnone hwrite fun hc' => ⟨hget hc', hfaithful⟩
      · cases hs
    · cases hs
  | message p m =>
    simp only [Extension.step] at hs
    split at hs
    · cases hs
      exact h.onMessage
    · cases hs
  | death p =>
    simp only [Extension.step] at hs
    split at hs
    · cases hs
      refine h.portDied hp fun hu t c a ht => ?_
      rw [hi.down (hi.connecting ht)] at hu
      cases hu
    · cases hs

/-! ## Runs -/

theorem ReleaseInv.initial {settings : Option ProxyValue} {policy : Option String} :
    ReleaseInv api false (.initial settings policy prediction) where
  sound _ _ := rfl
  took hc := by cases hc
  last hw := by cases hw
  lockdown hx := by cases hx
  releasing hr := by cases hr
  up hu := by cases hu
  down hp := by cases hp
  waits hx := by cases hx

/-- No operation is in flight, nor a write. -/
structure Settled (s : State) : Prop where
  idle : s.idle = true
  written : ∀ {n c}, s.calls[n]? = some c → c.written ≠ none → s.browserResults n ≠ none

instance : Decidable s.Blocked := inferInstanceAs (Decidable (_ = _))

instance (s : State) : (e : Event) → Decidable (s.LossesSeen e)
  | .resume _ _ => inferInstanceAs (Decidable (_ ∧ _))
  | .connect _ | .reconnect _ _ | .disconnect _ | .applySplit _ | .ask _ _ | .timeout _
  | .browserAnswer _ _ | .message _ _ | .death _ => inferInstanceAs (Decidable True)

instance (e : Event) : Decidable (s.Releasing e) :=
  decidable_of_iff
    (s.holding e = true ∧ s.inOrder e = true ∧ s.LossesSeen e ∧ (s.givesUp e = true → s.Blocked))
    ⟨fun ⟨h₁, h₂, h₃, h₄⟩ => ⟨h₁, h₂, h₃, h₄⟩, fun h => ⟨h.1, h.2, h.3, h.4⟩⟩

instance : Decidable s.Settled :=
  decidable_of_iff
    (s.idle = true ∧ ∀ n < s.calls.length,
      (s.calls[n]?.all fun c => decide (c.written = none)) = true ∨
        (s.browserResults n).isSome = true)
    ⟨fun ⟨hidle, hall⟩ => ⟨hidle, fun {n c} hc hwrites => by
        rcases hall n (Ledger.lt_length_of_getElem? hc) with hnone | hr
        · rw [hc, Option.all_some, decide_eq_true_eq] at hnone
          exact absurd hnone hwrites
        · exact Option.isSome_iff_ne_none.mp hr⟩,
      fun h => ⟨h.idle, fun n _ => by
        by_cases hr : s.browserResults n = none
        · refine .inl (Option.all_eq_true ..|>.mpr fun c hc => decide_eq_true ?_)
          by_contra hwrites
          exact h.written hc hwrites hr
        · exact .inr (Option.isSome_iff_ne_none.mpr hr)⟩⟩

end State

end WarrenSdk.Extension
