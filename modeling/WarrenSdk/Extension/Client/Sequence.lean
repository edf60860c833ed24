import WarrenSdk.Lib.Run
import WarrenSdk.Extension.Client.Aside

/-!
# One operation at a time

The runs of a client in which `connect`, `reconnect`, `disconnect` and `applySplit` do not overlap:
one is called only when none is in flight, while everything else may happen at any time. `InFlight`
carries a property of such runs, which says what the browser owes to the operation in flight; its
step rule leaves the parts of the operations to check, and what an answer of the browser and the
death of a host do.
-/

namespace WarrenSdk.Extension

/-- A call of `connect`, `reconnect`, `disconnect` or `applySplit`. -/
def Task.isOperation : Task → Bool
  | .hello _ | .requestHandshake _ _ | .requestAnswer _ | .asking _ _ => false
  | _ => true

inductive Operation
  | connect (options : BrowserVpnConnectOptions)
  | reconnect (options : BrowserVpnConnectOptions)
  | disconnect
  | applySplit (split : SplitTunnelConfig)
deriving DecidableEq

/-- The operation an event calls. -/
def Event.operation : Event → Option Operation
  | .connect options => some (.connect options)
  | .reconnect options _ => some (.reconnect options)
  | .disconnect _ => some .disconnect
  | .applySplit split => some (.applySplit split)
  | _ => none

/-- What the operations read and write of the browser, and what of the client they route it by. -/
structure BrowserView where
  tunnelUp : Bool
  endpoints : Option ExtensionEndpoints
  auth : Option ExtensionProxyAuth
  onRequestHandler : Option OnRequestHandler
  handlers : List OnRequestHandler
  nextHandler : Nat
  calls : List BrowserCall
  browserResults : Nat → Option BrowserResult
  settings : Option ProxyValue

namespace State

def view (s : State) : BrowserView where
  tunnelUp := s.tunnelUp
  endpoints := s.endpoints
  auth := s.auth
  onRequestHandler := s.onRequestHandler
  handlers := s.handlers
  nextHandler := s.nextHandler
  calls := s.calls
  browserResults := s.browserResults
  settings := s.settings

/-- No operation is in flight. -/
def idle (s : State) : Bool :=
  (List.range s.nextTask).all fun t => (s.tasks t).all fun x => !x.isOperation

end State

/-- The operation that was called last. -/
structure Called where
  operation : Operation
  task : Nat
  before : BrowserView

/-- A client whose operations do not overlap. -/
structure Sequence where
  client : State
  last : Option Called := none

def Sequence.step (api : ChromeLike) (q : Sequence) (e : Event) : Option Sequence :=
  match e.operation with
  | none => (Extension.step api q.client e).map fun s => { q with client := s }
  | some operation =>
    if q.client.idle then
      (Extension.step api q.client e).map fun s =>
        { client := s
          last := some
            { operation := operation
              task := q.client.nextTask
              before := q.client.view } }
    else none

/-- What a call writes to the proxy settings. -/
def BrowserCall.written : BrowserCall → Option (Option ProxyValue)
  | .settingsSet (some value) => some (some value)
  | .settingsClear => some Option.none
  | _ => Option.none

/-- A call that rejects, or resolves `false`, took no effect. -/
def tookEffect : BrowserResult → Bool
  | .error _ | .ok (.bool false) => false
  | .ok _ => true

/-- What the view becomes when the browser answers the call `n`. -/
def BrowserView.answer (n : Nat) (c : BrowserCall) (r : BrowserResult) (v : BrowserView) :
    BrowserView :=
  { v with
    settings := if tookEffect r then c.written.getD v.settings else v.settings
    browserResults := Function.update v.browserResults n (some r) }

/-- What the view becomes when the host dies, where `lost` says whether its tunnel was. -/
def BrowserView.die (api : ChromeLike) (lost : Bool) (v : BrowserView) : BrowserView :=
  { v with
    tunnelUp := false
    auth := none
    calls :=
      if lost = true ∧ api.platform = .chromium then
        v.calls ++ [.settingsSet (some (buildChromiumLockdownValue []))]
      else v.calls }

namespace State
open Lib

/-- `J` says what the view owes to the operation in flight, if there is one. -/
structure InFlight (J : Option Task → BrowserView → Prop) (op : Option (Nat × Task)) (s : State) :
    Prop where
  task_lt : ∀ {t}, s.tasks t ≠ none → t < s.nextTask
  only : ∀ {t x}, s.tasks t = some x → x.isOperation = true → op = some (t, x)
  there : ∀ {t x}, op = some (t, x) → s.tasks t = some x ∧ x.isOperation = true
  owes : J (op.map Prod.snd) s.view

/-- The operation `t` runs: none is in flight but it, and it is suspended nowhere. -/
structure Runs (t : Nat) (s : State) : Prop where
  task_lt : ∀ {t}, s.tasks t ≠ none → t < s.nextTask
  alone : ∀ {t x}, s.tasks t = some x → x.isOperation = false
  free : s.tasks t = none
  lt : t < s.nextTask

def Owes (J : Option Task → BrowserView → Prop) (s : State) : Prop := ∃ op, InFlight J op s

variable {api : ChromeLike} {J : Option Task → BrowserView → Prop} {s s' : State}

theorem InFlight.idle_iff (h : InFlight J op s) : s.idle = true ↔ op = none := by
  rw [idle, List.all_eq_true]
  constructor
  · intro hidle
    cases hop : op with
    | none => rfl
    | some p =>
      obtain ⟨ht, hx⟩ := h.there hop
      have hlt := h.task_lt (ht ▸ Option.some_ne_none _)
      have hall := hidle _ (List.mem_range.mpr hlt)
      rw [ht, Option.all_some, hx] at hall
      cases hall
  · rintro rfl t -
    cases ht : s.tasks t with
    | none => rfl
    | some x =>
      rw [Option.all_some, Bool.not_eq_true']
      by_contra hx
      cases h.only ht (Bool.eq_true_of_not_eq_false hx)

/-! ## Ends of a part of an operation -/

theorem Runs.settle (h : Runs t s) (hJ : J none s.view) (r : TaskResult) :
    Owes J (s.settle t r) :=
  ⟨none,
    { task_lt := h.task_lt
      only := by
        intro t' x ht hx
        rw [h.alone ht] at hx
        cases hx
      there := by rintro t' x ⟨⟩
      owes := hJ }⟩

theorem Runs.suspend (h : Runs t s) (hx : x.isOperation = true) (hJ : J (some x) s.view) :
    Owes J (s.suspend t x) :=
  ⟨some (t, x),
    { task_lt := by
        intro t' ht
        by_cases htt : t' = t
        · exact htt ▸ h.lt
        · simp only [State.suspend, Function.update_of_ne htt] at ht
          exact h.task_lt ht
      only := by
        intro t' x' ht hx'
        by_cases htt : t' = t
        · subst htt
          simp only [State.suspend, Function.update_self] at ht
          cases ht
          rfl
        · simp only [State.suspend, Function.update_of_ne htt] at ht
          rw [h.alone ht] at hx'
          cases hx'
      there := by
        rintro t' x' ⟨⟩
        exact ⟨Function.update_self .., hx⟩
      owes := hJ }⟩

/-- A change that leaves the calls in flight as they are. -/
theorem Runs.frame (h : Runs t s) (ht : s'.tasks = s.tasks) (hn : s'.nextTask = s.nextTask) :
    Runs t s' where
  task_lt ht' := hn ▸ h.task_lt (ht ▸ ht')
  alone ht' := h.alone (ht ▸ ht')
  free := ht ▸ h.free
  lt := hn ▸ h.lt

theorem Runs.aside (h : Runs t s) (ha : Aside s s') : Runs t s' where
  task_lt {t'} ht := by
    by_cases hlt : t' < s.nextTask
    · exact Nat.lt_of_lt_of_le hlt ha.nextTask
    · rcases ha.fresh (Nat.not_lt.mp hlt) with heq | ⟨hlt', -⟩
      · rw [heq] at ht
        exact absurd (h.task_lt ht) hlt
      · exact hlt'
  alone {t' x} ht := by
    cases hx : x.isRequest with
    | true => cases x <;> first | rfl | cases hx
    | false => exact h.alone (ha.tasks_of ht hx)
  free := (ha.old h.lt).1.trans h.free
  lt := Nat.lt_of_lt_of_le h.lt ha.nextTask

theorem Aside.view (ha : Aside s s') : s'.view = s.view := by
  simp only [State.view, ha.tunnelUp, ha.endpoints, ha.auth, ha.onRequestHandler, ha.handlers,
    ha.nextHandler, ha.calls, ha.browserResults, ha.settings]

theorem Runs.awaitCall (h : Runs t s) {task : Nat → Task}
    (hx : (task s.calls.length).isOperation = true)
    (hJ : J (some (task s.calls.length)) { s.view with calls := s.calls ++ [c] }) :
    Owes J (s.awaitCall t c task) :=
  Runs.suspend (s := { s with calls := s.calls ++ [c] }) (h.frame rfl rfl) hx hJ

theorem Runs.awaitSettled (h : Runs t s) {task : Nat → Task}
    (hx : (task s.calls.length).isOperation = true)
    (hJ : J (some (task s.calls.length))
      { s.view with
        calls := s.calls ++ [.none]
        browserResults := Function.update s.browserResults s.calls.length (some r) }) :
    Owes J (s.awaitSettled t r task) :=
  Runs.suspend
    (s := { s with
      calls := s.calls ++ [.none]
      browserResults := Function.update s.browserResults s.calls.length (some r) })
    (h.frame rfl rfl) hx hJ

/-- A call on a member that the browser may lack. -/
theorem Runs.awaitOptional (h : Runs t s) {task : Nat → Task}
    (hx : (task s.calls.length).isOperation = true)
    (hcall : has = true →
      J (some (task s.calls.length)) { s.view with calls := s.calls ++ [c] })
    (hnone : has = false →
      J (some (task s.calls.length))
        { s.view with
          calls := s.calls ++ [.none]
          browserResults :=
            Function.update s.browserResults s.calls.length (some (.ok .undefined)) }) :
    Owes J (s.awaitOptional has t c task) := by
  unfold State.awaitOptional
  split
  · next hhas => exact h.awaitCall hx (hcall hhas)
  · next hhas => exact h.awaitSettled hx (hnone (Bool.eq_false_of_not_eq_true hhas))

theorem Runs.request (h : Runs t s) (hx : x.isOperation = true) (hJ : J (some x) s.view)
    (native : Bool) (body : HostRequest) :
    Owes J ((s.request api native body).suspend t x) := by
  refine (h.aside request_aside).suspend hx ?_
  rw [request_aside.view]
  exact hJ

theorem removeOnRequestHandler_runs (h : Runs t s) : Runs t s.removeOnRequestHandler := by
  unfold removeOnRequestHandler
  split
  · exact h.frame rfl rfl
  · exact h

theorem releaseHost_runs (h : Runs t s) : Runs t s.releaseHost := by
  have hcleared : Runs t
      { s with tunnelUp := false, endpoints := none, auth := none, exit := none, source := none } :=
    h.frame rfl rfl
  have ha : Aside
      { s with tunnelUp := false, endpoints := none, auth := none, exit := none, source := none }
      (State.closePort { s with
        tunnelUp := false, endpoints := none, auth := none, exit := none, source := none }) :=
    closePort_aside
  exact (hcleared.aside ha).frame rfl rfl

theorem Owes.mono {J J' : Option Task → BrowserView → Prop} (h : Owes J s)
    (hJ : ∀ {op v}, J op v → J' op v) : Owes J' s := by
  obtain ⟨op, h⟩ := h
  exact ⟨op, { h with owes := hJ h.owes }⟩

theorem Owes.and {J J' : Option Task → BrowserView → Prop} (h : Owes J s) (h' : Owes J' s) :
    Owes (fun op v => J op v ∧ J' op v) s := by
  obtain ⟨op, h⟩ := h
  obtain ⟨op', h'⟩ := h'
  have hop : op = op' := by
    cases op with
    | none =>
      cases op' with
      | none => rfl
      | some p' =>
        obtain ⟨ht, hx⟩ := h'.there rfl
        exact h.only ht hx
    | some p =>
      obtain ⟨ht, hx⟩ := h.there rfl
      exact (h'.only ht hx).symm
  exact ⟨op, { h with owes := ⟨h.owes, hop ▸ h'.owes⟩ }⟩

/-! ## Parts that are no part of an operation -/

/-- The view stays, and the operation in flight. -/
structure Apart (s s' : State) : Prop where
  view : s'.view = s.view
  task_lt : (∀ {t}, s.tasks t ≠ none → t < s.nextTask) →
    ∀ {t}, s'.tasks t ≠ none → t < s'.nextTask
  operation : ∀ {t x}, x.isOperation = true → (s'.tasks t = some x ↔ s.tasks t = some x)

theorem InFlight.apart (h : InFlight J op s) (ha : Apart s s') : InFlight J op s' where
  task_lt := ha.task_lt h.task_lt
  only ht hx := h.only ((ha.operation hx).mp ht) hx
  there hop := by
    obtain ⟨ht, hx⟩ := h.there hop
    exact ⟨(ha.operation hx).mpr ht, hx⟩
  owes := ha.view ▸ h.owes

theorem Apart.trans (h : Apart s u) (h' : Apart u s') : Apart s s' where
  view := h'.view.trans h.view
  task_lt hlt := h'.task_lt (h.task_lt hlt)
  operation hx := (h'.operation hx).trans (h.operation hx)

/-- A change of neither the view nor the calls in flight. -/
theorem Apart.of_eq (hview : s'.view = s.view) (ht : s'.tasks = s.tasks)
    (hn : s'.nextTask = s.nextTask) : Apart s s' where
  view := hview
  task_lt hlt _ h := hn ▸ hlt (ht ▸ h)
  operation _ := by rw [ht]

theorem isOperation_of_isRequest {x : Task} (h : x.isRequest = true) : x.isOperation = false := by
  cases x <;> first | rfl | cases h

theorem Aside.apart (ha : Aside s s') (hlt : ∀ {t}, s.tasks t ≠ none → t < s.nextTask) :
    Apart s s' where
  view := ha.view
  task_lt _ {t} ht := by
    by_cases htlt : t < s.nextTask
    · exact Nat.lt_of_lt_of_le htlt ha.nextTask
    · rcases ha.fresh (Nat.not_lt.mp htlt) with heq | ⟨hlt', -⟩
      · exact absurd (hlt (heq ▸ ht)) htlt
      · exact hlt'
  operation {t x} hx := by
    have hreq : x.isRequest = false := by
      by_contra hreq
      rw [isOperation_of_isRequest (Bool.eq_true_of_not_eq_false hreq)] at hx
      cases hx
    refine ⟨fun ht => ha.tasks_of ht hreq, fun ht => ?_⟩
    exact (ha.old (hlt (ht ▸ Option.some_ne_none x))).1.trans ht

/-- A call that is no operation is woken. -/
theorem Apart.wake (ht : s.tasks t = some x) (hx : x.isOperation = false) : Apart s (s.wake t) where
  view := rfl
  task_lt hlt {t'} ht' := by
    by_cases htt : t' = t
    · subst htt
      exact hlt (ht ▸ Option.some_ne_none x)
    · simp only [State.wake, Function.update_of_ne htt] at ht'
      exact hlt ht'
  operation {t' x'} hx' := by
    by_cases htt : t' = t
    · subst htt
      refine ⟨fun h => ?_, fun h => ?_⟩
      · simp [State.wake] at h
      · rw [ht] at h
        cases h
        rw [hx] at hx'
        cases hx'
    · simp [State.wake, htt]

theorem Apart.settle : Apart s (s.settle t r) := .of_eq rfl rfl rfl

/-- A call is suspended as no operation. -/
theorem Apart.suspend (hfree : s.tasks t = none) (hlt : t < s.nextTask)
    (hx : x.isOperation = false) : Apart s (s.suspend t x) where
  view := rfl
  task_lt hlt' {t'} ht := by
    by_cases htt : t' = t
    · exact htt ▸ hlt
    · simp only [State.suspend, Function.update_of_ne htt] at ht
      exact hlt' ht
  operation {t' x'} hx' := by
    by_cases htt : t' = t
    · subst htt
      refine ⟨fun h => ?_, fun h => ?_⟩
      · simp only [State.suspend, Function.update_self] at h
        cases h
        rw [hx] at hx'
        cases hx'
      · rw [hfree] at h
        cases h
    · simp [State.suspend, htt]

theorem finishAsking_apart (hlt : ∀ {t}, s.tasks t ≠ none → t < s.nextTask) :
    Apart s (s.finishAsking t q r) := by
  unfold finishAsking
  dsimp only
  have hquestions : Apart s { s with questions := s.questions - 1 } := .of_eq rfl rfl rfl
  split
  · exact (hquestions.trans (closePort_aside.apart hlt)).trans .settle
  · exact hquestions.trans .settle

theorem askStart_apart (hlt : ∀ {t}, s.tasks t ≠ none → t < s.nextTask) (hfree : s.tasks t = none)
    (ht : t < s.nextTask) : Apart s (s.askStart api t native q) := by
  have hquestions : Apart s { s with questions := s.questions + 1 } := .of_eq rfl rfl rfl
  unfold askStart
  dsimp only
  split
  · split
    · exact hquestions.trans (finishAsking_apart hlt)
    · next ho =>
      have ha := (openPort_aside ho).trans (shakeHands_aside api native)
      refine (hquestions.trans (ha.apart hlt)).trans (.suspend ?_ ?_ rfl)
      · exact (ha.old ht).1.trans hfree
      · exact Nat.lt_of_lt_of_le ht ha.nextTask
  · next body hbody =>
    have ha : Aside { s with questions := s.questions + 1 }
        (State.request api native body { s with questions := s.questions + 1 }) := request_aside
    refine (hquestions.trans (ha.apart hlt)).trans (.suspend ?_ ?_ rfl)
    · exact (ha.old ht).1.trans hfree
    · exact Nat.lt_of_lt_of_le ht ha.nextTask

/-- A call that is no operation goes on. -/
theorem resume_apart (hlt : ∀ {t}, s.tasks t ≠ none → t < s.nextTask) (ht : s.tasks t = some x)
    (hx : x.isOperation = false) (hs : (s.wake t).resume api t native x = some s') :
    Apart s s' := by
  have hwake : Apart s (s.wake t) := .wake ht hx
  have hlt' : ∀ {t'}, (s.wake t).tasks t' ≠ none → t' < (s.wake t).nextTask := hwake.task_lt hlt
  have htlt : t < s.nextTask := hlt (ht ▸ Option.some_ne_none x)
  have hfree : (s.wake t).tasks t = none := Function.update_self ..
  cases x with
  | hello m =>
    obtain ⟨r, -, rfl⟩ := Option.map_eq_some_iff.mp hs
    have hclose : Apart s ((s.wake t).closePort.settle t
        (.error (.of .protocol "host speaks an unsupported protocol version"))) :=
      (hwake.trans (closePort_aside.apart hlt')).trans .settle
    unfold helloAnswered
    dsimp only
    split
    · split
      · exact hwake.trans .settle
      · exact hclose
    · exact hclose
    · split
      · exact hclose
      · exact hwake.trans .settle
    · exact hwake.trans .settle
  | requestHandshake body handshake =>
    obtain ⟨r, -, rfl⟩ := Option.map_eq_some_iff.mp hs
    unfold requestHandshakeDone
    split
    · exact hwake.trans .settle
    · split
      · exact hwake.trans .settle
      · next hsend =>
        have ha := send_aside hsend
        refine (hwake.trans (ha.apart hlt')).trans (.suspend ?_ ?_ rfl)
        · exact (ha.old htlt).1.trans hfree
        · exact Nat.lt_of_lt_of_le htlt ha.nextTask
  | requestAnswer m =>
    obtain ⟨r, -, rfl⟩ := Option.map_eq_some_iff.mp hs
    exact hwake.trans .settle
  | asking question task =>
    obtain ⟨r, -, rfl⟩ := Option.map_eq_some_iff.mp hs
    exact hwake.trans (finishAsking_apart hlt')
  | _ => cases hx

theorem onMessage_apart (p : Nat) (m : Option HostMessage) : Apart s (s.onMessage p m) := by
  unfold onMessage
  split
  · dsimp only
    split
    · exact .of_eq rfl rfl rfl
    · exact .of_eq rfl rfl rfl
  · exact .of_eq rfl rfl rfl

theorem view_portDied (p : Nat) :
    (s.portDied api p).view = s.view.die api (s.tunnelUp && !s.releasing) := by
  unfold portDied blockReleasedListener BrowserView.die
  dsimp only
  split
  · next hlost =>
    cases hp : api.platform with
    | chromium => simp [hlost, State.view, rejectPending]
    | firefox => simp [State.view, rejectPending]
  · next hlost => simp [hlost, State.view, rejectPending]

theorem tasks_portDied (p : Nat) : (s.portDied api p).tasks = s.tasks := by
  unfold portDied blockReleasedListener
  dsimp only
  split
  · split <;> rfl
  · rfl

theorem nextTask_portDied (p : Nat) : (s.portDied api p).nextTask = s.nextTask := by
  unfold portDied blockReleasedListener
  dsimp only
  split
  · split <;> rfl
  · rfl

theorem view_takeEffect (n : Nat) (c : BrowserCall) (r : BrowserResult) :
    State.view { s.takeEffect c r with
      browserResults := Function.update s.browserResults n (some r) } = s.view.answer n c r := by
  rcases r with e | u | (_ | _) | d
  · rfl
  all_goals
    cases c with
    | settingsSet value => cases value <;> rfl
    | _ => rfl

/-! ## Runs -/

/-- Runs an operation from its call to its first await, as task `t`. -/
def start (api : ChromeLike) (t : Nat) (native : Bool) : Operation → State → State
  | .connect options => connectStart api t options
  | .reconnect options => reconnectStart api t native options
  | .disconnect => disconnectStart api t native
  | .applySplit split => applySplitStart api t split

/-- What `J` says of the operation that was called last is true when it is called, and each of its
parts keeps it, as do the answers of the browser and the death of a host. -/
structure Upholds (api : ChromeLike) (mayResume : Task → BrowserView → Prop)
    (mayAnswer : BrowserView → Nat → BrowserResult → Prop)
    (J : Option Called → Option Task → BrowserView → Prop) : Prop where
  start : ∀ {last s t native operation}, Runs t s → J last none s.view →
    Owes (J (some { operation, task := t, before := s.view }))
      (s.start api t native operation)
  resume : ∀ {last s s' t native x}, Runs t s → x.isOperation = true → J last (some x) s.view →
    mayResume x s.view → s.resume api t native x = some s' → Owes (J last) s'
  timeout : ∀ {last s s' t x}, Runs t s → J last (some x) s.view → s.timeout api t x = some s' →
    Owes (J last) s'
  answer : ∀ {last op v n c r}, J last op v → v.calls[n]? = some c → v.browserResults n = none →
    mayAnswer v n r → J last op (v.answer n c r)
  die : ∀ {last op v lost}, J last op v → (lost = true → v.tunnelUp = true) →
    J last op (v.die api lost)

/-- The operation in flight is woken. -/
theorem InFlight.runs (h : InFlight J op s) (ht : s.tasks t = some x) (hx : x.isOperation = true) :
    Runs t (s.wake t) where
  task_lt {t'} ht' := by
    by_cases htt : t' = t
    · subst htt
      simp [State.wake] at ht'
    · simp only [State.wake, Function.update_of_ne htt] at ht'
      exact h.task_lt ht'
  alone {t' x'} ht' := by
    by_cases htt : t' = t
    · subst htt
      simp [State.wake] at ht'
    · simp only [State.wake, Function.update_of_ne htt] at ht'
      by_contra hx'
      have heq := h.only ht' (Bool.eq_true_of_not_eq_false hx')
      rw [h.only ht hx] at heq
      cases heq
      exact htt rfl
  free := Function.update_self ..
  lt := h.task_lt (ht ▸ Option.some_ne_none x)

/-- An operation is called when none is in flight. -/
theorem InFlight.call (h : InFlight J none s) :
    Runs s.nextTask { s with nextTask := s.nextTask + 1 } where
  task_lt ht := Nat.lt_succ_of_lt (h.task_lt ht)
  alone {t x} ht := by
    by_contra hx
    cases h.only ht (Bool.eq_true_of_not_eq_false hx)
  free := by
    by_contra ht
    exact Nat.lt_irrefl _ (h.task_lt ht)
  lt := Nat.lt_succ_self _

theorem step_operation (he : e.operation = some operation) (hs : Extension.step api s e = some s') :
    ∃ native, s' = State.start api s.nextTask native operation
      { s with nextTask := s.nextTask + 1 } := by
  cases e with
  | connect options =>
    cases he
    cases hs
    exact ⟨false, rfl⟩
  | reconnect options native =>
    cases he
    cases hs
    exact ⟨native, rfl⟩
  | disconnect native =>
    cases he
    cases hs
    exact ⟨native, rfl⟩
  | applySplit split =>
    cases he
    cases hs
    exact ⟨false, rfl⟩
  | _ => cases he

/-- Anything but the call of an operation. -/
theorem Owes.step {mayResume : Task → BrowserView → Prop}
    {mayAnswer : BrowserView → Nat → BrowserResult → Prop}
    {J : Option Called → Option Task → BrowserView → Prop} (hk : Upholds api mayResume mayAnswer J)
    (h : Owes (J last) s) (he : e.operation = none)
    (hresume : ∀ {t native x}, e = .resume t native → s.tasks t = some x → mayResume x s.view)
    (hanswer : ∀ {n r}, e = .browserAnswer n r → mayAnswer s.view n r)
    (hs : Extension.step api s e = some s') : Owes (J last) s' := by
  obtain ⟨op, h⟩ := h
  cases e with
  | connect | reconnect | disconnect | applySplit => cases he
  | ask question native =>
    cases hs
    have hcalled : Apart s { s with nextTask := s.nextTask + 1 } :=
      { view := rfl
        task_lt := fun hlt _ ht => Nat.lt_succ_of_lt (hlt ht)
        operation := fun _ => Iff.rfl }
    have hfree : s.tasks s.nextTask = none := by
      by_contra ht
      exact Nat.lt_irrefl _ (h.task_lt ht)
    refine ⟨op, h.apart (hcalled.trans (askStart_apart ?_ hfree (Nat.lt_succ_self _)))⟩
    exact hcalled.task_lt h.task_lt
  | resume t native =>
    obtain ⟨x, ht, hs⟩ := Option.bind_eq_some_iff.mp hs
    cases hx : x.isOperation with
    | true =>
      obtain rfl := h.only ht hx
      exact hk.resume (h.runs ht hx) hx h.owes (hresume rfl ht) hs
    | false => exact ⟨op, h.apart (resume_apart h.task_lt ht hx hs)⟩
  | timeout t =>
    obtain ⟨x, ht, hs⟩ := Option.bind_eq_some_iff.mp hs
    cases hx : x.isOperation with
    | true =>
      obtain rfl := h.only ht hx
      exact hk.timeout (h.runs ht hx) h.owes hs
    | false => cases x <;> first | cases hx; done | cases hs
  | browserAnswer n r =>
    simp only [Extension.step] at hs
    split at hs
    · next c hc =>
      split at hs
      · next hnone =>
        cases hs
        have htasks : (s.takeEffect c r).tasks = s.tasks := by rw [takeEffect_eq]
        have hnext : (s.takeEffect c r).nextTask = s.nextTask := by rw [takeEffect_eq]
        refine ⟨op, ?_⟩
        exact
          { task_lt := fun ht => hnext ▸ h.task_lt (htasks ▸ ht)
            only := fun ht => h.only (htasks ▸ ht)
            there := fun hop => htasks ▸ h.there hop
            owes := by
              have hview : State.view { s.takeEffect c r with
                  browserResults := Function.update s.browserResults n (some r) } =
                  s.view.answer n c r := view_takeEffect n c r
              rw [hview]
              exact hk.answer h.owes hc hnone (hanswer rfl) }
      · cases hs
    · cases hs
  | message p m =>
    simp only [Extension.step] at hs
    split at hs
    · cases hs
      exact ⟨op, h.apart (onMessage_apart p m)⟩
    · cases hs
  | death p =>
    simp only [Extension.step] at hs
    split at hs
    · cases hs
      have htasks : (s.portDied api p).tasks = s.tasks := tasks_portDied p
      have hnext : (s.portDied api p).nextTask = s.nextTask := nextTask_portDied p
      refine ⟨op, ?_⟩
      exact
        { task_lt := fun ht => hnext ▸ h.task_lt (htasks ▸ ht)
          only := fun ht => h.only (htasks ▸ ht)
          there := fun hop => htasks ▸ h.there hop
          owes := by
            rw [view_portDied]
            refine hk.die h.owes fun hlost => ?_
            rw [Bool.and_eq_true] at hlost
            exact hlost.1 }
    · cases hs

end State

theorem State.owes_initial {J : Option Task → BrowserView → Prop} (settings : Option ProxyValue)
    (policy : Option String) (prediction : Option Bool)
    (h : J none (State.initial settings policy prediction).view) :
    State.Owes J (State.initial settings policy prediction) :=
  ⟨none,
    { task_lt := fun ht => absurd rfl ht
      only := fun ht => by cases ht
      there := fun hop => by cases hop
      owes := h }⟩

/-- The step rule of sequences. -/
theorem Sequence.step_owes {api : ChromeLike} {mayResume : Task → BrowserView → Prop}
    {mayAnswer : BrowserView → Nat → BrowserResult → Prop}
    {J : Option Called → Option Task → BrowserView → Prop}
    (hk : State.Upholds api mayResume mayAnswer J) {q q' : Sequence}
    (h : State.Owes (J q.last) q.client)
    (hresume : ∀ {t native x}, e = .resume t native → q.client.tasks t = some x →
      mayResume x q.client.view)
    (hanswer : ∀ {n r}, e = .browserAnswer n r → mayAnswer q.client.view n r)
    (hs : q.step api e = some q') : State.Owes (J q'.last) q'.client := by
  unfold Sequence.step at hs
  split at hs
  · next he =>
    obtain ⟨s', hs', rfl⟩ := Option.map_eq_some_iff.mp hs
    exact h.step hk he hresume hanswer hs'
  · next operation he =>
    split at hs
    · next hidle =>
      obtain ⟨s', hs', rfl⟩ := Option.map_eq_some_iff.mp hs
      obtain ⟨native, rfl⟩ := State.step_operation he hs'
      obtain ⟨op, h⟩ := h
      obtain rfl := h.idle_iff.mp hidle
      exact hk.start h.call h.owes
    · cases hs

end WarrenSdk.Extension
