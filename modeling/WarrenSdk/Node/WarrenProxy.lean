import Mathlib.Logic.Function.Basic
import WarrenSdk.Node.SessionSlot

/-!
# The proxy of the native addon (`lib.rs`)

`connect`, `shutdown` and the tasks that forward the states of a session to JavaScript. A task goes
on from await to await in one step, and a task that is aborted goes on no more. The forwarder of a
session starts where the session is built; whether the session lives is decided where its connect
finishes, and a shutdown that came between the two has resolved by then.
-/

namespace WarrenSdk.Node

open Lib

/-- `TunnelState` is non-exhaustive. -/
inductive TunnelState
  | connected
  | disconnected
  | other
deriving DecidableEq, Repr

/-- `ConnectionState` is non-exhaustive. -/
inductive ConnectionState
  | connecting
  | connected
  | reconnecting
  | draining
  | failed
  | other
deriving DecidableEq, Repr

def mapTunnelState : TunnelState → String
  | .connected => "connected"
  | .disconnected => "disconnected"
  | .other => "unknown"

def mapConnectionState : ConnectionState → String
  | .connecting => "connecting"
  | .connected => "connected"
  | .reconnecting => "reconnecting"
  | .draining => "draining"
  | .failed => "failed"
  | .other => "unknown"

/-- A datapath and what its watch shows. -/
inductive ProxySession
  | plain (state : TunnelState)
  | supervised (state : ConnectionState)
deriving DecidableEq, Repr

def ProxySession.text : ProxySession → String
  | .plain state => mapTunnelState state
  | .supervised state => mapConnectionState state

/-- Whether a datapath may come to be `next`. -/
def ProxySession.mayBecome : ProxySession → ProxySession → Bool
  | .plain _, .plain _ => true
  | .supervised _, .supervised _ => true
  | _, _ => false

/-- A task of `spawn_state_forwarder`, and the watch that it reads. -/
structure Forwarder where
  onState : Nat
  proxy : ProxySession
  /-- The number of the state that the watch shows, and of the one last read. -/
  version : Nat := 0
  seen : Option Nat := none
  closed : Bool := false
  /-- The task has ended, or was aborted. -/
  done : Bool := false

/-- There is a state to call back with: the first one, or another than the one last read. -/
def Forwarder.due (f : Forwarder) : Bool := f.seen ≠ some f.version

/-- The session of a connect is named after its call. -/
structure ConnectedSession where
  proxy : Nat
  stateForwarder : Option Nat
deriving DecidableEq

/-- The reason of an error that JavaScript sees. -/
def err (kind message : String) : String := kind ++ ": " ++ message

def BeginConnectError.message : BeginConnectError → String
  | .alreadyConnecting => "a connect is already in progress"
  | .alreadyConnected => "already connected"
  | .shutDown => "client is shut down"

/-- Where a connect that began stands. -/
inductive ConnectTask
  /-- In `build_session`, with the callback that it found registered. -/
  | building (stateFn : Option Nat)
  /-- At the lock of `finish_connect`. -/
  | built (result : Except String ConnectedSession)

inductive Entry
  | onState (callback : Nat) (session : Nat) (state : String)
  | connectSettled (call : Nat) (result : Except String Unit)
  | shutdownResolved

structure WarrenProxy where
  onState : Option Nat := none
  slot : SlotState ConnectedSession := .idle
  calls : Nat := 0
  /-- The connects at the lock of `begin_connect`. -/
  waiting : List (Nat × Option Nat) := []
  inFlight : List (Nat × ConnectTask) := []
  forwarders : Nat → Option Forwarder := fun _ => none
  log : List Entry := []

inductive ProxyEvent
  | onState (callback : Option Nat)
  | connect
  | beginConnect (call : Nat)
  | build (call : Nat) (result : Except String ProxySession)
  | finishConnect (call : Nat)
  | shutdown
  /-- The watch of the session of `call` shows another state. -/
  | changed (call : Nat) (proxy : ProxySession)
  /-- Nothing will be shown on it any more. -/
  | closed (call : Nat)
  /-- The forwarder of the session of `call` goes on. -/
  | poll (call : Nat)

namespace WarrenProxy

def settle (call : Nat) (result : Except String Unit) (s : WarrenProxy) : WarrenProxy :=
  { s with log := s.log ++ [.connectSettled call result] }

def setForwarder (call : Nat) (f : Forwarder) (s : WarrenProxy) : WarrenProxy :=
  { s with forwarders := Function.update s.forwarders call (some f) }

/-- `JoinHandle::abort` -/
def abort (call : Nat) (s : WarrenProxy) : WarrenProxy :=
  match s.forwarders call with
  | some f => s.setForwarder call { f with done := true }
  | none => s

/-- `ConnectedSession::shutdown` -/
def shutdownSession (session : ConnectedSession) (s : WarrenProxy) : WarrenProxy :=
  match session.stateForwarder with
  | some task => s.abort task
  | none => s

def beginConnect (call : Nat) (stateFn : Option Nat) (s : WarrenProxy) : WarrenProxy :=
  let s := { s with waiting := s.waiting.filter (·.1 ≠ call) }
  match s.slot.beginConnect with
  | (.ok (), slot) => { s with slot, inFlight := (call, .building stateFn) :: s.inFlight }
  | (.error error, slot) => { s with slot }.settle call (.error (err "tunnel" error.message))

def setTask (call : Nat) (task : ConnectTask) (s : WarrenProxy) : WarrenProxy :=
  { s with inFlight := s.inFlight.map fun t => if t.1 = call then (call, task) else t }

/-- The end of `build_session`: the forwarder is spawned there. -/
def build (call : Nat) (stateFn : Option Nat) (result : Except String ProxySession)
    (s : WarrenProxy) : WarrenProxy :=
  match result with
  | .error error => s.setTask call (.built (.error error))
  | .ok proxy =>
    match stateFn with
    | some onState =>
      (s.setForwarder call { onState, proxy }).setTask call
        (.built (.ok { proxy := call, stateForwarder := some call }))
    | none => s.setTask call (.built (.ok { proxy := call, stateForwarder := none }))

def finishConnect (call : Nat) (result : Except String ConnectedSession) (s : WarrenProxy) :
    WarrenProxy :=
  let (finished, slot) := s.slot.finishConnect result fun _ => ()
  let s := { s with slot, inFlight := s.inFlight.filter (·.1 ≠ call) }
  match finished with
  | .stored () => s.settle call (.ok ())
  | .tornDown session =>
    (s.shutdownSession session).settle call (.error (err "tunnel" "shut down while connecting"))
  | .failed error => s.settle call (.error error)

def shutdown (s : WarrenProxy) : WarrenProxy :=
  let (session, slot) := s.slot.shutdown
  let s := { s with slot }
  let s :=
    match session with
    | some session => s.shutdownSession session
    | none => s
  { s with log := s.log ++ [.shutdownResolved] }

/-- The loop of a forwarder up to where it waits for the watch, or ends with it. -/
def poll (call : Nat) (f : Forwarder) (s : WarrenProxy) : WarrenProxy :=
  if f.due then
    { s.setForwarder call { f with seen := some f.version, done := f.closed } with
      log := s.log ++ [.onState f.onState call f.proxy.text] }
  else s.setForwarder call { f with done := f.closed }

def step (s : WarrenProxy) : ProxyEvent → Option WarrenProxy
  | .onState callback => some { s with onState := callback }
  | .connect =>
    some { s with calls := s.calls + 1, waiting := (s.calls, s.onState) :: s.waiting }
  | .beginConnect call =>
    match s.waiting.find? (·.1 = call) with
    | some (_, stateFn) => some (s.beginConnect call stateFn)
    | none => none
  | .build call result =>
    match s.inFlight.find? (·.1 = call) with
    | some (_, .building stateFn) => some (s.build call stateFn result)
    | _ => none
  | .finishConnect call =>
    match s.inFlight.find? (·.1 = call) with
    | some (_, .built result) => some (s.finishConnect call result)
    | _ => none
  | .shutdown => some s.shutdown
  | .changed call proxy =>
    match s.forwarders call with
    | some f =>
      if f.proxy.mayBecome proxy ∧ !f.closed then
        some (s.setForwarder call { f with proxy, version := f.version + 1 })
      else none
    | none => none
  | .closed call =>
    match s.forwarders call with
    | some f => some (s.setForwarder call { f with closed := true })
    | none => none
  | .poll call =>
    match s.forwarders call with
    | some f => if f.done then none else some (s.poll call f)
    | none => none

/-! ## After a shutdown -/

/-- No callback after a shutdown has resolved. -/
def Quiet (log : List Entry) : Prop :=
  log.Pairwise fun earlier later =>
    earlier = .shutdownResolved → ∀ callback session state, later ≠ .onState callback session state

/-- A connect has built its session, and its `finish_connect` is still to come. -/
def Unfinished (s : WarrenProxy) (call : Nat) : Prop :=
  ∃ session, (call, ConnectTask.built (.ok session)) ∈ s.inFlight ∧
    session.stateForwarder = some call

/-- A forwarder with a state to report goes on before the connect that spawned it has finished only
while no shutdown has resolved. -/
def Prompt (s : WarrenProxy) : ProxyEvent → Prop
  | .poll call => s.Unfinished call → s.slot = .shutDown →
    ∀ f, s.forwarders call = some f → f.due = false
  | _ => True

/-- A forwarder that may go on belongs to the session that is stored, or to one that its connect has
still to hand over. -/
structure Owned (s : WarrenProxy) : Prop where
  flight : s.slot.InFlight s.inFlight
  owner : ∀ call f, s.forwarders call = some f → f.done = false →
    (∃ session, s.slot = .connected session ∧ session.stateForwarder = some call) ∨
      s.Unfinished call
  resolved : .shutdownResolved ∈ s.log → s.slot = .shutDown
  shut : s.slot = .shutDown → .shutdownResolved ∈ s.log

/-- The invariant of the runs of `Prompt` steps. -/
structure Silent (s : WarrenProxy) : Prop extends s.Owned where
  quiet : Quiet s.log

variable {s t : WarrenProxy} {call : Nat}

theorem quiet_append (log : List Entry) (entry : Entry) :
    Quiet (log ++ [entry]) ↔ Quiet log ∧ (.shutdownResolved ∈ log →
      ∀ callback session state, entry ≠ .onState callback session state) := by
  unfold Quiet
  rw [List.pairwise_append]
  constructor
  · rintro ⟨hlog, -, hentry⟩
    exact ⟨hlog, fun hmem => hentry _ hmem _ (List.mem_singleton_self _) rfl⟩
  · rintro ⟨hlog, hentry⟩
    refine ⟨hlog, List.pairwise_singleton _ _, fun earlier hmem later hlater heq => ?_⟩
    rw [List.mem_singleton.mp hlater]
    exact hentry (heq ▸ hmem)

theorem Silent.start : Silent {} where
  flight := rfl
  owner _ _ h := by cases h
  resolved h := by cases h
  shut h := by cases h
  quiet := .nil

/-! ### What a step does to the forwarders -/

theorem setForwarder_self (s : WarrenProxy) (call : Nat) (f : Forwarder) :
    (s.setForwarder call f).forwarders call = some f :=
  Function.update_self ..

theorem setForwarder_of_ne (s : WarrenProxy) (f : Forwarder) (h : c ≠ call) :
    (s.setForwarder call f).forwarders c = s.forwarders c :=
  Function.update_of_ne h ..

theorem abort_same (s : WarrenProxy) (call : Nat) : (s.abort call).slot = s.slot ∧
    (s.abort call).inFlight = s.inFlight ∧ (s.abort call).log = s.log := by
  unfold abort
  split <;> exact ⟨rfl, rfl, rfl⟩

/-- What may go on after a forwarder was aborted is another one, that was there. -/
theorem live_abort (h : (s.abort call).forwarders c = some f) (hf : f.done = false) :
    c ≠ call ∧ s.forwarders c = some f := by
  unfold abort at h
  split at h
  · next g hg =>
    by_cases hc : c = call
    · subst hc
      rw [setForwarder_self] at h
      cases h
      cases hf
    · rw [setForwarder_of_ne _ _ hc] at h
      exact ⟨hc, h⟩
  · next hnone =>
    refine ⟨?_, h⟩
    rintro rfl
    rw [hnone] at h
    cases h

theorem shutdownSession_same (s : WarrenProxy) (session : ConnectedSession) :
    (s.shutdownSession session).slot = s.slot ∧
      (s.shutdownSession session).inFlight = s.inFlight ∧
        (s.shutdownSession session).log = s.log := by
  unfold shutdownSession
  split
  · exact abort_same s _
  · exact ⟨rfl, rfl, rfl⟩

theorem live_shutdownSession (h : (s.shutdownSession session).forwarders c = some f)
    (hf : f.done = false) : session.stateForwarder ≠ some c ∧ s.forwarders c = some f := by
  unfold shutdownSession at h
  split at h
  · next task htask =>
    obtain ⟨hne, hold⟩ := live_abort h hf
    rw [htask]
    exact ⟨fun heq => hne (Option.some.inj heq).symm, hold⟩
  · next hnone =>
    rw [hnone]
    exact ⟨fun heq => (by cases heq), h⟩

theorem mem_of_find? {tasks : List (Nat × α)} (h : tasks.find? (·.1 = call) = some (c, task)) :
    (call, task) ∈ tasks := by
  have hmem := List.mem_of_find?_eq_some h
  have hc : c = call := by simpa using List.find?_some h
  rwa [hc] at hmem

namespace Owned

/-- The connect that is in flight, and what it says of the forwarders: what may go on is its own. -/
theorem only (h : s.Owned) (ht : (call, task) ∈ s.inFlight) :
    s.inFlight = [(call, task)] ∧ (s.slot = .connecting ∨ s.slot = .shutDown) ∧
      ∀ c f, s.forwarders c = some f → f.done = false →
        ∃ session, (c, ConnectTask.built (.ok session)) = (call, task) ∧
          session.stateForwarder = some c := by
  obtain ⟨honly, hslot⟩ := h.flight.eq_singleton ht
  refine ⟨honly, hslot, fun c f hf hlive => ?_⟩
  obtain ⟨session, hstored, -⟩ | ⟨session, hmem, howner⟩ := h.owner c f hf hlive
  · obtain hslot | hslot := hslot <;>
      · rw [hslot] at hstored
        cases hstored
  · rw [honly] at hmem
    exact ⟨session, List.mem_singleton.mp hmem, howner⟩

theorem setForwarder (h : s.Owned) (hf : s.forwarders call = some f)
    (hd : f'.done = false → f.done = false) : (s.setForwarder call f').Owned where
  flight := h.flight
  owner c g hg hlive := by
    by_cases hc : c = call
    · subst hc
      rw [setForwarder_self] at hg
      cases hg
      exact h.owner c f hf (hd hlive)
    · rw [setForwarder_of_ne _ _ hc] at hg
      exact h.owner c g hg hlive
  resolved := h.resolved
  shut := h.shut

theorem withLog {entries : List Entry} (h : s.Owned)
    (hresolved : .shutdownResolved ∈ entries ↔ .shutdownResolved ∈ s.log) :
    { s with log := entries }.Owned where
  flight := h.flight
  owner := h.owner
  resolved hmem := h.resolved (hresolved.mp hmem)
  shut hslot := hresolved.mpr (h.shut hslot)

theorem settle (h : s.Owned) (call : Nat) (result : Except String Unit) :
    (s.settle call result).Owned :=
  h.withLog (by simp)

theorem beginConnect (h : s.Owned) (call : Nat) (stateFn : Option Nat) :
    (s.beginConnect call stateFn).Owned := by
  unfold WarrenProxy.beginConnect
  by_cases hslot : s.slot = .idle
  · have hnone : s.inFlight = [] := by
      have hflight := h.flight
      rw [hslot] at hflight
      exact hflight
    simp only [hslot, SlotState.beginConnect, hnone]
    refine ⟨⟨_, rfl⟩, fun c f hf hlive => ?_, fun hmem => ?_, fun heq => ?_⟩
    · obtain ⟨session, hstored, -⟩ | ⟨session, hmem, -⟩ := h.owner c f hf hlive
      · rw [hslot] at hstored
        cases hstored
      · rw [hnone] at hmem
        cases hmem
    · have hshut := h.resolved hmem
      rw [hslot] at hshut
      cases hshut
    · cases heq
  · obtain ⟨error, hrefused⟩ := SlotState.beginConnect_refused hslot
    simp only [hrefused]
    apply settle
    exact ⟨h.flight, h.owner, h.resolved, h.shut⟩

theorem setTask (h : s.Owned) (ht : (call, .building stateFn) ∈ s.inFlight) (task : ConnectTask) :
    (s.setTask call task).inFlight = [(call, task)] ∧
      (s.setTask call task).slot.InFlight (s.setTask call task).inFlight := by
  obtain ⟨honly, hslot, -⟩ := h.only ht
  have hset : (s.setTask call task).inFlight = [(call, task)] := by
    rw [WarrenProxy.setTask, honly]
    simp
  refine ⟨hset, ?_⟩
  rw [hset]
  change s.slot.InFlight _
  obtain hslot | hslot := hslot
  · rw [hslot]
    exact ⟨_, rfl⟩
  · rw [hslot]
    exact Nat.le_refl 1

theorem build (h : s.Owned) (ht : (call, .building stateFn) ∈ s.inFlight)
    (result : Except String ProxySession) : (s.build call stateFn result).Owned := by
  obtain ⟨honly, -, hnone⟩ := h.only ht
  have hdone {c f} (hf : s.forwarders c = some f) : ¬ f.done = false := by
    intro hlive
    obtain ⟨session, heq, -⟩ := hnone c f hf hlive
    cases heq
  have hquiet (task : ConnectTask) : (s.setTask call task).Owned :=
    ⟨(h.setTask ht task).2, fun c f hf hlive => absurd hlive (hdone hf), h.resolved, h.shut⟩
  unfold WarrenProxy.build
  split
  · exact hquiet _
  · split
    · next onState =>
      refine ⟨(h.setTask ht _).2, fun c f hf hlive => ?_, h.resolved, h.shut⟩
      by_cases hc : c = call
      · subst hc
        have hset := (h.setTask ht (.built (.ok { proxy := c, stateForwarder := some c }))).1
        exact .inr ⟨_, hset ▸ List.mem_singleton_self _, rfl⟩
      · have hold : s.forwarders c = some f := (setForwarder_of_ne s _ hc).symm.trans hf
        exact absurd hlive (hdone hold)
    · exact hquiet _

theorem finishConnect (h : s.Owned) (ht : (call, .built result) ∈ s.inFlight) :
    (s.finishConnect call result).Owned := by
  obtain ⟨honly, hslot, howner⟩ := h.only ht
  have hfilter : s.inFlight.filter (·.1 ≠ call) = [] := by
    rw [honly]
    simp
  unfold WarrenProxy.finishConnect
  obtain hslot | hslot := hslot
  · have hunresolved : .shutdownResolved ∉ s.log := by
      intro hmem
      have hshut := h.resolved hmem
      rw [hslot] at hshut
      cases hshut
    cases result with
    | error error =>
      simp only [hslot, SlotState.finishConnect, hfilter]
      apply settle
      refine ⟨rfl, fun c f hf hlive => ?_, fun hmem => absurd hmem hunresolved, fun heq => ?_⟩
      · obtain ⟨session, heq, -⟩ := howner c f hf hlive
        cases heq
      · cases heq
    | ok session =>
      simp only [hslot, SlotState.finishConnect, hfilter]
      apply settle
      refine ⟨rfl, fun c f hf hlive => ?_, fun hmem => absurd hmem hunresolved, fun heq => ?_⟩
      · obtain ⟨session', heq, hsession⟩ := howner c f hf hlive
        cases heq
        exact .inl ⟨_, rfl, hsession⟩
      · cases heq
  · cases result with
    | error error =>
      simp only [hslot, SlotState.finishConnect, hfilter]
      apply settle
      refine ⟨Nat.zero_le 1, fun c f hf hlive => ?_, fun _ => rfl, fun _ => h.shut hslot⟩
      obtain ⟨session, heq, -⟩ := howner c f hf hlive
      cases heq
    | ok session =>
      simp only [hslot, SlotState.finishConnect, hfilter]
      apply settle
      obtain ⟨hshut, hrest, hlog⟩ :=
        shutdownSession_same { s with slot := .shutDown, inFlight := [] } session
      refine ⟨?_, fun c f hf hlive => ?_, fun _ => hshut, fun _ => ?_⟩
      · rw [hshut, hrest]
        exact Nat.zero_le 1
      · obtain ⟨hne, hold⟩ := live_shutdownSession hf hlive
        obtain ⟨session', heq, hsession⟩ := howner c f hold hlive
        cases heq
        exact absurd hsession hne
      · rw [hlog]
        exact h.shut hslot

theorem shutdown (h : s.Owned) : s.shutdown.Owned := by
  have hflight := h.flight.shutdown
  have hmem (entries : List Entry) : Entry.shutdownResolved ∈ entries ++ [.shutdownResolved] :=
    List.mem_append_right _ (List.mem_singleton_self _)
  cases hslot : s.slot with
  | connected session =>
    rw [hslot] at hflight
    have hnone : s.inFlight = [] := by
      have hidle := h.flight
      rw [hslot] at hidle
      exact hidle
    have hstep : s.shutdown =
        { ({ s with slot := .shutDown }.shutdownSession session) with
          log := ({ s with slot := .shutDown }.shutdownSession session).log ++
            [.shutdownResolved] } := by
      rw [WarrenProxy.shutdown, hslot]
      rfl
    obtain ⟨hshut, hrest, -⟩ := shutdownSession_same { s with slot := .shutDown } session
    rw [hstep]
    refine ⟨?_, fun c f hf hlive => ?_, fun _ => hshut, fun _ => hmem _⟩
    · change (WarrenProxy.shutdownSession session _).slot.InFlight
        (WarrenProxy.shutdownSession session _).inFlight
      rw [hshut, hrest]
      exact hflight
    · obtain ⟨hne, hold⟩ := live_shutdownSession hf hlive
      obtain ⟨stored, hstored, hsession⟩ | ⟨built, hbuilt, -⟩ := h.owner c f hold hlive
      · rw [hslot] at hstored
        cases hstored
        exact absurd hsession hne
      · rw [hnone] at hbuilt
        cases hbuilt
  | idle | connecting | shutDown =>
    rw [hslot] at hflight
    have hstep : s.shutdown =
        { s with slot := .shutDown, log := s.log ++ [.shutdownResolved] } := by
      rw [WarrenProxy.shutdown, hslot]
      rfl
    rw [hstep]
    refine ⟨hflight, fun c f hf hlive => ?_, fun _ => rfl, fun _ => hmem _⟩
    obtain ⟨stored, hstored, -⟩ | hunfinished := h.owner c f hf hlive
    · rw [hslot] at hstored
      cases hstored
    · exact .inr hunfinished

theorem poll (h : s.Owned) (hf : s.forwarders call = some f) (hd : f.done = false) :
    (s.poll call f).Owned := by
  unfold WarrenProxy.poll
  split
  · refine withLog (h.setForwarder hf fun _ => hd) ?_
    change _ ∈ s.log ++ _ ↔ _ ∈ s.log
    simp
  · exact h.setForwarder hf fun _ => hd

theorem step (h : s.Owned) (hs : s.step e = some t) : t.Owned := by
  unfold WarrenProxy.step at hs
  split at hs
  · cases hs
    exact ⟨h.flight, h.owner, h.resolved, h.shut⟩
  · cases hs
    exact ⟨h.flight, h.owner, h.resolved, h.shut⟩
  · split at hs
    · cases hs
      exact h.beginConnect _ _
    · cases hs
  · split at hs
    · next hfind =>
      cases hs
      exact h.build (mem_of_find? hfind) _
    · cases hs
  · split at hs
    · next hfind =>
      cases hs
      exact h.finishConnect (mem_of_find? hfind)
    · cases hs
  · cases hs
    exact h.shutdown
  · split at hs
    · next hf =>
      split at hs
      · cases hs
        exact h.setForwarder hf id
      · cases hs
    · cases hs
  · split at hs
    · next hf =>
      cases hs
      exact h.setForwarder hf id
    · cases hs
  · split at hs
    · next hf =>
      split at hs
      · cases hs
      · next hd =>
        cases hs
        exact h.poll hf (eq_false_of_ne_true hd)
    · cases hs

end Owned

/-! ### What a step reports -/

/-- At most an entry was added, which is no callback. -/
def Uncalled (before after : List Entry) : Prop :=
  after = before ∨ ∃ entry, after = before ++ [entry] ∧
    ∀ callback session state, entry ≠ .onState callback session state

theorem uncalled_settle (s : WarrenProxy) (call : Nat) (result : Except String Unit) :
    Uncalled s.log (s.settle call result).log :=
  .inr ⟨_, rfl, fun _ _ _ heq => by cases heq⟩

theorem uncalled_beginConnect (s : WarrenProxy) (call : Nat) (stateFn : Option Nat) :
    Uncalled s.log (s.beginConnect call stateFn).log := by
  unfold beginConnect
  dsimp only
  split
  · exact .inl rfl
  · exact uncalled_settle { s with slot := _, waiting := _ } call _

theorem uncalled_build (s : WarrenProxy) (call : Nat) (stateFn : Option Nat)
    (result : Except String ProxySession) : Uncalled s.log (s.build call stateFn result).log := by
  unfold build
  split
  · exact .inl rfl
  · split <;> exact .inl rfl

theorem uncalled_finishConnect (s : WarrenProxy) (call : Nat)
    (result : Except String ConnectedSession) :
    Uncalled s.log (s.finishConnect call result).log := by
  unfold finishConnect
  dsimp only
  split
  · exact uncalled_settle { s with slot := _, inFlight := _ } call _
  · next session _ =>
    refine .inr ⟨.connectSettled call (.error (err "tunnel" "shut down while connecting")), ?_,
      fun _ _ _ heq => by cases heq⟩
    exact congrArg (· ++ _) (shutdownSession_same { s with slot := _, inFlight := _ } session).2.2
  · exact uncalled_settle { s with slot := _, inFlight := _ } call _

theorem uncalled_shutdown (s : WarrenProxy) : Uncalled s.log s.shutdown.log := by
  refine .inr ⟨.shutdownResolved, ?_, fun _ _ _ heq => by cases heq⟩
  unfold shutdown
  dsimp only
  split
  · next session _ =>
    exact congrArg (· ++ _) (shutdownSession_same { s with slot := _ } session).2.2
  · rfl

/-- A step calls back where a forwarder goes on that has a state to report, and nowhere else. -/
theorem log_step (hs : s.step e = some t) :
    (∃ call f, e = .poll call ∧ s.forwarders call = some f ∧ f.done = false ∧ f.due = true ∧
      t.log = s.log ++ [.onState f.onState call f.proxy.text]) ∨
    (∀ call f, e = .poll call → s.forwarders call = some f → f.due = false) ∧
      Uncalled s.log t.log := by
  cases e with
  | poll call =>
    rw [WarrenProxy.step] at hs
    split at hs
    · next f hf =>
      split at hs
      · cases hs
      · next hd =>
        cases hs
        cases hdue : f.due with
        | true =>
          refine .inl ⟨call, f, rfl, hf, eq_false_of_ne_true hd, hdue, ?_⟩
          rw [poll, if_pos hdue]
        | false =>
          refine .inr ⟨fun call' f' heq hf' => ?_, .inl ?_⟩
          · cases heq
            rw [hf] at hf'
            cases hf'
            exact hdue
          · rw [poll, if_neg (by simp [hdue])]
            rfl
    · cases hs
  | onState _ | connect =>
    cases hs
    exact .inr ⟨fun _ _ heq => (by cases heq), .inl rfl⟩
  | beginConnect call =>
    refine .inr ⟨fun _ _ heq => (by cases heq), ?_⟩
    rw [WarrenProxy.step] at hs
    split at hs
    · cases hs
      exact uncalled_beginConnect s _ _
    · cases hs
  | build call result =>
    refine .inr ⟨fun _ _ heq => (by cases heq), ?_⟩
    rw [WarrenProxy.step] at hs
    split at hs
    · cases hs
      exact uncalled_build s _ _ _
    · cases hs
  | finishConnect call =>
    refine .inr ⟨fun _ _ heq => (by cases heq), ?_⟩
    rw [WarrenProxy.step] at hs
    split at hs
    · cases hs
      exact uncalled_finishConnect s _ _
    · cases hs
  | shutdown =>
    cases hs
    exact .inr ⟨fun _ _ heq => (by cases heq), uncalled_shutdown s⟩
  | changed call proxy =>
    refine .inr ⟨fun _ _ heq => (by cases heq), ?_⟩
    rw [WarrenProxy.step] at hs
    split at hs
    · split at hs
      · cases hs
        exact .inl rfl
      · cases hs
    · cases hs
  | closed call =>
    refine .inr ⟨fun _ _ heq => (by cases heq), ?_⟩
    rw [WarrenProxy.step] at hs
    split at hs
    · cases hs
      exact .inl rfl
    · cases hs

theorem silent_step (h : s.Silent) (hprompt : s.Prompt e) (hs : s.step e = some t) : t.Silent := by
  refine ⟨h.toOwned.step hs, ?_⟩
  obtain ⟨call, f, rfl, hf, hd, hdue, hlog⟩ | ⟨-, hlog | ⟨entry, hlog, hentry⟩⟩ := log_step hs
  · rw [hlog, quiet_append]
    refine ⟨h.quiet, fun hmem => ?_⟩
    have hshut := h.resolved hmem
    obtain ⟨session, hstored, -⟩ | hunfinished := h.owner call f hf hd
    · rw [hshut] at hstored
      cases hstored
    · rw [hprompt hunfinished hshut f hf] at hdue
      cases hdue
  · rw [hlog]
    exact h.quiet
  · rw [hlog, quiet_append]
    exact ⟨h.quiet, fun _ => hentry⟩

theorem not_quiet_step (h : s.Silent) (hprompt : ¬ s.Prompt e) (hs : s.step e = some t) :
    ¬ Quiet t.log := by
  obtain ⟨call, f, rfl, hf, hd, hdue, hlog⟩ | ⟨hnot, -⟩ := log_step hs
  · intro hquiet
    rw [hlog, quiet_append] at hquiet
    refine hprompt fun _ hshut => ?_
    exact absurd rfl (hquiet.2 (h.shut hshut) _ _ _)
  · refine absurd ?_ hprompt
    cases e with
    | poll call => exact fun _ _ f hf => hnot call f rfl hf
    | _ => trivial

/-- No callback follows a shutdown that has resolved, in any order of the steps, exactly when no
forwarder with a state to report goes on after a shutdown while its connect has still to finish. -/
theorem always_quiet_iff (events : List ProxyEvent) :
    Always step (fun s => Quiet s.log) {} events ↔ Guarded step Prompt {} events :=
  always_iff_guarded Silent.quiet silent_step not_quiet_step Silent.start

/-- A shutdown that comes while a connect builds its session, and resolves before the forwarder of
that session is spawned. -/
def racedShutdown : List ProxyEvent :=
  [.onState (some 0), .connect, .beginConnect 0, .shutdown,
    .build 0 (.ok (.supervised .connected)), .poll 0]

theorem not_always_quiet_racedShutdown :
    ¬ Always step (fun s => Quiet s.log) {} racedShutdown := by
  intro h
  obtain ⟨t, ht, hlog⟩ : ∃ t, exec step (fun _ _ => true) {} racedShutdown = some t ∧
      t.log = [.shutdownResolved, .onState 0 0 "connected"] := ⟨_, rfl, rfl⟩
  have hquiet : Quiet t.log := h.exec ht
  rw [hlog] at hquiet
  exact (List.pairwise_cons.mp hquiet).1 _ (List.mem_singleton_self _) rfl _ _ _ rfl

end WarrenProxy

end WarrenSdk.Node
