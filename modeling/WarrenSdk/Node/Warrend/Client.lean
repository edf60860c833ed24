import Mathlib.Logic.Function.Basic
import WarrenSdk.Lib.Json
import WarrenSdk.Lib.Run
import WarrenSdk.Node.Warrend.Protocol

/-!
# The client of the daemon (`warrend/client.ts`)

Every `open` makes a socket with a decoder of its own; the listeners of a socket stay on it when
`close` lets go of it. What they do to the client is guarded by the socket, what they report is not.
-/

namespace WarrenSdk.Node.Warrend

open Lib

inductive WarrendErrorCode
  | alreadyOpen
  | notOpen
deriving DecidableEq, Repr

structure WarrendError where
  code : WarrendErrorCode
  message : String
deriving DecidableEq, Repr

/-- A socket and the buffer of its decoder. -/
structure Socket where
  buffer : Bytes := []
  ended : Bool := false
  destroyed : Bool := false
  closed : Bool := false

inductive Callback
  | onState (state : WarrendState)
  | onError (kind message : Utf16)
  | onClose
deriving DecidableEq

/-- A callback, the socket whose event it reports, and how many sockets were made by then. -/
structure Report where
  callback : Callback
  socket : Nat
  opened : Nat
deriving DecidableEq

/-- An event of a socket that was reported after another socket was made; that a socket closed may
be reported late. -/
def Report.Stray (r : Report) : Prop := r.callback ≠ .onClose ∧ r.socket + 1 < r.opened

structure WarrendClient where
  socket : Option Nat := none
  /-- The sockets made so far, and each of them. -/
  opened : Nat := 0
  sockets : Nat → Option Socket := fun _ => none
  /-- The messages that the loop of `onData` has still to hand on, and the socket they came from. -/
  handing : Nat × List Json := (0, [])
  reports : List Report := []

inductive ClientEvent
  | open
  | close
  | data (socket : Nat) (chunk : Bytes)
  /-- The loop of `onData` hands on its next message; a callback may call `open` and `close`. -/
  | hand
  | error (socket : Nat)
  | closed (socket : Nat)

namespace WarrendClient

def setSocket (k : Nat) (socket : Socket) (s : WarrendClient) : WarrendClient :=
  { s with sockets := Function.update s.sockets k (some socket) }

def report (callback : Callback) (k : Nat) (s : WarrendClient) : WarrendClient :=
  { s with reports := s.reports ++ [{ callback, socket := k, opened := s.opened }] }

/-- `open` -/
def openSocket (s : WarrendClient) : Except WarrendError WarrendClient :=
  match s.socket with
  | some _ => .error { code := .alreadyOpen, message := "warrend client already open" }
  | none =>
    .ok { s.setSocket s.opened {} with socket := some s.opened, opened := s.opened + 1 }

def close (s : WarrendClient) : WarrendClient :=
  match s.socket with
  | none => s
  | some k =>
    match s.sockets k with
    | none => { s with socket := none }
    | some socket => { s.setSocket k { socket with ended := true } with socket := none }

variable (parse : Utf16 → Option Json)

def onData (k : Nat) (socket : Socket) (chunk : Bytes) (s : WarrendClient) : WarrendClient :=
  match (FrameDecoder parse).push socket.buffer chunk with
  | none =>
    (s.report (.onError "protocol" "malformed daemon frame") k).setSocket k
      { socket with destroyed := true }
  | some (messages, buffer) =>
    { s.setSocket k { socket with buffer } with handing := (k, messages) }

def handOn (k : Nat) (message : Json) (s : WarrendClient) : WarrendClient :=
  match parseEvent message with
  | some (.state state) => s.report (.onState state) k
  | some (.error kind message) => s.report (.onError kind message) k
  | none => s

def onError (k : Nat) (s : WarrendClient) : WarrendClient :=
  s.report (.onError "transport" "socket error") k

def onClose (k : Nat) (socket : Socket) (s : WarrendClient) : WarrendClient :=
  let s := s.setSocket k { socket with closed := true }
  (if s.socket = some k then { s with socket := none } else s).report .onClose k

/-- A socket that was destroyed has no more data, and one that closed has no more events; none has
any while the loop of `onData` runs. -/
def step (s : WarrendClient) : ClientEvent → Option WarrendClient
  | .open =>
    match s.openSocket with
    | .ok t => some t
    | .error _ => some s
  | .close => some s.close
  | .data k chunk =>
    match s.sockets k with
    | some socket =>
      if s.handing.2 = [] ∧ !socket.destroyed ∧ !socket.closed then
        some (s.onData parse k socket chunk)
      else none
    | none => none
  | .hand =>
    match s.handing with
    | (k, message :: messages) => some ({ s with handing := (k, messages) }.handOn k message)
    | (_, []) => none
  | .error k =>
    match s.sockets k with
    | some socket => if s.handing.2 = [] ∧ !socket.closed then some (s.onError k) else none
    | none => none
  | .closed k =>
    match s.sockets k with
    | some socket => if s.handing.2 = [] ∧ !socket.closed then some (s.onClose k socket) else none
    | none => none

/-! ## One session and the next -/

def Apart (s : WarrendClient) : Prop := ∀ r ∈ s.reports, ¬ r.Stray

/-- No socket before the last one made has an error, a chunk that its decoder refuses, or a state or
an error to hand on. -/
def Timely (s : WarrendClient) : ClientEvent → Prop
  | .data k chunk => k + 1 < s.opened → ∀ socket, s.sockets k = some socket →
    (FrameDecoder parse).push socket.buffer chunk ≠ none
  | .hand => ∀ k message messages, s.handing = (k, message :: messages) → k + 1 < s.opened →
    parseEvent message = none
  | .error k => ¬ k + 1 < s.opened
  | _ => True

/-- The socket whose event a step is. -/
def origin (s : WarrendClient) : ClientEvent → Option Nat
  | .data k _ | .error k | .closed k => some k
  | .hand => some s.handing.1
  | .open | .close => none

/-- An event of a socket leaves every other one as it is, and in place if it is the client's. -/
def KeepsOthers (s : WarrendClient) (e : ClientEvent) (t : WarrendClient) : Prop :=
  ∀ k, s.origin e = some k → ∀ j, j ≠ k →
    t.sockets j = s.sockets j ∧ (s.socket = some j → t.socket = some j)

variable {parse} {s t : WarrendClient} {k : Nat}

theorem apart_report (callback : Callback) : (s.report callback k).Apart ↔
    s.Apart ∧ (callback ≠ .onClose → ¬ k + 1 < s.opened) := by
  unfold Apart report
  simp only [List.mem_append, List.mem_singleton]
  constructor
  · intro h
    exact ⟨fun r hr => h r (.inl hr), fun hne hlt => h _ (.inr rfl) ⟨hne, hlt⟩⟩
  · rintro ⟨h, hnew⟩ r (hr | rfl)
    · exact h r hr
    · exact fun hstray => hnew hstray.1 hstray.2

theorem apart_step_iff (ha : s.Apart) (h : s.step parse e = some t) :
    t.Apart ↔ s.Timely parse e := by
  cases e with
  | «open» =>
    rw [step] at h
    split at h
    · next hopen =>
      cases h
      unfold openSocket at hopen
      split at hopen
      · cases hopen
      · cases hopen
        exact ⟨fun _ => trivial, fun _ => ha⟩
    · cases h
      exact ⟨fun _ => trivial, fun _ => ha⟩
  | close =>
    cases h
    refine ⟨fun _ => trivial, fun _ => ?_⟩
    unfold WarrendClient.close
    split
    · exact ha
    · split <;> exact ha
  | data k chunk =>
    rw [step] at h
    split at h
    · next socket hsocket =>
      split at h
      · cases h
        unfold onData
        split
        · next hpush =>
          change (s.report _ k).Apart ↔ _
          rw [apart_report]
          constructor
          · rintro ⟨-, hnew⟩ hlt
            exact absurd hlt (hnew fun heq => by cases heq)
          · intro htimely
            exact ⟨ha, fun _ hlt => htimely hlt socket hsocket hpush⟩
        · next hpush =>
          refine ⟨fun _ _ socket' hsocket' => ?_, fun _ => ha⟩
          rw [hsocket] at hsocket'
          cases hsocket'
          rw [hpush]
          exact fun heq => by cases heq
      · cases h
    · cases h
  | hand =>
    rw [step] at h
    split at h
    · next k message messages hhanding =>
      cases h
      have hevent (event : WarrendEvent) (hparse : parseEvent message = some event) :
          ¬ k + 1 < s.opened ↔ s.Timely parse .hand := by
        constructor
        · intro hnew k' message' messages' heq hlt
          rw [hhanding] at heq
          cases heq
          exact absurd hlt hnew
        · intro htimely hlt
          have hnone := htimely k message messages hhanding hlt
          rw [hparse] at hnone
          cases hnone
      unfold handOn
      split
      · next state hparse =>
        rw [apart_report, ← hevent _ hparse]
        exact ⟨fun hnew => hnew.2 fun heq => (by cases heq), fun hnew => ⟨ha, fun _ => hnew⟩⟩
      · next kind message hparse =>
        rw [apart_report, ← hevent _ hparse]
        exact ⟨fun hnew => hnew.2 fun heq => (by cases heq), fun hnew => ⟨ha, fun _ => hnew⟩⟩
      · next hparse =>
        refine ⟨fun _ k' message' messages' heq _ => ?_, fun _ => ha⟩
        rw [hhanding] at heq
        cases heq
        exact hparse
    · cases h
  | error k =>
    rw [step] at h
    split at h
    · split at h
      · cases h
        rw [onError, apart_report]
        exact ⟨fun hnew => hnew.2 fun heq => (by cases heq), fun hnew => ⟨ha, fun _ => hnew⟩⟩
      · cases h
    · cases h
  | closed k =>
    rw [step] at h
    split at h
    · next socket _ =>
      split at h
      · cases h
        rw [onClose, apart_report]
        refine ⟨fun _ => trivial, fun _ => ⟨?_, fun hne => absurd rfl hne⟩⟩
        split <;> exact ha
      · cases h
    · cases h

theorem setSocket_of_ne (s : WarrendClient) (socket : Socket) (h : j ≠ k) :
    (s.setSocket k socket).sockets j = s.sockets j :=
  Function.update_of_ne h ..

theorem keepsOthers_step (h : s.step parse e = some t) : s.KeepsOthers e t := by
  intro k horigin j hj
  cases e with
  | «open» | close => cases horigin
  | data k' chunk =>
    cases horigin
    rw [step] at h
    split at h
    · split at h
      · cases h
        unfold onData
        split
        · exact ⟨setSocket_of_ne _ _ hj, id⟩
        · exact ⟨setSocket_of_ne s _ hj, id⟩
      · cases h
    · cases h
  | hand =>
    rw [step] at h
    split at h
    · cases h
      unfold handOn
      split <;> exact ⟨rfl, id⟩
    · cases h
  | error k' =>
    rw [step] at h
    split at h
    · split at h
      · cases h
        exact ⟨rfl, id⟩
      · cases h
    · cases h
  | closed k' =>
    cases horigin
    rw [step] at h
    split at h
    · next socket _ =>
      split at h
      · cases h
        unfold onClose
        dsimp only
        split
        · next hclient =>
          refine ⟨setSocket_of_ne s _ hj, fun hsocket => ?_⟩
          have heq : s.socket = some k := hclient
          rw [hsocket] at heq
          exact absurd (Option.some.inj heq) hj
        · exact ⟨setSocket_of_ne s _ hj, id⟩
      · cases h
    · cases h

/-- In every run of calls and of events of the sockets that they made, nothing of an earlier socket
is reported once another was made exactly when every earlier socket is quiet by then; and no event
of a socket touches another, or lets go of it. -/
theorem apart_iff_timely (parse : Utf16 → Option Json) (events : List ClientEvent) :
    (Always (step parse) Apart {} events ↔ Guarded (step parse) (Timely parse) {} events) ∧
      ∀ s e t, step parse s e = some t → KeepsOthers s e t := by
  refine ⟨always_iff_guarded id ?_ ?_ ?_, fun s e t => keepsOthers_step⟩
  · intro s e t ha hc h
    exact (apart_step_iff ha h).mpr hc
  · intro s e t ha hc h ht
    exact hc ((apart_step_iff ha h).mp ht)
  · intro r hr
    cases hr

/-- A socket that fails after `close` and another `open`. -/
def lateError : List ClientEvent := [.open, .close, .open, .error 0]

theorem not_apart_lateError : ¬ Always (step Json.parse) Apart {} lateError := by
  intro h
  obtain ⟨t, ht, hreports⟩ : ∃ t, exec (step Json.parse) (fun _ _ => true) {} lateError = some t ∧
      t.reports = [⟨.onError "transport" "socket error", 0, 2⟩] := ⟨_, rfl, rfl⟩
  have hapart : t.Apart := h.exec ht
  refine hapart ⟨.onError "transport" "socket error", 0, 2⟩ ?_ ⟨?_, by decide⟩
  · rw [hreports]
    exact List.mem_singleton_self _
  · exact fun heq => by cases heq

end WarrendClient

end WarrenSdk.Node.Warrend
