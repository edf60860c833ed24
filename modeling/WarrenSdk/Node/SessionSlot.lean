import WarrenSdk.Lib.Run

/-!
# The session slot (`lifecycle.rs`)

The slot of a proxy holds one session. Its three operations take the lock of the slot, so each of
them is one step. A session is named after the connect that built it: whatever the order of the
operations, it is in one place (`always_lawful`).
-/

namespace WarrenSdk.Node

open Lib

inductive SlotState (S : Type u)
  | idle
  | connecting
  | connected (session : S)
  | shutDown
deriving DecidableEq

inductive BeginConnectError
  | alreadyConnecting
  | alreadyConnected
  | shutDown
deriving DecidableEq, Repr

inductive FinishConnect (S : Type u) (E : Type v) (R : Type w)
  | stored (derived : R)
  | tornDown (session : S)
  | failed (error : E)

namespace SlotState

variable {S : Type u} {E : Type v} {R : Type w}

def beginConnect : SlotState S → Except BeginConnectError Unit × SlotState S
  | .idle => (.ok (), .connecting)
  | .connecting => (.error .alreadyConnecting, .connecting)
  | .connected session => (.error .alreadyConnected, .connected session)
  | .shutDown => (.error .shutDown, .shutDown)

def finishConnect (result : Except E S) (derive : S → R) :
    SlotState S → FinishConnect S E R × SlotState S
  -- A shutdown raced the connect while it was building.
  | .shutDown =>
    match result with
    | .ok session => (.tornDown session, .shutDown)
    | .error error => (.failed error, .shutDown)
  | _ =>
    match result with
    | .error error => (.failed error, .idle)
    | .ok session => (.stored (derive session), .connected session)

def withConnected (f : S → R) : SlotState S → Option R
  | .connected session => some (f session)
  | .idle | .connecting | .shutDown => none

def shutdown : SlotState S → Option S × SlotState S
  | .connected session => (some session, .shutDown)
  | .idle | .connecting | .shutDown => (none, .shutDown)

/-- The session that is stored, if any. -/
def held : SlotState S → List S
  | .connected session => [session]
  | .idle | .connecting | .shutDown => []

theorem beginConnect_refused {slot : SlotState S} (h : slot ≠ .idle) :
    ∃ error, slot.beginConnect = (.error error, slot) := by
  cases slot with
  | idle => exact absurd rfl h
  | connecting | connected _ | shutDown => exact ⟨_, rfl⟩

/-- What the connects in flight say of the slot: there is one of them while it is connecting, and at
most one that a shutdown raced. -/
def InFlight (slot : SlotState S) (connects : List α) : Prop :=
  match slot with
  | .idle | .connected _ => connects = []
  | .connecting => ∃ connect, connects = [connect]
  | .shutDown => connects.length ≤ 1

namespace InFlight

variable {slot : SlotState S} {connects : List α}

theorem length_le (h : slot.InFlight connects) : connects.length ≤ 1 := by
  cases slot with
  | idle | connected _ =>
    have hnil : connects = [] := h
    rw [hnil]
    exact Nat.zero_le 1
  | connecting =>
    obtain ⟨connect, rfl⟩ := h
    exact Nat.le_refl 1
  | shutDown => exact h

/-- A connect that is in flight is the only one, and no session is stored. -/
theorem eq_singleton {connect : α} (h : slot.InFlight connects) (hc : connect ∈ connects) :
    connects = [connect] ∧ (slot = .connecting ∨ slot = .shutDown) := by
  have honly : connects = [connect] := by
    match connects, h.length_le, hc with
    | [c], _, hc => rw [List.mem_singleton.mp hc]
  subst honly
  refine ⟨rfl, ?_⟩
  cases slot with
  | idle | connected _ => cases h
  | connecting => exact .inl rfl
  | shutDown => exact .inr rfl

theorem shutdown (h : slot.InFlight connects) : slot.shutdown.2.InFlight connects := by
  cases slot <;> exact h.length_le

end InFlight

end SlotState

/-! ## Runs -/

/-- A slot and what became of the sessions built for it. Connects are numbered, and a session bears
the number of the connect that built it. -/
structure Lifecycle where
  slot : SlotState Nat := .idle
  /-- The calls of `begin_connect`. -/
  begun : Nat := 0
  /-- The connects that began and did not finish. -/
  inFlight : List Nat := []
  built : List Nat := []
  /-- The connects that were handed a session back to tear down, with the session. -/
  tornDown : List (Nat × Nat) := []
  /-- What each `shutdown` returned. -/
  returned : List (Option Nat) := []

inductive LifecycleEvent (E : Type v)
  | beginConnect
  | finishConnect (connect : Nat) (outcome : Except E Unit)
  | shutdown

namespace Lifecycle

variable {E : Type v}

def begin (s : Lifecycle) : Lifecycle :=
  let (result, slot) := s.slot.beginConnect
  match result with
  | .ok () => { s with slot, begun := s.begun + 1, inFlight := s.begun :: s.inFlight }
  | .error _ => { s with slot, begun := s.begun + 1 }

def finish (connect : Nat) (outcome : Except E Unit) (s : Lifecycle) : Lifecycle :=
  let (finished, slot) := s.slot.finishConnect (outcome.map fun _ => connect) id
  { s with
    slot
    inFlight := s.inFlight.erase connect
    built :=
      match outcome with
      | .ok () => connect :: s.built
      | .error _ => s.built
    tornDown :=
      match finished with
      | .tornDown session => (connect, session) :: s.tornDown
      | .stored _ | .failed _ => s.tornDown }

def shutdown (s : Lifecycle) : Lifecycle :=
  let (session, slot) := s.slot.shutdown
  { s with slot, returned := session :: s.returned }

/-- A connect that began finishes once. -/
def step (s : Lifecycle) : LifecycleEvent E → Option Lifecycle
  | .beginConnect => some s.begin
  | .finishConnect connect outcome =>
    if connect ∈ s.inFlight then some (s.finish connect outcome) else none
  | .shutdown => some s.shutdown

/-- How often a session is stored, handed back to its connect, and returned by a `shutdown`. -/
def places (s : Lifecycle) (session : Nat) : Nat :=
  s.slot.held.count session + s.tornDown.count (session, session) +
    s.returned.count (some session)

/-- What holds of a slot whatever was done to it. -/
structure Lawful (E : Type v) (s : Lifecycle) : Prop where
  one_in_flight : s.inFlight.length ≤ 1
  one_place : ∀ session ∈ s.built, s.places session = 1
  none_else : ∀ session, session ∉ s.built → s.places session = 0
  handed_to_its_own : ∀ handed ∈ s.tornDown, handed.1 = handed.2
  nothing_stored : s.returned ≠ [] → s.slot.held = []
  nothing_begins : s.returned ≠ [] → s.slot.beginConnect.1 = .error .shutDown
  ready_again : ∀ connect ∈ s.inFlight, s.returned = [] → ∀ error : E,
    (s.finish connect (.error error)).slot.beginConnect.1 = .ok ()
  stored : ∀ connect ∈ s.inFlight, s.returned = [] →
    (s.finish connect (.ok () : Except E Unit)).slot = .connected connect

/-- The invariant of `Lawful`. -/
structure Tracked (s : Lifecycle) : Prop where
  flight : s.slot.InFlight s.inFlight
  places : ∀ session, s.places session = if session ∈ s.built then 1 else 0
  own : ∀ handed ∈ s.tornDown, handed.1 = handed.2
  ended : s.returned ≠ [] → s.slot = .shutDown
  live : s.returned = [] → s.slot ≠ .shutDown
  numbered : ∀ connect ∈ s.inFlight ++ s.built, connect < s.begun
  apart : ∀ connect ∈ s.inFlight, connect ∉ s.built

variable {s t : Lifecycle} {connect : Nat}

theorem Tracked.start : Tracked {} where
  flight := rfl
  places _ := rfl
  own _ h := by cases h
  ended h := absurd rfl h
  live _ h := by cases h
  numbered _ h := by cases h
  apart _ h := by cases h

theorem Tracked.lawful (h : s.Tracked) : s.Lawful E where
  one_in_flight := h.flight.length_le
  one_place session hb := by rw [h.places, if_pos hb]
  none_else session hb := by rw [h.places, if_neg hb]
  handed_to_its_own := h.own
  nothing_stored hr := by rw [h.ended hr]; rfl
  nothing_begins hr := by rw [h.ended hr]; rfl
  ready_again connect hc hr error := by
    obtain ⟨-, hslot | hslot⟩ := h.flight.eq_singleton hc
    · unfold finish
      rw [hslot]
      rfl
    · exact absurd hslot (h.live hr)
  stored connect hc hr := by
    obtain ⟨-, hslot | hslot⟩ := h.flight.eq_singleton hc
    · unfold finish
      rw [hslot]
      rfl
    · exact absurd hslot (h.live hr)

theorem begin_idle (h : s.slot = .idle) :
    s.begin = { s with
      slot := .connecting, begun := s.begun + 1, inFlight := s.begun :: s.inFlight } := by
  unfold begin
  rw [h]
  rfl

theorem begin_refused (h : s.slot ≠ .idle) : s.begin = { s with begun := s.begun + 1 } := by
  obtain ⟨error, hrefused⟩ := SlotState.beginConnect_refused h
  unfold begin
  rw [hrefused]

theorem Tracked.begin (h : s.Tracked) : s.begin.Tracked := by
  by_cases hslot : s.slot = .idle
  · have hnone : s.inFlight = [] := by
      have hflight := h.flight
      rw [hslot] at hflight
      exact hflight
    have hbuilt : s.begun ∉ s.built := fun hmem =>
      Nat.lt_irrefl _ (h.numbered s.begun (List.mem_append_right _ hmem))
    rw [begin_idle hslot, hnone]
    refine ⟨⟨_, rfl⟩, fun session => ?_, h.own, fun hr => ?_, fun _ heq => ?_, ?_, ?_⟩
    · have hplaces := h.places session
      rw [Lifecycle.places, hslot] at hplaces
      exact hplaces
    · have hover := h.ended hr
      rw [hslot] at hover
      cases hover
    · cases heq
    · intro connect hc
      obtain rfl | hc := List.mem_cons.mp hc
      · exact Nat.lt_succ_self _
      · exact Nat.lt_succ_of_lt (h.numbered connect (List.mem_append_right _ hc))
    · intro connect hc
      rw [List.mem_singleton.mp hc]
      exact hbuilt
  · rw [begin_refused hslot]
    exact { h with numbered := fun connect hc => Nat.lt_succ_of_lt (h.numbered connect hc) }

theorem Tracked.finish (h : s.Tracked) (hc : connect ∈ s.inFlight) (outcome : Except E Unit) :
    (s.finish connect outcome).Tracked := by
  obtain ⟨honly, hslot⟩ := h.flight.eq_singleton hc
  have hbuilt : connect ∉ s.built := h.apart connect hc
  have herase : s.inFlight.erase connect = [] := by
    rw [honly, List.erase_cons_head]
  have hlt : connect < s.begun := h.numbered connect (List.mem_append_left _ hc)
  have hnumbered : ∀ c ∈ [] ++ connect :: s.built, c < s.begun := by
    intro c hmem
    obtain rfl | hmem := List.mem_cons.mp hmem
    · exact hlt
    · exact h.numbered c (List.mem_append_right _ hmem)
  have hplaces : ∀ session, s.tornDown.count (session, session) +
      s.returned.count (some session) = if session ∈ s.built then 1 else 0 := by
    intro session
    have hplaces := h.places session
    obtain hslot | hslot := hslot <;> rw [Lifecycle.places, hslot] at hplaces <;>
      simpa [SlotState.held] using hplaces
  have hnone : s.tornDown.count (connect, connect) + s.returned.count (some connect) = 0 := by
    rw [hplaces, if_neg hbuilt]
  unfold Lifecycle.finish
  obtain hslot | hslot := hslot
  · have hlive : s.returned = [] := by
      refine Classical.byContradiction fun hr => ?_
      have hover := h.ended hr
      rw [hslot] at hover
      cases hover
    cases outcome with
    | error error =>
      simp only [hslot, SlotState.finishConnect, Except.map, herase]
      refine ⟨rfl, fun session => ?_, h.own, fun hr => absurd hlive hr, fun _ heq => ?_,
        fun c hmem => h.numbered c (List.mem_append_right _ hmem), fun c hmem => ?_⟩
      · rw [← hplaces session]
        simp [Lifecycle.places, SlotState.held]
      · cases heq
      · cases hmem
    | ok _ =>
      simp only [hslot, SlotState.finishConnect, Except.map, herase]
      refine ⟨rfl, fun session => ?_, h.own, fun hr => absurd hlive hr, fun _ heq => ?_,
        hnumbered, fun c hmem => ?_⟩
      · by_cases heq : session = connect
        · subst heq
          simp only [Lifecycle.places, SlotState.held]
          rw [Nat.add_assoc, hnone]
          simp
        · have hsession := hplaces session
          simp only [Lifecycle.places, SlotState.held]
          rw [Nat.add_assoc, hsession, List.count_singleton]
          simp [heq, Ne.symm heq]
      · cases heq
      · cases hmem
  · cases outcome with
    | error error =>
      simp only [hslot, SlotState.finishConnect, Except.map, herase]
      refine ⟨Nat.zero_le 1, fun session => ?_, h.own, fun _ => rfl,
        fun hr => absurd hslot (h.live hr),
        fun c hmem => h.numbered c (List.mem_append_right _ hmem), fun c hmem => ?_⟩
      · rw [← hplaces session]
        simp [Lifecycle.places, SlotState.held]
      · cases hmem
    | ok _ =>
      simp only [hslot, SlotState.finishConnect, Except.map, herase]
      refine ⟨Nat.zero_le 1, fun session => ?_, fun handed hmem => ?_, fun _ => rfl,
        fun hr => absurd hslot (h.live hr), hnumbered, fun c hmem => ?_⟩
      · by_cases heq : session = connect
        · subst heq
          simp only [Lifecycle.places, SlotState.held, List.count_nil, List.count_cons_self]
          rw [if_pos (List.mem_cons_self ..)]
          omega
        · have hsession := hplaces session
          simp only [Lifecycle.places, SlotState.held, List.count_nil, List.mem_cons, heq, false_or]
          rw [List.count_cons_of_ne (by simp [Ne.symm heq]), Nat.zero_add]
          exact hsession
      · obtain rfl | hmem := List.mem_cons.mp hmem
        · rfl
        · exact h.own handed hmem
      · cases hmem

theorem Tracked.shutdown (h : s.Tracked) : s.shutdown.Tracked := by
  have hplaces : ∀ session, s.shutdown.places session = s.places session := by
    intro session
    unfold Lifecycle.shutdown Lifecycle.places
    cases s.slot with
    | connected stored =>
      by_cases heq : stored = session
      · subst heq
        simp only [SlotState.shutdown, SlotState.held, List.count_nil, List.count_cons_self]
        omega
      · simp [SlotState.shutdown, SlotState.held, heq]
    | idle | connecting | shutDown =>
      simp [SlotState.shutdown, SlotState.held]
  have hslot : s.shutdown.slot = .shutDown := by
    unfold Lifecycle.shutdown
    cases s.slot <;> rfl
  exact {
    flight := h.flight.shutdown
    places := fun session => (hplaces session).trans (h.places session)
    own := h.own
    ended := fun _ => hslot
    live := fun hr => absurd hr (List.cons_ne_nil _ _)
    numbered := h.numbered
    apart := h.apart }

theorem Tracked.step {e : LifecycleEvent E} (h : s.Tracked) (hs : s.step e = some t) :
    t.Tracked := by
  cases e with
  | beginConnect =>
    cases hs
    exact h.begin
  | finishConnect connect outcome =>
    rw [Lifecycle.step] at hs
    split at hs
    · next hc =>
      cases hs
      exact h.finish hc outcome
    · cases hs
  | shutdown =>
    cases hs
    exact h.shutdown

/-- Whatever is done to a slot in whatever order: one connect at most is in flight, every session
that was built is stored, handed back to its connect, or returned by one `shutdown`, nothing is
stored and nothing begins after a `shutdown`; without one, the session of a connect that succeeds is
stored, and a connect that failed may be repeated. -/
theorem always_lawful (events : List (LifecycleEvent E)) :
    Always Lifecycle.step (Lawful E) {} events :=
  .of_invariant Tracked.lawful Tracked.step Tracked.start

/-- A connect that fails, one whose session is stored and returned, and one that is refused. -/
example : (Lib.exec (Lifecycle.step (E := String)) (fun _ _ => true) {} [.beginConnect,
    .finishConnect 0 (.error "no route"), .beginConnect, .finishConnect 1 (.ok ()), .shutdown,
    .beginConnect]).map (fun s => (s.slot, s.built, s.returned, s.inFlight)) =
      some (.shutDown, [1], [some 1], []) := rfl

end Lifecycle

end WarrenSdk.Node
