import Mathlib.Logic.Function.Basic
import WarrenSdk.Lib.Json
import WarrenSdk.Lib.PromiseChain

/-!
# Stores behind a storage area (`token-store.ts`, `device-store.ts`)

A store reads its key once, answers from memory and puts its writes behind one another. The area is
a party of its own: a write takes effect and settles when it pleases, and one that is rejected may
have taken effect or not; others write their own keys meanwhile. Both stores are one system, which
differs in the calls that it takes.
-/

namespace WarrenSdk.Extension.WriteBehind
open Lib

def TOKEN_BUNDLE_KEY : Utf16 := Utf16.ofString "warren.tokenBundle"

def DEVICE_IDENTITY_KEY : Utf16 := Utf16.ofString "warren.deviceIdentity"

/-- A `TokenStorageArea` or a `DeviceIdentityStorageArea`, as what it holds. -/
abbrev StorageArea := Utf16 → Option Json

/-- A write of the area under a store's key. -/
inductive AreaWrite
  | set (serialized : Utf16)
  | remove
deriving DecidableEq

namespace AreaWrite

/-- What the store answers once it has made the write. -/
def text : AreaWrite → Option Utf16
  | .set serialized => some serialized
  | .remove => none

def perform (key : Utf16) (area : StorageArea) : AreaWrite → StorageArea
  | .set serialized => Function.update area key (some (.string serialized))
  | .remove => Function.update area key none

@[simp] theorem perform_self (key : Utf16) (area : StorageArea) (w : AreaWrite) :
    w.perform key area key = w.text.map .string := by
  cases w <;> exact Function.update_self ..

end AreaWrite

/-! ## A store -/

structure State where
  /-- `bundle`, `text` -/
  text : Option Utf16
  queue : Chain AreaWrite
  area : StorageArea

/-- What a store begins with, by what its read gave: `none` where the area rejected it. -/
def read (key : Utf16) (got : Option StorageArea) : Option Utf16 :=
  match got with
  | none => none
  | some items =>
    match items key with
    | some (.string value) => some value
    | _ => none

def State.opened (key : Utf16) (got : Option StorageArea) (area : StorageArea) : State where
  text := read key got
  queue := .empty
  area

def openTokenStore (got : Option StorageArea) (area : StorageArea)
    (key : Utf16 := TOKEN_BUNDLE_KEY) : State :=
  .opened key got area

def openDeviceIdentityStore (got : Option StorageArea) (area : StorageArea)
    (key : Utf16 := DEVICE_IDENTITY_KEY) : State :=
  .opened key got area

/-- The calls of a `TokenPersistence` that write. -/
inductive TokenCall
  | save (serialized : Utf16)
deriving DecidableEq

/-- The calls of a `DeviceIdentityPersistence` that write. -/
inductive DeviceCall
  | save (serialized : Utf16)
  | remove
deriving DecidableEq

def TokenCall.write : TokenCall → AreaWrite
  | .save serialized => .set serialized

def DeviceCall.write : DeviceCall → AreaWrite
  | .save serialized => .set serialized
  | .remove => .remove

namespace State

def load (s : State) : Option Utf16 := s.text

/-- The promise that `flush()` returns, by its number in the chain. -/
def flush (s : State) : Nat := s.queue.links.length

def put (w : AreaWrite) (s : State) : State :=
  { s with text := w.text, queue := s.queue.enqueue w }

/-- The area after an act of link `i`. -/
def areaAfter (key : Utf16) (i : Nat) (s : State) : Act → StorageArea
  | .perform =>
    match s.queue.links[i]? with
    | some link => link.task.perform key s.area
    | none => s.area
  | _ => s.area

end State

theorem State.areaAfter_of_ne {s : State} (h : a ≠ .perform) : s.areaAfter key i a = s.area := by
  cases a with
  | perform => exact absurd rfl h
  | call | pass | settle | resolve => rfl

inductive Event (κ : Type)
  | issue (call : κ)
  /-- A reaction of the queue, or what the area makes of a write. -/
  | act (i : Nat) (a : Act)
  /-- Another key of the area is written. -/
  | outside (key : Utf16) (value : Option Json)

section
variable {κ : Type} (key : Utf16) (write : κ → AreaWrite)

def step (s : State) : Event κ → Option State
  | .issue call => some (s.put (write call))
  | .act i a => (s.queue.act i a).map fun queue => { s with queue, area := s.areaAfter key i a }
  | .outside other value =>
    if other = key then none else some { s with area := Function.update s.area other value }

/-- What an event is to the queue. -/
def Event.onQueue : Event κ → Option (Chain.Event AreaWrite)
  | .issue call => some (.enqueue (write call))
  | .act i a => some (.act i a)
  | .outside _ _ => none

end

/-! ## What a step keeps -/

section
variable {κ : Type} {key : Utf16} {write : κ → AreaWrite} {s t : State}

theorem act_step (h : step key write s (.act i a) = some t) :
    ∃ queue, s.queue.act i a = some queue ∧
      t = { s with queue, area := s.areaAfter key i a } := by
  obtain ⟨queue, hqueue, hnext⟩ := Option.map_eq_some_iff.mp h
  exact ⟨queue, hqueue, hnext.symm⟩

theorem queue_step {e : Event κ} (h : step key write s e = some t)
    (he : e.onQueue write = some e') :
    s.queue.step e' = some t.queue := by
  cases e with
  | issue call =>
    cases h
    cases he
    rfl
  | act i a =>
    obtain ⟨queue, hqueue, rfl⟩ := act_step h
    cases he
    exact hqueue
  | outside other value => cases he

theorem outside_step {other : Utf16} (h : step key write s (.outside other value) = some t) :
    other ≠ key ∧ t = { s with area := Function.update s.area other value } := by
  rw [step] at h
  split at h
  · cases h
  · next hother =>
    cases h
    exact ⟨hother, rfl⟩

theorem queue_of_not_step {e : Event κ} (h : step key write s e = some t)
    (he : e.onQueue write = none) : t.queue = s.queue := by
  cases e with
  | issue call | act i a => cases he
  | outside other value =>
    obtain ⟨-, rfl⟩ := outside_step h
    rfl

/-- The area holds what the last write that took effect left. -/
structure Inv (key : Utf16) (s : State) : Prop where
  orderly : s.queue.Orderly
  area : ∀ {i link}, s.queue.Latest i link → s.area key = link.task.text.map .string

theorem inv_opened (key : Utf16) (got : Option StorageArea) (area : StorageArea) :
    Inv key (.opened key got area) where
  orderly := Chain.orderly_empty
  area h := nomatch h.getElem?

theorem Inv.put (h : Inv key s) (w : AreaWrite) : Inv key (s.put w) where
  orderly := h.orderly.step (e := .enqueue w) rfl
  area hlatest := h.area hlatest.of_enqueue

theorem Inv.act (h : Inv key s) (ha : s.queue.act i a = some queue) :
    Inv key { s with queue, area := s.areaAfter key i a } where
  orderly := h.orderly.step (e := .act i a) ha
  area hlatest := by
    obtain ⟨link₀, hi, htask, ⟨rfl, rfl⟩ | ⟨hact, hlatest₀⟩⟩ := h.orderly.latest_of_act ha hlatest
    · simp only [State.areaAfter, hi, AreaWrite.perform_self, htask]
    · rw [State.areaAfter_of_ne hact, htask]
      exact h.area hlatest₀

theorem Inv.step {e : Event κ} (h : Inv key s) (hs : step key write s e = some t) : Inv key t := by
  cases e with
  | issue call =>
    cases hs
    exact h.put (write call)
  | act i a =>
    obtain ⟨queue, hqueue, rfl⟩ := act_step hs
    exact h.act hqueue
  | outside other value =>
    obtain ⟨hother, rfl⟩ := outside_step hs
    exact ⟨h.orderly, fun hlatest =>
      (Function.update_of_ne hother.symm ..).trans (h.area hlatest)⟩

end

/-! ## Every run -/

section
variable {κ : Type} {key : Utf16} {write : κ → AreaWrite} {got : Option StorageArea}
  {area : StorageArea}

/-- What a store and its area do from the opening on. -/
abbrev Session (key : Utf16) (write : κ → AreaWrite) (got : Option StorageArea)
    (area : StorageArea) :=
  Behaviour (step key write) (.opened key got area)

variable (b : Session key write got area)

/-- The queue of a store is a chain of promises. -/
def Session.queue : Behaviour (@Chain.step AreaWrite) .empty :=
  b.map State.queue (Event.onQueue write) queue_step queue_of_not_step

/-- The writes issued before the instant `n`, in their order. -/
def Session.issued : Nat → List AreaWrite
  | 0 => []
  | n + 1 =>
    match b.event n with
    | some (.issue call) => Session.issued n ++ [write call]
    | _ => Session.issued n

theorem Session.issued_of_issue (he : b.event n = some (.issue call)) :
    b.issued (n + 1) = b.issued n ++ [write call] := by
  simp only [Session.issued, he]

theorem Session.issued_of_not (he : ∀ call, b.event n ≠ some (.issue call)) :
    b.issued (n + 1) = b.issued n := by
  rw [Session.issued]
  split
  · next call hcall => exact absurd hcall (he call)
  · rfl

theorem Session.queue_event (he : b.event n = some (.act i a)) :
    b.queue.event n = some (.act i a) := by
  simp only [Session.queue, Behaviour.map, he, Option.bind_some, Event.onQueue]

theorem Session.inv (n : Nat) : Inv key (b.state n) :=
  b.invariant Inv.step (inv_opened key got area) n

/-- What a call that writes does, and what any other instant leaves as it was. -/
theorem Session.cases (n : Nat) :
    (∃ call, b.event n = some (.issue call) ∧ b.state (n + 1) = (b.state n).put (write call)) ∨
      (∀ call, b.event n ≠ some (.issue call)) ∧ (b.state (n + 1)).text = (b.state n).text ∧
        (b.state (n + 1)).queue.tasks = (b.state n).queue.tasks := by
  rcases he : b.event n with _ | (call | ⟨i, a⟩ | ⟨other, value⟩)
  · right
    rw [b.state_of_no_event he]
    exact ⟨nofun, rfl, rfl⟩
  · exact .inl ⟨call, rfl, (Option.some.inj (b.step_of_event he)).symm⟩
  · right
    obtain ⟨queue, hqueue, hnext⟩ := act_step (b.step_of_event he)
    rw [hnext]
    exact ⟨nofun, rfl, (b.inv n).orderly.tasks_act hqueue⟩
  · right
    obtain ⟨-, hnext⟩ := outside_step (b.step_of_event he)
    rw [hnext]
    exact ⟨nofun, rfl, rfl⟩

/-- The queue holds the writes that were issued. -/
theorem Session.tasks (n : Nat) : (b.state n).queue.tasks = b.issued n := by
  induction n with
  | zero =>
    rw [b.init]
    rfl
  | succ n ih =>
    rcases b.cases n with ⟨call, he, hnext⟩ | ⟨hno, -, htasks⟩
    · rw [b.issued_of_issue he, hnext, State.put, Chain.tasks_enqueue, ih]
    · rw [b.issued_of_not hno, htasks, ih]

/-- The answer of a store, of the writes issued. -/
def lastText (opened : Option Utf16) (writes : List AreaWrite) : Option Utf16 :=
  match writes.getLast? with
  | some w => w.text
  | none => opened

theorem Session.load (n : Nat) : (b.state n).load = lastText (read key got) (b.issued n) := by
  induction n with
  | zero =>
    rw [b.init]
    rfl
  | succ n ih =>
    rcases b.cases n with ⟨call, he, hnext⟩ | ⟨hno, htext, -⟩
    · rw [b.issued_of_issue he, hnext, lastText, List.getLast?_concat]
      rfl
    · rw [b.issued_of_not hno, ← ih]
      exact htext

@[simp] theorem Session.length_links (n : Nat) :
    (b.state n).queue.links.length = (b.issued n).length := by
  rw [← b.tasks n, Chain.tasks, List.length_map]

/-- A write that takes effect leaves its text under the key. -/
theorem Session.written (he : b.event n = some (.act i .perform)) :
    ∃ w, (b.issued n)[i]? = some w ∧ (b.state (n + 1)).area key = w.text.map .string := by
  obtain ⟨queue, hqueue, hnext⟩ := act_step (b.step_of_event he)
  obtain ⟨link, link', hi, -⟩ := (b.inv n).orderly.moves hqueue
  refine ⟨link.task, ?_, ?_⟩
  · rw [← b.tasks n, Chain.tasks, List.getElem?_map, hi]
    rfl
  · rw [hnext]
    simp only [State.areaAfter, hi, AreaWrite.perform_self]

/-- Nothing else changes what is under the key. -/
theorem Session.kept (he : ∀ i, b.event n ≠ some (.act i .perform)) :
    (b.state (n + 1)).area key = (b.state n).area key := by
  rcases hb : b.event n with _ | (call | ⟨i, a⟩ | ⟨other, value⟩)
  · rw [b.state_of_no_event hb]
  · rw [← Option.some.inj (b.step_of_event hb)]
    rfl
  · obtain ⟨queue, -, hnext⟩ := act_step (b.step_of_event hb)
    have ha : a ≠ .perform := by
      intro ha
      subst ha
      exact he i hb
    rw [hnext]
    exact congrFun (State.areaAfter_of_ne ha) key
  · obtain ⟨hother, hnext⟩ := outside_step (b.step_of_event hb)
    rw [hnext]
    exact Function.update_of_ne hother.symm ..

/-- Once the last write has settled and was not rejected, the area holds what the store answers. -/
theorem Session.area_of_flushed {link : Link AreaWrite}
    (hp : (b.state n).queue.promise (b.state n).flush = .fulfilled)
    (hlast : (b.state n).queue.links.getLast? = some link) (hcall : link.call ≠ some .rejected) :
    (b.state n).area key = (b.state n).load.map .string := by
  obtain ⟨front, hfront⟩ := List.getLast?_eq_some_iff.mp hlast
  have hlength : front.length + 1 = (b.state n).queue.links.length := by
    rw [hfront, List.length_append, List.length_singleton]
  have hi : (b.state n).queue.links[front.length]? = some link := by
    rw [hfront, List.getElem?_concat_length]
  rw [State.flush, ← hlength] at hp
  have hperf := (b.inv n).orderly.performed_of_fulfilled hi hp hcall
  have hload : (b.state n).load = link.task.text := by
    rw [b.load n, ← b.tasks n, Chain.tasks, hfront, List.map_append, lastText, List.map_singleton,
      List.getLast?_concat]
  rw [hload]
  exact (b.inv n).area (Chain.latest_of_last hi hlength hperf)

/-- What the queue of a store is for. -/
structure Session.KeepsOrder : Prop where
  /-- The store answers the text last saved. -/
  load : ∀ n, (b.state n).load = lastText (read key got) (b.issued n)
  /-- Link `i` of the queue is the write issued as number `i`. -/
  queued : ∀ n, (b.state n).queue.tasks = b.issued n
  /-- A write is started after those before it have settled, while none is in flight. -/
  alone : ∀ {n i}, b.event n = some (.act i .call) →
    (∀ j, ¬ (b.state n).queue.InFlight j) ∧ ∀ j < i, (b.state n).queue.Settled j
  once : ∀ {n m i}, b.event n = some (.act i .call) → b.event m = some (.act i .call) → n = m
  /-- What is under the key is written in the order of issue. -/
  ordered : ∀ {n m i j}, b.event n = some (.act i .perform) → b.event m = some (.act j .perform) →
    n < m → i < j
  written : ∀ {n i}, b.event n = some (.act i .perform) →
    ∃ w, (b.issued n)[i]? = some w ∧ (b.state (n + 1)).area key = w.text.map .string
  kept : ∀ {n}, (∀ i, b.event n ≠ some (.act i .perform)) →
    (b.state (n + 1)).area key = (b.state n).area key
  /-- `flush()` never rejects, and it resolves whatever becomes of the writes. -/
  not_rejected : ∀ n i, (b.state n).queue.promise i ≠ .rejected
  resolves : Chain.Fair b.queue → ∀ n, ∃ m, n ≤ m ∧
    (b.state m).queue.promise (b.state n).flush = .fulfilled
  /-- Then the writes before it have settled, and without a later call the area agrees with the
  store, unless the last write was rejected. -/
  flushed : ∀ {n m}, (b.state m).queue.promise (b.state n).flush = .fulfilled →
    (∀ i < (b.issued n).length, (b.state m).queue.Settled i) ∧
    (b.issued m = b.issued n → ∀ link, (b.state m).queue.links.getLast? = some link →
      link.call ≠ some .rejected → (b.state m).area key = (b.state m).load.map .string)

theorem Session.keepsOrder : b.KeepsOrder where
  load := b.load
  queued := b.tasks
  alone he := Chain.call_alone b.queue (b.queue_event he)
  once he he' := Chain.call_once b.queue (b.queue_event he) (b.queue_event he')
  ordered he he' := Chain.perform_lt b.queue (b.queue_event he) (b.queue_event he')
  written := b.written
  kept := b.kept
  not_rejected n := (b.inv n).orderly.promise_ne_rejected
  resolves hb n := hb.fulfilled (Nat.le_refl _)
  flushed {n m} hp := by
    constructor
    · intro i hi
      rw [← b.length_links n] at hi
      exact (b.inv m).orderly.settled_of_lt hi hp
    · intro hsame link hlast hcall
      have hflush : (b.state n).flush = (b.state m).flush := by
        rw [State.flush, State.flush, b.length_links, b.length_links, hsame]
      rw [hflush] at hp
      exact b.area_of_flushed hp hlast hcall

end

/-- Whatever is saved and removed, and whatever the area does with it. -/
theorem stores_keepOrder (key : Utf16) (got : Option StorageArea) (area : StorageArea) :
    (∀ b : Behaviour (step key TokenCall.write) (openTokenStore got area key),
      Session.KeepsOrder b) ∧
    ∀ b : Behaviour (step key DeviceCall.write) (openDeviceIdentityStore got area key),
      Session.KeepsOrder b :=
  ⟨Session.keepsOrder, Session.keepsOrder⟩

/-- Two texts saved at once, of which the area rejects the first. -/
def healed : Behaviour (step TOKEN_BUNDLE_KEY TokenCall.write)
    (openTokenStore none fun _ => none) :=
  .ofList [.issue (.save [0x61]), .issue (.save [0x62]), .act 0 .call, .act 0 (.settle false),
    .act 0 .resolve, .act 1 .call, .act 1 .perform, .act 1 (.settle true), .act 1 .resolve] ⟨_, rfl⟩

theorem stores_keepOrder_healed : Chain.Fair (Session.queue healed) ∧
    (healed.state 9).area TOKEN_BUNDLE_KEY = some (.string [0x62]) ∧
    Session.KeepsOrder healed := by
  have hlast (n : Nat) (hn : 9 ≤ n) : healed.state n = healed.state 9 :=
    (replay_of_length_le rfl hn).trans (replay_of_length_le rfl (Nat.le_refl 9)).symm
  refine ⟨Chain.Fair.of_rest _ 9 fun n hn i link hi => ?_, rfl, ?_⟩
  · change (healed.state n).queue.links[i]? = some link at hi
    rw [hlast n hn] at hi
    match i with
    | 0 | 1 =>
      cases hi
      rfl
    | i + 2 => cases hi
  · exact (stores_keepOrder TOKEN_BUNDLE_KEY none fun _ => none).1 healed

end WarrenSdk.Extension.WriteBehind
