import Mathlib.Logic.Basic

/-!
# Runs of a partial step function

A system is a step function `step : σ → ε → Option σ`: an event that is not possible in a state
leads nowhere. `Run` is reachability by allowed events, with its invariant rule; `Always` and
`Guarded` speak about every state, and about every step, of one list of events, and
`always_iff_guarded` is the rule for a guard that is exact: the property holds all along exactly
when no step breaks the guard. A guard may look at what happened before a step: `noting` keeps a
history beside the state, and changes nothing of the state (`always_noting`).
-/

namespace WarrenSdk.Lib

section
variable {σ : Type u} {ε : Type v} (step : σ → ε → Option σ)

/-- `Run step ok s t`: `t` is reached from `s` by events that `ok` allows where they happen. -/
inductive Run (ok : σ → ε → Prop) (s : σ) : σ → Prop
  | refl : Run ok s s
  | tail : Run ok s t → ok t e → step t e = some u → Run ok s u

/-- A run with the states it passed, the last first. -/
inductive Trace (ok : σ → ε → Prop) (s : σ) : List σ → σ → Prop
  | start : Trace ok s [s] s
  | next : Trace ok s past t → ok t e → step t e = some u → Trace ok s (u :: past) u

/-- `P` holds in every state along `es`, the first and the last included. -/
def Always (P : σ → Prop) : σ → List ε → Prop
  | s, [] => P s
  | s, e :: es => P s ∧ ∀ t, step s e = some t → Always P t es

/-- The state that `es` leads to, `none` when one of them is not possible or not allowed. -/
def exec (ok : σ → ε → Bool) : σ → List ε → Option σ
  | s, [] => some s
  | s, e :: es => if ok s e then (step s e).bind (exec ok · es) else none

/-- Every event of `es` that happens does so in a state where `C` allows it. -/
def Guarded (C : σ → ε → Prop) : σ → List ε → Prop
  | _, [] => True
  | s, e :: es => ∀ t, step s e = some t → C s e ∧ Guarded C t es

/-- A state, with what was noted on the way to it, the last first. -/
structure Noted (σ : Type u) (α : Type w) where
  state : σ
  notes : List α := []

/-- A step, with what is noted of it. -/
def noting {α : Type w} (note : σ → ε → Option α) (s : Noted σ α) (e : ε) : Option (Noted σ α) :=
  (step s.state e).map fun t => { state := t, notes := (note s.state e).toList ++ s.notes }

end

variable {σ : Type u} {ε : Type v} {step : σ → ε → Option σ}

namespace Run

theorem single {ok : σ → ε → Prop} (ho : ok s e) (h : step s e = some t) : Run step ok s t :=
  .tail .refl ho h

theorem trans {ok : σ → ε → Prop} (h₁ : Run step ok s t) (h₂ : Run step ok t u) :
    Run step ok s u := by
  induction h₂ with
  | refl => exact h₁
  | tail _ ho h ih => exact ih.tail ho h

theorem mono {ok ok' : σ → ε → Prop} (hok : ∀ s e, ok s e → ok' s e) (h : Run step ok s t) :
    Run step ok' s t := by
  induction h with
  | refl => exact .refl
  | tail _ ho h ih => exact ih.tail (hok _ _ ho) h

/-- The invariant rule: what the start has and every allowed step keeps, every run keeps. -/
theorem invariant {ok : σ → ε → Prop} {I : σ → Prop}
    (hstep : ∀ {s e t}, I s → ok s e → step s e = some t → I t)
    (h : Run step ok s t) (hs : I s) : I t := by
  induction h with
  | refl => exact hs
  | tail _ ho h ih => exact hstep ih ho h

end Run

/-- The invariant rule for what a state owes to the states before it. -/
theorem Trace.invariant {ok : σ → ε → Prop} {I : List σ → σ → Prop} (hs : I [s] s)
    (hstep : ∀ {past t e u}, I past t → ok t e → step t e = some u → I (u :: past) u)
    (h : Trace step ok s past t) : I past t := by
  induction h with
  | start => exact hs
  | next _ ho h ih => exact hstep ih ho h

theorem Always.head {P : σ → Prop} {es : List ε} (h : Always step P s es) : P s := by
  cases es with
  | nil => exact h
  | cons e es => exact h.1

/-- The invariant rule for a property of every state along a run. -/
theorem Always.of_invariant {I P : σ → Prop} (hP : ∀ {s}, I s → P s)
    (hstep : ∀ {s e t}, I s → step s e = some t → I t) {es : List ε} (hs : I s) :
    Always step P s es := by
  induction es generalizing s with
  | nil => exact hP hs
  | cons e es ih => exact ⟨hP hs, fun t ht => ih (hstep hs ht)⟩

theorem exec_cons {ok : σ → ε → Bool} {es : List ε} (h : exec step ok s (e :: es) = some t) :
    ok s e = true ∧ ∃ u, step s e = some u ∧ exec step ok u es = some t := by
  unfold exec at h
  split at h
  · next ho => exact ⟨ho, Option.bind_eq_some_iff.mp h⟩
  · cases h

theorem exec_cons_of_step {ok : σ → ε → Bool} (es : List ε) (ho : ok s e = true)
    (h : step s e = some t) : exec step ok s (e :: es) = exec step ok t es := by
  rw [exec, if_pos ho, h, Option.bind_some]

theorem exec_append {ok : σ → ε → Bool} {es fs : List ε} (h : exec step ok s es = some t) :
    exec step ok s (es ++ fs) = exec step ok t fs := by
  induction es generalizing s with
  | nil => cases h; rfl
  | cons e es ih =>
    obtain ⟨ho, u, hu, h⟩ := exec_cons h
    rw [List.cons_append, exec_cons_of_step _ ho hu, ih h]

theorem Run.of_exec {ok : σ → ε → Bool} {es : List ε} (h : exec step ok s es = some t) :
    Run step (fun s e => ok s e = true) s t := by
  induction es generalizing s with
  | nil => cases h; exact .refl
  | cons e es ih =>
    obtain ⟨ho, u, hu, h⟩ := exec_cons h
    have h₁ : Run step (fun s e => ok s e = true) s u := .single ho hu
    exact h₁.trans (ih h)

/-- What holds all along holds at the end. -/
theorem Always.exec {P : σ → Prop} {ok : σ → ε → Bool} {es : List ε} (h : Always step P s es)
    (ht : exec step ok s es = some t) : P t := by
  induction es generalizing s with
  | nil => cases ht; exact h
  | cons e es ih =>
    obtain ⟨-, u, hu, ht⟩ := exec_cons ht
    exact ih (h.2 u hu) ht

/-- What guards a run guards the rest of it. -/
theorem Guarded.exec {C : σ → ε → Prop} {ok : σ → ε → Bool} {es fs : List ε}
    (h : Guarded step C s (es ++ fs)) (ht : exec step ok s es = some t) : Guarded step C t fs := by
  induction es generalizing s with
  | nil =>
    cases ht
    exact h
  | cons e es ih =>
    obtain ⟨-, u, hu, ht⟩ := exec_cons ht
    exact ih (h u hu).2 ht

/-- What is noted of a run changes none of its states. -/
theorem always_noting {α : Type w} (note : σ → ε → Option α) {P : σ → Prop} {es : List ε}
    (s : Noted σ α) :
    Always (noting step note) (fun s => P s.state) s es ↔ Always step P s.state es := by
  induction es generalizing s with
  | nil => exact Iff.rfl
  | cons e es ih =>
    refine and_congr_right fun _ => ⟨fun h t ht => ?_, fun h t ht => ?_⟩
    · exact (ih _).mp (h _ (by rw [noting, ht, Option.map_some]))
    · obtain ⟨u, hu, rfl⟩ := Option.map_eq_some_iff.mp ht
      exact (ih _).mpr (h u hu)

/-- A guard is exact for `P` when `I` carries `P` along guarded steps and a step that breaks the
guard breaks `P` at once: then the runs all of whose states satisfy `P` are the guarded runs. -/
theorem always_iff_guarded {I P : σ → Prop} {C : σ → ε → Prop}
    (hP : ∀ {s}, I s → P s)
    (hstep : ∀ {s e t}, I s → C s e → step s e = some t → I t)
    (hbreak : ∀ {s e t}, I s → ¬ C s e → step s e = some t → ¬ P t)
    {es : List ε} (hs : I s) : Always step P s es ↔ Guarded step C s es := by
  induction es generalizing s with
  | nil => exact ⟨fun _ => trivial, fun _ => hP hs⟩
  | cons e es ih =>
    constructor
    · rintro ⟨-, h⟩ t ht
      have hc : C s e :=
        Classical.byContradiction fun hc => hbreak hs hc ht (h t ht).head
      exact ⟨hc, (ih (hstep hs hc ht)).mp (h t ht)⟩
    · intro h
      refine ⟨hP hs, fun t ht => ?_⟩
      obtain ⟨hc, h⟩ := h t ht
      exact (ih (hstep hs hc ht)).mpr h

/-- Two guards that agree wherever an invariant holds guard the same runs. -/
theorem guarded_iff {I : σ → Prop} {C D : σ → ε → Prop}
    (hstep : ∀ {s e t}, I s → step s e = some t → I t)
    (h : ∀ {s e t}, I s → step s e = some t → (C s e ↔ D s e)) {es : List ε} (hs : I s) :
    Guarded step C s es ↔ Guarded step D s es := by
  induction es generalizing s with
  | nil => exact Iff.rfl
  | cons e es ih =>
    refine forall_congr' fun t => forall_congr' fun ht => ?_
    exact and_congr (h hs ht) (ih (hstep hs ht))

/-! ## Loops that end

A loop is a guard and what one turn makes of the state. `Turns n s t` says that the loop, begun in
`s`, ends in `t` after `n` turns; what its turns keep holds there. -/

section
variable {σ : Type u} (guard : σ → Prop) (turn : σ → σ)

/-- From `s` the loop takes `n` turns and ends in `t`. -/
inductive Turns : Nat → σ → σ → Prop
  | stop (h : ¬ guard s) : Turns 0 s s
  | turn (h : guard s) : Turns n (turn s) t → Turns (n + 1) s t

end

namespace Turns
variable {σ : Type u} {guard : σ → Prop} {turn : σ → σ}

/-- The invariant rule. -/
theorem invariant {I : σ → Prop} (hturn : ∀ {s}, guard s → I s → I (turn s))
    (h : Turns guard turn n s t) (hs : I s) : I t := by
  induction h with
  | stop => exact hs
  | turn hg _ ih => exact ih (hturn hg hs)

end Turns

end WarrenSdk.Lib
