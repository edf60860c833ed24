import WarrenSdk.Lib.Run

/-!
# Infinite behaviours

`Run` and `Guarded` speak of finite lists of events. That something happens eventually is said of a
`Behaviour`: at each instant one event happens or none does, so that a run that ends stutters.
Beside the invariant rule there is one rule for progress, `Behaviour.exhausted`: a rank that no step
raises and that, while it is positive, some later step lowers, comes down to zero.
-/

namespace WarrenSdk.Lib

section
variable {σ : Type u} {ε : Type v} (step : σ → ε → Option σ)

structure Behaviour (start : σ) where
  state : Nat → σ
  event : Nat → Option ε
  init : state 0 = start
  next : ∀ n, match event n with
    | some e => step (state n) e = some (state (n + 1))
    | none => state (n + 1) = state n

/-- The state after the first `n` events of a list; the last state stays. -/
def replay : σ → List ε → Nat → σ
  | s, [], _ => s
  | s, _ :: _, 0 => s
  | s, e :: es, n + 1 => replay ((step s e).getD s) es n

end

variable {σ : Type u} {ε : Type v} {step : σ → ε → Option σ} {start : σ}

namespace Behaviour

theorem step_of_event (b : Behaviour step start) (he : b.event n = some e) :
    step (b.state n) e = some (b.state (n + 1)) := by
  have h := b.next n
  rwa [he] at h

theorem state_of_no_event (b : Behaviour step start) (he : b.event n = none) :
    b.state (n + 1) = b.state n := by
  have h := b.next n
  rwa [he] at h

/-- What one instant does: nothing, or an event. -/
theorem next_cases (b : Behaviour step start) (n : Nat) :
    b.state (n + 1) = b.state n ∨
      ∃ e, b.event n = some e ∧ step (b.state n) e = some (b.state (n + 1)) := by
  cases he : b.event n with
  | none => exact .inl (b.state_of_no_event he)
  | some e => exact .inr ⟨e, rfl, b.step_of_event he⟩

/-- What holds at an instant and every step keeps holds from there on. -/
theorem invariant_from (b : Behaviour step start) {I : σ → Prop}
    (hstep : ∀ {s e t}, I s → step s e = some t → I t) (hn : I (b.state n)) (hm : n ≤ m) :
    I (b.state m) := by
  induction hm with
  | refl => exact hn
  | @step m _ ih =>
    rcases b.next_cases m with h | ⟨e, -, h⟩
    · rwa [h]
    · exact hstep ih h

theorem invariant (b : Behaviour step start) {I : σ → Prop}
    (hstep : ∀ {s e t}, I s → step s e = some t → I t) (hs : I start) (n : Nat) :
    I (b.state n) :=
  b.invariant_from hstep (by rwa [b.init]) (Nat.zero_le n)

/-- A behaviour seen through `f`, which takes each step to a step or to none. -/
def map (b : Behaviour step start) {σ' : Type w} {ε' : Type x} {step' : σ' → ε' → Option σ'}
    (f : σ → σ') (g : ε → Option ε')
    (hstep : ∀ {s e t e'}, step s e = some t → g e = some e' → step' (f s) e' = some (f t))
    (hnone : ∀ {s e t}, step s e = some t → g e = none → f t = f s) : Behaviour step'
    (f start) where
  state n := f (b.state n)
  event n := (b.event n).bind g
  init := congrArg f b.init
  next n := by
    rcases hb : b.event n with _ | e
    · exact congrArg f (b.state_of_no_event hb)
    · have hs := b.step_of_event hb
      rw [Option.bind_some]
      rcases hg : g e with _ | e'
      · exact hnone hs hg
      · exact hstep hs hg

/-- The progress rule. -/
theorem exhausted (b : Behaviour step start) {I : σ → Prop} {rank : σ → Nat}
    (hI : ∀ {s e t}, I s → step s e = some t → I t ∧ rank t ≤ rank s)
    (hfair : ∀ m, n ≤ m → 0 < rank (b.state m) →
      ∃ k, m ≤ k ∧ rank (b.state (k + 1)) < rank (b.state k))
    (hn : I (b.state n)) : ∃ k, n ≤ k ∧ rank (b.state k) = 0 := by
  have hle {i j : Nat} (hi : I (b.state i)) (hij : i ≤ j) :
      I (b.state j) ∧ rank (b.state j) ≤ rank (b.state i) :=
    b.invariant_from (I := fun s => I s ∧ rank s ≤ rank (b.state i))
      (fun h hs => ⟨(hI h.1 hs).1, Nat.le_trans (hI h.1 hs).2 h.2⟩) ⟨hi, Nat.le_refl _⟩ hij
  induction hr : rank (b.state n) using Nat.strongRecOn generalizing n with
  | ind r ih =>
    subst hr
    rcases Nat.eq_zero_or_pos (rank (b.state n)) with hz | hpos
    · exact ⟨n, Nat.le_refl _, hz⟩
    · obtain ⟨k, hnk, hlt⟩ := hfair n (Nat.le_refl _) hpos
      have hk := hle hn hnk
      have hk' : I (b.state (k + 1)) := (hle hn (Nat.le_succ_of_le hnk)).1
      obtain ⟨j, hkj, hj⟩ := ih _ (Nat.lt_of_lt_of_le hlt hk.2)
        (fun m hm => hfair m (by omega)) hk' rfl
      exact ⟨j, by omega, hj⟩

/-- The behaviour of a list of events that can all happen. -/
def ofList (es : List ε) (h : ∃ t, exec step (fun _ _ => true) start es = some t) :
    Behaviour step start where
  state := replay step start es
  event n := es[n]?
  init := by cases es <;> rfl
  next n := by
    obtain ⟨t, ht⟩ := h
    induction es generalizing start n with
    | nil => rfl
    | cons e es ih =>
      obtain ⟨-, u, hu, ht⟩ := exec_cons ht
      cases n with
      | zero =>
        simp only [List.getElem?_cons_zero, replay, hu, Option.getD_some]
        cases es <;> rfl
      | succ n =>
        simp only [List.getElem?_cons_succ, replay, hu, Option.getD_some]
        exact ih n ht

end Behaviour

/-- After its last event a list of events has led where `exec` says. -/
theorem replay_of_length_le {es : List ε} (h : exec step (fun _ _ => true) start es = some t)
    (hn : es.length ≤ n) : replay step start es n = t := by
  induction es generalizing start n with
  | nil => cases h; rfl
  | cons e es ih =>
    obtain ⟨-, u, hu, h⟩ := exec_cons h
    cases n with
    | zero => cases hn
    | succ n =>
      simp only [replay, hu, Option.getD_some]
      exact ih h (Nat.le_of_succ_le_succ hn)

end WarrenSdk.Lib
