import Mathlib.Logic.Function.Basic
import Mathlib.Data.List.Basic

/-!
# Calls on a store, answered one by one

A `Ledger` is a store with the calls that were made on it and the results they have so far. Some
calls write the store, with the effect a write has when it is answered, unless it is refused. A
write does not wait for the ones before it; what the store holds in the end is known all the same
when writes are answered in the order they were made: `Awaits` follows the write that was made last.
-/

namespace WarrenSdk.Lib

structure Ledger (κ : Type u) (ρ : Type v) (σ : Type w) where
  calls : List κ
  results : Nat → Option ρ
  stored : σ

namespace Ledger

variable {κ : Type u} {ρ : Type v} {σ : Type w}

section
variable (written : κ → Option σ) (took : ρ → Bool)

/-- The call `n`, which was `c`, is answered `r`. -/
def answer (n : Nat) (c : κ) (r : ρ) (l : Ledger κ ρ σ) : Ledger κ ρ σ :=
  { l with
    results := Function.update l.results n (some r)
    stored := if took r then (written c).getD l.stored else l.stored }

/-- A call is made. -/
def make (c : κ) (l : Ledger κ ρ σ) : Ledger κ ρ σ := { l with calls := l.calls ++ [c] }

/-- The writes before the call `n` have their answers. -/
def InOrder (n : Nat) (l : Ledger κ ρ σ) : Prop :=
  ∀ m c, m < n → l.calls[m]? = some c → written c ≠ none → l.results m ≠ none

/-- Every write but the call `awaited` has its answer. -/
def Waits (awaited : Option Nat) (l : Ledger κ ρ σ) : Prop :=
  ∀ m c, l.calls[m]? = some c → written c ≠ none → l.results m ≠ none ∨ awaited = some m

/-- Only calls that were made have results. -/
def Sound (l : Ledger κ ρ σ) : Prop := ∀ m, l.calls.length ≤ m → l.results m = none

/-- The call `n` writes `value` and is the last that writes. -/
structure Awaits (n : Nat) (value : σ) (l : Ledger κ ρ σ) : Prop where
  call : ∃ c, l.calls[n]? = some c ∧ written c = some value
  last : ∀ {m c}, n < m → l.calls[m]? = some c → written c = none
  took : ∀ {r}, l.results n = some r → took r = true → l.InOrder written n ∧ l.stored = value

end

variable {written : κ → Option σ} {took : ρ → Bool} {l : Ledger κ ρ σ} {value : σ}

theorem lt_length_of_getElem? {calls : List κ} (h : calls[n]? = some c) : n < calls.length :=
  (List.getElem?_eq_some_iff.mp h).1

theorem getElem?_append_singleton {calls : List κ} (h : (calls ++ [c])[n]? = some d) :
    calls[n]? = some d ∨ n = calls.length ∧ d = c := by
  rcases Nat.lt_or_ge n calls.length with hn | hn
  · rw [List.getElem?_append_left hn] at h
    exact .inl h
  · have hlt := lt_length_of_getElem? h
    rw [List.length_append, List.length_singleton] at hlt
    obtain rfl := Nat.le_antisymm (Nat.le_of_lt_succ hlt) hn
    rw [List.getElem?_concat_length] at h
    exact .inr ⟨rfl, (Option.some.inj h).symm⟩

theorem InOrder.answer (h : l.InOrder written n) (k : Nat) (c : κ) (r : ρ) :
    (l.answer written took k c r).InOrder written n := by
  intro m d hm hd hwrites
  by_cases hmk : m = k
  · subst hmk
    simp [Ledger.answer]
  · simp only [Ledger.answer, Function.update_of_ne hmk]
    exact h m d hm hd hwrites

theorem InOrder.make (h : l.InOrder written n) (hn : n ≤ l.calls.length) (c : κ) :
    (l.make c).InOrder written n := by
  intro m d hm hd hwrites
  rcases getElem?_append_singleton hd with hd | ⟨rfl, -⟩
  · exact h m d hm hd hwrites
  · exact absurd hn (Nat.not_le.mpr hm)

/-! ## Answers that are awaited -/

theorem Sound.make (h : l.Sound) (c : κ) : (l.make c).Sound := by
  intro m hm
  rw [Ledger.make, List.length_append] at hm
  exact h m (Nat.le_trans (Nat.le_add_right _ _) hm)

theorem Sound.answer (h : l.Sound) (hcall : l.calls[k]? = some c) :
    (l.answer written took k c r).Sound := by
  intro m hm
  have hne : m ≠ k := Nat.ne_of_gt (Nat.lt_of_lt_of_le (lt_length_of_getElem? hcall) hm)
  simp only [Ledger.answer, Function.update_of_ne hne]
  exact h m hm

theorem Waits.make (h : l.Waits written none)
    (hc : written c = none ∨ awaited = some l.calls.length) : (l.make c).Waits written awaited := by
  intro m d hd hwrites
  rcases getElem?_append_singleton hd with hd | ⟨rfl, rfl⟩
  · exact .inl ((h m d hd hwrites).resolve_right nofun)
  · exact .inr (hc.resolve_left hwrites)

theorem Waits.answer (h : l.Waits written awaited) :
    (l.answer written took k c r).Waits written awaited := by
  intro m d hd hwrites
  by_cases hmk : m = k
  · subst hmk
    simp [Ledger.answer]
  · simp only [Ledger.answer, Function.update_of_ne hmk]
    exact h m d hd hwrites

/-- What was awaited has its answer. -/
theorem Waits.done (h : l.Waits written awaited)
    (hdone : ∀ n, awaited = some n → l.results n ≠ none) : l.Waits written none := by
  intro m c hc hwrites
  rcases h m c hc hwrites with hr | hm
  · exact .inl hr
  · exact .inl (hdone m hm)

/-- An answer to anything but the write that is awaited. -/
theorem Waits.stored_answer (h : l.Waits written awaited) (hcall : l.calls[k]? = some c)
    (hnone : l.results k = none) (hk : awaited = some k → written c = none) :
    (l.answer written took k c r).stored = l.stored := by
  have hreads : written c = none := by
    by_contra hwrites
    rcases h k c hcall hwrites with hr | hawaited
    · exact hr hnone
    · exact hwrites (hk hawaited)
  simp [Ledger.answer, hreads]

/-- A call that does not write is answered as it is made. -/
theorem answer_make (hc : written c = none) (r : ρ) :
    (l.make c).answer written took l.calls.length c r =
      { l.make c with results := Function.update l.results l.calls.length (some r) } := by
  simp [Ledger.answer, Ledger.make, hc]

/-! ## Writes -/

/-- A write that is made is the last. -/
theorem awaits_make (hfresh : l.results l.calls.length = none) (hc : written c = some value) :
    (l.make c).Awaits written took l.calls.length value where
  call := ⟨c, List.getElem?_concat_length, hc⟩
  last {m d} hm hd := by
    have hlt := lt_length_of_getElem? hd
    simp only [make, List.length_append, List.length_singleton] at hlt
    exact absurd hm (Nat.not_lt.mpr (Nat.le_of_lt_succ hlt))
  took {r} hr _ := by
    have hr : l.results l.calls.length = some r := hr
    rw [hfresh] at hr
    cases hr

/-- A call that does not write leaves the last write the last. -/
theorem Awaits.make (h : l.Awaits written took n value) (hc : written c = none) :
    (l.make c).Awaits written took n value := by
  obtain ⟨d, hd, hvalue⟩ := h.call
  have hn := lt_length_of_getElem? hd
  exact
    { call := ⟨d, (List.getElem?_append_left hn).trans hd, hvalue⟩
      last := by
        intro m d hm hd
        rcases getElem?_append_singleton hd with hd | ⟨-, rfl⟩
        · exact h.last hm hd
        · exact hc
      took := by
        intro r hr htook
        obtain ⟨horder, hstored⟩ := h.took hr htook
        exact ⟨horder.make (Nat.le_of_lt hn) c, hstored⟩ }

/-- An answer, to a write only in order. -/
theorem Awaits.answer (h : l.Awaits written took n value) (hcall : l.calls[k]? = some c)
    (hnone : l.results k = none) (horder : written c ≠ none → l.InOrder written k) :
    (l.answer written took k c r).Awaits written took n value where
  call := h.call
  last := h.last
  took {r'} hr' htook := by
    by_cases hnk : n = k
    · subst hnk
      obtain ⟨d, hd, hvalue⟩ := h.call
      obtain rfl := Option.some.inj (hd.symm.trans hcall)
      have hwrites : written d ≠ none := by
        rw [hvalue]
        exact Option.some_ne_none value
      simp only [Ledger.answer, Function.update_self, Option.some.injEq] at hr'
      subst hr'
      refine ⟨(horder hwrites).answer n d r, ?_⟩
      simp only [Ledger.answer, if_pos htook, hvalue, Option.getD_some]
    · simp only [Ledger.answer, Function.update_of_ne hnk] at hr'
      obtain ⟨hinorder, hstored⟩ := h.took hr' htook
      refine ⟨hinorder.answer k c r, ?_⟩
      have hreads : written c = none := by
        by_contra hwrites
        rcases Nat.lt_or_gt_of_ne hnk with hlt | hlt
        · exact hwrites (h.last hlt hcall)
        · exact hinorder k c hlt hcall hwrites hnone
      simp only [Ledger.answer, hreads, Option.getD_none, ite_self]
      exact hstored

/-- Once every write has its answer, and the last was not refused, the store holds it. -/
theorem Awaits.stored (h : l.Awaits written took n value) (hr : l.results n = some r)
    (htook : took r = true) : l.stored = value :=
  (h.took hr htook).2

end Ledger

end WarrenSdk.Lib
