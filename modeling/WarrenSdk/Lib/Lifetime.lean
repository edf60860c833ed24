import WarrenSdk.Lib.Program

/-!
# Calls over storage that outlives its processes

Calls over one storage are made one after the other. Each of them returns, or fails, or its process
is stopped within it. A `Life` is such a sequence over the storage, and a `Replay` one over what the
storage stands for: when every call does there what its specification allows, so does every life
(`Life.replay`).
-/

namespace WarrenSdk.Lib
variable {σ Op : Type} {Ret : Op → Type} {ε ρ κ η : Type}

/-- A call with how it ended, `none` if its process was stopped. -/
abbrev Logged (κ ε ρ : Type) := κ × Option (Except ε ρ)

/-- Whatever else is done to the storage is in `others`. -/
inductive Life (E : Effects σ Op Ret) (perform : κ → Prog Op Ret ε ρ) (others : σ → σ → Prop) :
    σ → List (Logged κ ε ρ) → σ → Prop
  | nil : Life E perform others s [] s
  | call {c : κ} {o : Option (Except ε ρ)} {log : List (Logged κ ε ρ)} : Exec E (perform c) s o t →
    Life E perform others t log u → Life E perform others s ((c, o) :: log) u
  | others {log : List (Logged κ ε ρ)} : others s t → Life E perform others t log u →
    Life E perform others s log u

inductive Replay (spec : η → κ → Option (Except ε ρ) → η → Prop) :
    η → List (Logged κ ε ρ) → η → Prop
  | nil : Replay spec held [] held
  | call {c : κ} {o : Option (Except ε ρ)} {log : List (Logged κ ε ρ)} : spec held c o mid →
    Replay spec mid log final → Replay spec held ((c, o) :: log) final

/-- The specification of calls that happen or do not happen: one that returns happened. -/
inductive Atomic (act : η → κ → ρ × η) (held : η) (c : κ) (o : Option (Except ε ρ)) : η → Prop
  | happened : (∀ r, o = some (.ok r) → r = (act held c).1) → Atomic act held c o (act held c).2
  | skipped : (∀ r, o ≠ some (.ok r)) → Atomic act held c o held

variable {E : Effects σ Op Ret} {perform : κ → Prog Op Ret ε ρ} {others : σ → σ → Prop}
  {spec : η → κ → Option (Except ε ρ) → η → Prop}

theorem Atomic.of_eq {act : η → κ → ρ × η} {c : κ} {o : Option (Except ε ρ)}
    (hwhole : final = held ∨ final = (act held c).2)
    (hreturned : ∀ r, o = some (.ok r) → r = (act held c).1 ∧ final = (act held c).2) :
    Atomic act held c o final := by
  by_cases hr : ∃ r, o = some (.ok r)
  · obtain ⟨r, hr⟩ := hr
    obtain ⟨-, rfl⟩ := hreturned r hr
    exact .happened fun r' hr' => (hreturned r' hr').1
  · have hfailed (r : ρ) (heq : o = some (.ok r)) : False := hr ⟨r, heq⟩
    rcases hwhole with rfl | rfl
    · exact .skipped hfailed
    · exact .happened fun r heq => (hfailed r heq).elim

theorem Life.replay {held : σ → η}
    (hcall : ∀ c s o t, Exec E (perform c) s o t → spec (held s) c o (held t))
    (hothers : ∀ s t, others s t → held t = held s) (h : Life E perform others s log t) :
    Replay spec (held s) log (held t) := by
  induction h with
  | nil => exact .nil
  | call he _ ih => exact .call (hcall _ _ _ _ he) ih
  | others ho _ ih => rwa [hothers _ _ ho] at ih

theorem Replay.split {before after : List (Logged κ ε ρ)}
    (h : Replay spec held (before ++ after) final) :
    ∃ mid, Replay spec held before mid ∧ Replay spec mid after final := by
  induction before generalizing held with
  | nil => exact ⟨held, .nil, h⟩
  | cons entry before ih =>
    cases h with
    | call hspec h =>
      obtain ⟨mid, hbefore, hafter⟩ := ih h
      exact ⟨mid, .call hspec hbefore, hafter⟩

/-- The invariant rule: what every call of the log keeps. -/
theorem Replay.invariant {I : η → Prop} (h : Replay spec held log final) (hI : I held)
    (hcall : ∀ entry ∈ log, ∀ held held', I held → spec held entry.1 entry.2 held' → I held') :
    I final := by
  induction h with
  | nil => exact hI
  | call hspec _ ih =>
    exact ih (hcall _ List.mem_cons_self _ _ hI hspec) fun entry hentry =>
      hcall entry (List.mem_cons_of_mem _ hentry)

end WarrenSdk.Lib
