import Mathlib.Logic.Function.Basic
import Mathlib.Order.Defs.Unbundled

/-!
# Programs over shared storage

A program calls operations one after the other, and returns or fails. What an operation does is a
relation between states: it may fail, and the process may be stopped in its midst. Processes that
share the storage interleave between their operations. `Safe` is the rule of rely and guarantee:
what the others do is in `R`, every effect of this one is in `G`, also when it is stopped, and `Q`
holds of what it returns. Programs that are safe alone are safe together (`Reaches.safe`).
-/

namespace WarrenSdk.Lib

/-- What operations do: the states an operation may leave with what it returns, and those a stop in
its midst may leave. -/
structure Effects (σ : Type) (Op : Type) (Ret : Op → Type) where
  returns (op : Op) (s : σ) (r : Ret op) (t : σ) : Prop
  stops (op : Op) (s t : σ) : Prop

inductive Prog (Op : Type) (Ret : Op → Type) (ε α : Type)
  | done (a : α)
  | fail (e : ε)
  | call (op : Op) (k : Ret op → Prog Op Ret ε α)

namespace Prog
variable {Op : Type} {Ret : Op → Type} {ε ε' α β : Type}

def bind : Prog Op Ret ε α → (α → Prog Op Ret ε β) → Prog Op Ret ε β
  | .done a, f => f a
  | .fail e, _ => .fail e
  | .call op k, f => .call op fun r => (k r).bind f

instance : Monad (Prog Op Ret ε) where
  pure := .done
  bind := bind

def perform (op : Op) : Prog Op Ret ε (Ret op) := .call op .done

/-- The failure of a program as a value. -/
def attempt : Prog Op Ret ε α → Prog Op Ret ε' (Except ε α)
  | .done a => .done (.ok a)
  | .fail e => .done (.error e)
  | .call op k => .call op fun r => (k r).attempt

def ofExcept : Except ε α → Prog Op Ret ε α
  | .ok a => .done a
  | .error e => .fail e

/-- A loop over a list that carries a state. -/
def foldM (f : β → α → Prog Op Ret ε β) : β → List α → Prog Op Ret ε β
  | b, [] => .done b
  | b, x :: xs => f b x >>= fun b => foldM f b xs

end Prog

section
variable {σ τ Op Op' : Type} {Ret : Op → Type} {Ret' : Op' → Type}

/-- Two kinds of operations, each on its part of the state. -/
def Effects.sum (E : Effects σ Op Ret) (E' : Effects τ Op' Ret') :
    Effects (σ × τ) (Op ⊕ Op') (Sum.elim Ret Ret') where
  returns
    | .inl op, s, r, t => E.returns op s.1 r t.1 ∧ t.2 = s.2
    | .inr op, s, r, t => E'.returns op s.2 r t.2 ∧ t.1 = s.1
  stops
    | .inl op, s, t => E.stops op s.1 t.1 ∧ t.2 = s.2
    | .inr op, s, t => E'.stops op s.2 t.2 ∧ t.1 = s.1

end

section
variable {σ Op : Type} {Ret : Op → Type} {ε α : Type} (E : Effects σ Op Ret)

/-- One process by itself: what it returns, or nothing if it is stopped, and the state it leaves. -/
inductive Exec : Prog Op Ret ε α → σ → Option (Except ε α) → σ → Prop
  | stop : Exec p s none s
  | within : E.stops op s t → Exec (.call op k) s none t
  | done : Exec (.done a) s (some (.ok a)) s
  | fail : Exec (.fail e) s (some (.error e)) s
  | call : E.returns op s r t → Exec (k r) t o u → Exec (.call op k) s o u

section
variable {ι : Type} [DecidableEq ι]

/-- Processes over one storage, `none` for one that was stopped. In a step one of them returns from
its operation, or is stopped in its midst. -/
inductive Step (ps : ι → Option (Prog Op Ret ε α)) (s : σ) :
    (ι → Option (Prog Op Ret ε α)) → σ → Prop
  | returns : ps i = some (.call op k) → E.returns op s r t →
    Step ps s (Function.update ps i (some (k r))) t
  | stops : ps i = some (.call op k) → E.stops op s t → Step ps s (Function.update ps i none) t
  | leaves : Step ps s (Function.update ps i none) s

inductive Reaches (ps : ι → Option (Prog Op Ret ε α)) (s : σ) :
    (ι → Option (Prog Op Ret ε α)) → σ → Prop
  | refl : Reaches ps s ps s
  | tail : Reaches ps s qs t → Step E qs t rs u → Reaches ps s rs u

end

variable (R G : σ → σ → Prop) (Q : Except ε α → σ → Prop)

/-- What the rely allows in between is part of each case: safety is stable under it. -/
def Safe : Prog Op Ret ε α → σ → Prop
  | .done a, s => ∀ t, R s t → Q (.ok a) t
  | .fail e, s => ∀ t, R s t → Q (.error e) t
  | .call op k, s => ∀ t, R s t →
    (∀ u, E.stops op t u → G t u) ∧ ∀ r u, E.returns op t r u → G t u ∧ Safe (k r) u

end

variable {σ Op : Type} {Ret : Op → Type} {ε ε' α β : Type} {E : Effects σ Op Ret}
  {R G : σ → σ → Prop} {Q : Except ε α → σ → Prop} {p : Prog Op Ret ε α} {s t : σ}

theorem Exec.bind {f : α → Prog Op Ret ε β} (h : Exec E p s o t) (ho : o = some (.ok a))
    (hf : Exec E (f a) t o' u) : Exec E (p >>= f) s o' u := by
  induction h with
  | stop | within | fail => cases ho
  | done =>
    cases ho
    exact hf
  | call hr _ ih => exact .call hr (ih ho hf)

/-- Where an execution of two programs one after the other has come to. -/
theorem Exec.of_bind {f : α → Prog Op Ret ε β} (h : Exec E (p >>= f) s o t) :
    (∃ o', Exec E p s o' t ∧ ∀ b, o ≠ some (.ok b)) ∨
      ∃ a u, Exec E p s (some (.ok a)) u ∧ Exec E (f a) u o t := by
  induction p generalizing s with
  | done a => exact .inr ⟨a, s, .done, h⟩
  | fail e =>
    cases h with
    | stop => exact .inl ⟨none, .stop, nofun⟩
    | fail => exact .inl ⟨some (.error e), .fail, nofun⟩
  | call op k ih =>
    cases h with
    | stop => exact .inl ⟨none, .stop, nofun⟩
    | within hs => exact .inl ⟨none, .within hs, nofun⟩
    | call hr h =>
      rcases ih _ h with ⟨o', hp, ho⟩ | ⟨a, u, hp, hf⟩
      · exact .inl ⟨o', .call hr hp, ho⟩
      · exact .inr ⟨a, u, .call hr hp, hf⟩

namespace Safe

theorem stable (hR : IsPreorder σ R) (h : Safe E R G Q p s) (ht : R s t) : Safe E R G Q p t := by
  cases p with
  | done | fail | call => exact fun u hu => h u (hR.trans _ _ _ ht hu)

theorem mono {Q' : Except ε α → σ → Prop} (hQ : ∀ x t, Q x t → Q' x t) (h : Safe E R G Q p s) :
    Safe E R G Q' p s := by
  induction p generalizing s with
  | done a => exact fun t ht => hQ _ t (h t ht)
  | fail e => exact fun t ht => hQ _ t (h t ht)
  | call op k ih =>
    intro t ht
    refine ⟨(h t ht).1, fun r u hu => ?_⟩
    obtain ⟨hG, hk⟩ := (h t ht).2 r u hu
    exact ⟨hG, ih r hk⟩

theorem bind (hR : IsPreorder σ R) {Q' : Except ε β → σ → Prop} {f : α → Prog Op Ret ε β}
    (h : Safe E R G Q p s) (hok : ∀ a t, Q (.ok a) t → Safe E R G Q' (f a) t)
    (herror : ∀ e t, Q (.error e) t → Q' (.error e) t) : Safe E R G Q' (p >>= f) s := by
  induction p generalizing s with
  | done a => exact hok a s (h s (hR.refl s))
  | fail e => exact fun t ht => herror e t (h t ht)
  | call op k ih =>
    intro t ht
    refine ⟨(h t ht).1, fun r u hu => ?_⟩
    obtain ⟨hG, hk⟩ := (h t ht).2 r u hu
    exact ⟨hG, ih r hk⟩

theorem perform {op : Op} {Q : Except ε (Ret op) → σ → Prop}
    (hstops : ∀ t u, R s t → E.stops op t u → G t u)
    (hreturns : ∀ t r u, R s t → E.returns op t r u → G t u ∧ ∀ v, R u v → Q (.ok r) v) :
    Safe E R G Q (.perform op) s := by
  intro t ht
  exact ⟨fun u hu => hstops t u ht hu, fun r u hu => hreturns t r u ht hu⟩

theorem attempt {Q : Except ε' (Except ε α) → σ → Prop}
    (h : Safe E R G (fun x => Q (.ok x)) p s) : Safe E R G Q p.attempt s := by
  induction p generalizing s with
  | done a => exact h
  | fail e => exact h
  | call op k ih =>
    intro t ht
    refine ⟨(h t ht).1, fun r u hu => ?_⟩
    obtain ⟨hG, hk⟩ := (h t ht).2 r u hu
    exact ⟨hG, ih r hk⟩

/-- The rule of loops: what every turn keeps. -/
theorem foldM (hR : IsPreorder σ R) {Q : Except ε β → σ → Prop} {f : β → α → Prog Op Ret ε β}
    {xs : List α} {b : β} (hI : Q (.ok b) s) (hstable : ∀ b s t, R s t → Q (.ok b) s → Q (.ok b) t)
    (hturn : ∀ b, ∀ x ∈ xs, ∀ s, Q (.ok b) s → Safe E R G Q (f b x) s) :
    Safe E R G Q (.foldM f b xs) s := by
  induction xs generalizing b s with
  | nil => exact fun t ht => hstable b s t ht hI
  | cons x xs ih =>
    refine (hturn b x List.mem_cons_self s hI).bind hR (fun b t hb => ?_) fun _ _ h => h
    exact ih hb fun b y hy => hturn b y (List.mem_cons_of_mem x hy)

/-- A process that nobody interferes with, and that is done. -/
theorem pure_alone {a : α} (h : Q (.ok a) s) : Safe E Eq G Q (pure a) s := by
  rintro _ rfl
  exact h

/-- The rule of sequence for a process that nobody interferes with. -/
theorem bind_alone {Q' : Except ε β → σ → Prop} {f : α → Prog Op Ret ε β}
    (h : Safe E Eq G Q p s) (hok : ∀ a t, Q (.ok a) t → Safe E Eq G Q' (f a) t)
    (herror : ∀ e t, Q (.error e) t → Q' (.error e) t) : Safe E Eq G Q' (p >>= f) s :=
  h.bind inferInstance hok herror

/-! ## What safety is for -/

/-- A process by itself keeps its guarantee, stopped or not. -/
theorem exec (hG : IsPreorder σ G) (h : Safe E Eq G Q p s) (he : Exec E p s o t) :
    G s t ∧ ∀ x, o = some x → Q x t := by
  induction he with
  | stop => exact ⟨hG.refl _, nofun⟩
  | within hs => exact ⟨(h _ rfl).1 _ hs, nofun⟩
  | done | fail =>
    refine ⟨hG.refl _, fun x hx => ?_⟩
    cases hx
    exact h _ rfl
  | call hr _ ih =>
    obtain ⟨hstep, hk⟩ := (h _ rfl).2 _ _ hr
    obtain ⟨hrest, hQ⟩ := ih hk
    exact ⟨hG.trans _ _ _ hstep hrest, hQ⟩

end Safe

section
variable {ι : Type} [DecidableEq ι] {R G : ι → σ → σ → Prop} {Q : ι → Except ε α → σ → Prop}
  {ps qs : ι → Option (Prog Op Ret ε α)}

/-- Every process that is not stopped is safe. -/
def AllSafe (E : Effects σ Op Ret) (R G : ι → σ → σ → Prop) (Q : ι → Except ε α → σ → Prop)
    (ps : ι → Option (Prog Op Ret ε α)) (s : σ) : Prop :=
  ∀ i p, ps i = some p → Safe E (R i) (G i) (Q i) p s

theorem AllSafe.update (hR : ∀ i, IsPreorder σ (R i)) (hG : ∀ i j s t, i ≠ j → G i s t → R j s t)
    (h : AllSafe E R G Q ps s) (hstep : G i s t) {q : Option (Prog Op Ret ε α)}
    (hq : ∀ p, q = some p → Safe E (R i) (G i) (Q i) p t) :
    AllSafe E R G Q (Function.update ps i q) t := by
  intro j p hp
  rcases eq_or_ne j i with rfl | hne
  · rw [Function.update_self] at hp
    exact hq p hp
  · rw [Function.update_of_ne hne] at hp
    exact (h j p hp).stable (hR j) (hG i j s t hne.symm hstep)

theorem Step.safe (hR : ∀ i, IsPreorder σ (R i)) (hG : ∀ i j s t, i ≠ j → G i s t → R j s t)
    (h : AllSafe E R G Q ps s) (hs : Step E ps s qs t) :
    AllSafe E R G Q qs t ∧ (t = s ∨ ∃ i, G i s t) := by
  cases hs with
  | @returns i _ _ _ _ hi hr =>
    obtain ⟨hstep, hk⟩ := (h i _ hi s ((hR i).refl s)).2 _ _ hr
    refine ⟨h.update hR hG hstep fun p hp => ?_, .inr ⟨i, hstep⟩⟩
    cases hp
    exact hk
  | @stops i _ _ _ hi hs =>
    have hstep := (h i _ hi s ((hR i).refl s)).1 _ hs
    exact ⟨h.update hR hG hstep nofun, .inr ⟨i, hstep⟩⟩
  | @leaves i =>
    refine ⟨fun j p hp => ?_, .inl rfl⟩
    rcases eq_or_ne j i with rfl | hne
    · rw [Function.update_self] at hp
      cases hp
    · rw [Function.update_of_ne hne] at hp
      exact h j p hp

/-- Processes each of which is safe, and relies on what the others guarantee, are safe together;
what all of them guarantee holds of every run. -/
theorem Reaches.safe {K : σ → σ → Prop} (hR : ∀ i, IsPreorder σ (R i))
    (hG : ∀ i j s t, i ≠ j → G i s t → R j s t) (hK : IsPreorder σ K)
    (hle : ∀ i s t, G i s t → K s t)
    (h : AllSafe E R G Q ps s) (hr : Reaches E ps s qs t) : AllSafe E R G Q qs t ∧ K s t := by
  induction hr with
  | refl => exact ⟨h, hK.refl s⟩
  | tail _ hs ih =>
    obtain ⟨hsafe, hst⟩ := ih
    obtain ⟨hnext, rfl | ⟨i, hi⟩⟩ := hs.safe hR hG hsafe
    · exact ⟨hnext, hst⟩
    · exact ⟨hnext, hK.trans _ _ _ hst (hle i _ _ hi)⟩

end

/-! ## Programs that are run

What an operation does may be several things. A runner does one of them, so that a run of some
processes can be computed. -/

structure Runner (E : Effects σ Op Ret) where
  perform (op : Op) (s : σ) : Option (Ret op × σ)
  sound {op : Op} {s t : σ} {r : Ret op} : perform op s = some (r, t) → E.returns op s r t

namespace Runner
variable (W : Runner E)

section
variable {ι : Type} [DecidableEq ι]

/-- One operation of a process. -/
def turn (ps : ι → Option (Prog Op Ret ε α)) (s : σ) (i : ι) :
    Option ((ι → Option (Prog Op Ret ε α)) × σ) :=
  match ps i with
  | some (.call op k) => (W.perform op s).map fun (r, t) => (Function.update ps i (some (k r)), t)
  | _ => none

/-- The processes whose turn it is, one after the other. -/
def run (ps : ι → Option (Prog Op Ret ε α)) (s : σ) : List ι →
    Option ((ι → Option (Prog Op Ret ε α)) × σ)
  | [] => some (ps, s)
  | i :: is =>
    match W.turn ps s i with
    | some (qs, t) => run qs t is
    | none => none

variable {ps qs : ι → Option (Prog Op Ret ε α)}

theorem turn_sound (h : W.turn ps s i = some (qs, t)) : Step E ps s qs t := by
  unfold turn at h
  split at h
  · next op k hi =>
    obtain ⟨⟨r, u⟩, hr, heq⟩ := Option.map_eq_some_iff.mp h
    cases heq
    exact .returns hi (W.sound hr)
  · cases h

theorem run_from {rs : ι → Option (Prog Op Ret ε α)} {u : σ} (hstart : Reaches E ps s rs u)
    (h : W.run rs u is = some (qs, t)) : Reaches E ps s qs t := by
  induction is generalizing rs u with
  | nil =>
    cases h
    exact hstart
  | cons i is ih =>
    unfold run at h
    split at h
    · next ps' s' hturn => exact ih (hstart.tail (W.turn_sound hturn)) h
    · cases h

theorem run_sound (h : W.run ps s is = some (qs, t)) : Reaches E ps s qs t := W.run_from .refl h

end

/-- Two kinds of operations. -/
def sum {τ Op' : Type} {Ret' : Op' → Type} {E' : Effects τ Op' Ret'} (W : Runner E)
    (W' : Runner E') : Runner (E.sum E') where
  perform
    | .inl op, s => (W.perform op s.1).map fun (r, t) => (r, t, s.2)
    | .inr op, s => (W'.perform op s.2).map fun (r, t) => (r, s.1, t)
  sound {op s r t} h := by
    cases op with
    | inl op =>
      obtain ⟨⟨r', t'⟩, hr, heq⟩ := Option.map_eq_some_iff.mp h
      cases heq
      exact ⟨W.sound hr, rfl⟩
    | inr op =>
      obtain ⟨⟨r', t'⟩, hr, heq⟩ := Option.map_eq_some_iff.mp h
      cases heq
      exact ⟨W'.sound hr, rfl⟩

end Runner

end WarrenSdk.Lib
