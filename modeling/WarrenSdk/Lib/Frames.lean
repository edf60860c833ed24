import WarrenSdk.Lib.Program

/-!
# Programs with a frame

Safety with what most proofs of it carry along: an invariant of the storage, and the places of it
that stay as they are. A place is framed if nobody else changes it and the program does not touch
it.
-/

namespace WarrenSdk.Lib

/-- The surroundings of a process over storage with places: what the others do, what the process may
do, and an invariant that both keep. -/
structure Setting (σ κ ν : Type) where
  read : σ → κ → ν
  R : σ → σ → Prop
  G : σ → σ → Prop
  I : σ → Prop
  /-- The places that the others leave alone. -/
  kept : κ → Prop
  preorder : IsPreorder σ R
  rely_inv : R s t → I s → I t
  guarantee_inv : I s → G s t → I t
  kept_eq : R s t → kept k → read t k = read s k

namespace Setting
variable {σ κ ν Op : Type} {Ret : Op → Type} {ε α β : Type} (S : Setting σ κ ν)
  (E : Effects σ Op Ret) (touched : κ → Prop)

/-- What is kept and not touched is as it was. -/
def Frame (s t : σ) : Prop := ∀ k, S.kept k → ¬ touched k → S.read t k = S.read s k

/-- The program is safe, and leaves `C` if it returns. -/
def Runs (C : α → σ → Prop) (p : Prog Op Ret ε α) (s : σ) : Prop :=
  Safe E S.R S.G (fun x t => S.I t ∧ S.Frame touched s t ∧ ∀ a, x = .ok a → C a t) p s

variable {S E touched} {s t u : σ} {C : α → σ → Prop} {C' : β → σ → Prop} {p : Prog Op Ret ε α}

namespace Frame

theorem refl (s : σ) : S.Frame touched s s := fun _ _ _ => rfl

theorem trans (h : S.Frame touched s t) (h' : S.Frame touched t u) : S.Frame touched s u :=
  fun k hk ht => (h' k hk ht).trans (h k hk ht)

theorem of_rely (h : S.R s t) : S.Frame touched s t := fun _ hk _ => S.kept_eq h hk

theorem mono {touched' : κ → Prop} (hle : ∀ k, touched k → touched' k)
    (h : S.Frame touched s t) : S.Frame touched' s t :=
  fun k hk ht => h k hk fun htouched => ht (hle k htouched)

end Frame

namespace Runs

/-- What a program leaves, seen from an earlier state. -/
theorem of_frame (hf : S.Frame touched s t) (h : S.Runs E touched C p t) :
    Safe E S.R S.G (fun x u => S.I u ∧ S.Frame touched s u ∧ ∀ a, x = .ok a → C a u) p t :=
  Safe.mono (fun _ _ ⟨hI, hframe, hC⟩ => ⟨hI, hf.trans hframe, hC⟩) h

theorem mono {touched' : κ → Prop} {D : α → σ → Prop} (hle : ∀ k, touched k → touched' k)
    (hC : ∀ a t, S.I t → S.Frame touched s t → C a t → D a t) (h : S.Runs E touched C p s) :
    S.Runs E touched' D p s :=
  Safe.mono (fun _ t ⟨hI, hframe, hok⟩ =>
    ⟨hI, hframe.mono hle, fun a ha => hC a t hI hframe (hok a ha)⟩) h

theorem pure {a : α} (hI : S.I s) (hC : ∀ t, S.R s t → C a t) :
    S.Runs E touched C (Prog.done a : Prog Op Ret ε α) s := by
  intro t ht
  refine ⟨S.rely_inv ht hI, .of_rely ht, ?_⟩
  rintro _ h
  cases h
  exact hC t ht

theorem fail {e : ε} (hI : S.I s) : S.Runs E touched C (Prog.fail e) s :=
  fun _ ht => ⟨S.rely_inv ht hI, .of_rely ht, nofun⟩

theorem bind {f : α → Prog Op Ret ε β} (h : S.Runs E touched C p s)
    (hf : ∀ a t, S.I t → S.Frame touched s t → C a t → S.Runs E touched C' (f a) t) :
    S.Runs E touched C' (p >>= f) s := by
  refine Safe.bind S.preorder h ?_ ?_
  · rintro a t ⟨hI, hframe, hC⟩
    exact (hf a t hI hframe (hC a rfl)).of_frame hframe
  · rintro e t ⟨hI, hframe, -⟩
    exact ⟨hI, hframe, nofun⟩

theorem attempt (h : S.Runs E touched C p s) :
    S.Runs E touched (fun x t => ∀ a, x = .ok a → C a t)
      (p.attempt : Prog Op Ret ε' (Except ε α)) s := by
  refine Safe.attempt (Safe.mono ?_ h)
  rintro x t ⟨hI, hframe, hC⟩
  refine ⟨hI, hframe, ?_⟩
  rintro _ hx
  cases hx
  exact hC

theorem call {op : Op} {k : Ret op → Prog Op Ret ε α} (hI : S.I s)
    (hstops : ∀ t u, S.R s t → S.I t → E.stops op t u → S.G t u)
    (hreturns : ∀ t r u, S.R s t → S.I t → E.returns op t r u →
      S.G t u ∧ S.Frame touched t u ∧ (S.I u → S.Runs E touched C (k r) u)) :
    S.Runs E touched C (.call op k) s := by
  intro t ht
  have hIt := S.rely_inv ht hI
  refine ⟨fun u hu => hstops t u ht hIt hu, fun r u hu => ?_⟩
  obtain ⟨hG, hframe, hk⟩ := hreturns t r u ht hIt hu
  exact ⟨hG, (hk (S.guarantee_inv hIt hG)).of_frame (.trans (.of_rely ht) hframe)⟩

/-- The rule of loops: what holds before a turn with what is left to do. -/
theorem foldM {f : β → α → Prog Op Ret ε β} {J : β → List α → σ → Prop} {xs : List α} {b : β}
    (hI : S.I s) (hstable : ∀ b xs s t, S.R s t → J b xs s → J b xs t) (hJ : J b xs s)
    (hturn : ∀ b x xs s, S.I s → J b (x :: xs) s →
      S.Runs E touched (fun b t => J b xs t) (f b x) s) :
    S.Runs E touched (fun b t => J b [] t) (Prog.foldM f b xs) s := by
  induction xs generalizing b s with
  | nil => exact .pure hI fun t ht => hstable b [] s t ht hJ
  | cons x xs ih => exact (hturn b x xs s hI hJ).bind fun b t hI _ hJ => ih hI hJ

/-- A process by itself: what it leaves, stopped or not. -/
theorem exec {o : Option (Except ε α)} (hS : S.R = Eq) (hG : IsPreorder σ S.G)
    (h : S.Runs E touched C p s) (he : Exec E p s o t) :
    S.G s t ∧ ∀ a, o = some (.ok a) → S.I t ∧ S.Frame touched s t ∧ C a t := by
  unfold Runs at h
  rw [hS] at h
  obtain ⟨hG, hQ⟩ := h.exec hG he
  refine ⟨hG, fun a ha => ?_⟩
  obtain ⟨hI, hframe, hC⟩ := hQ _ ha
  exact ⟨hI, hframe, hC a rfl⟩

end Runs

end Setting

end WarrenSdk.Lib
