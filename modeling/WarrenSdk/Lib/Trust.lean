import Mathlib.Order.Defs.PartialOrder
import Mathlib.Data.List.Basic

/-!
# Trust on first use

What is offered under a generation and by a signer is taken if it is not older than what was taken
before and, unless its signer is named beforehand, if its signer is the first one that was taken
so. The generations that are taken never fall, and the signers that were not named are one.
-/

namespace WarrenSdk.Lib

/-- The last generation that was taken, and the signer that is remembered. -/
structure Trust (γ σ : Type) where
  floor : γ
  pin : Option σ

/-- What is offered: `named` if its signer was named beforehand. -/
structure Offer (γ σ : Type) where
  generation : γ
  signer : σ
  named : Bool

namespace Trust

variable {γ σ : Type}

def take (t : Trust γ σ) (o : Offer γ σ) : Trust γ σ where
  floor := o.generation
  pin := if o.named then t.pin else some o.signer

theorem take_named {t : Trust γ σ} {o : Offer γ σ} (h : o.named = true) :
    (t.take o).pin = t.pin := by
  rw [take, h, if_pos rfl]

theorem take_unnamed {t : Trust γ σ} {o : Offer γ σ} (h : o.named = false) :
    (t.take o).pin = some o.signer := by
  rw [take, h, if_neg Bool.false_ne_true]

variable [Preorder γ]

structure Admits (t : Trust γ σ) (o : Offer γ σ) : Prop where
  floor : t.floor ≤ o.generation
  pin : o.named = false → ∀ p, t.pin = some p → p = o.signer

/-- Offers that are taken one after the other. -/
inductive Run : Trust γ σ → List (Offer γ σ) → Trust γ σ → Prop
  | nil : Run t [] t
  | cons {t u : Trust γ σ} {o : Offer γ σ} {os : List (Offer γ σ)} :
    t.Admits o → Run (t.take o) os u → Run t (o :: os) u

variable {t u : Trust γ σ} {os : List (Offer γ σ)}

theorem Run.floor_le (h : Run t os u) : ∀ o ∈ os, t.floor ≤ o.generation := by
  induction h with
  | nil =>
    intro o ho
    cases ho
  | cons hadmits _ ih =>
    intro o ho
    obtain rfl | ho := List.mem_cons.mp ho
    · exact hadmits.floor
    · exact le_trans hadmits.floor (ih o ho)

theorem Run.generations (h : Run t os u) : (os.map Offer.generation).Pairwise (· ≤ ·) := by
  induction h with
  | nil => exact .nil
  | cons _ hrun ih =>
    refine .cons (fun g hg => ?_) ih
    obtain ⟨o, ho, rfl⟩ := List.mem_map.mp hg
    exact hrun.floor_le o ho

/-- Once a signer is remembered, it is the one of all that is taken without a name. -/
theorem Run.eq_pin (h : Run t os u) (hpin : t.pin = some p) :
    ∀ o ∈ os, o.named = false → p = o.signer := by
  induction h with
  | nil =>
    intro o ho
    cases ho
  | @cons t u o os hadmits _ ih =>
    intro o' ho' hnamed
    obtain rfl | ho' := List.mem_cons.mp ho'
    · exact hadmits.pin hnamed p hpin
    · refine ih ?_ o' ho' hnamed
      cases hn : o.named with
      | true => rw [take_named hn, hpin]
      | false => rw [take_unnamed hn, hadmits.pin hn p hpin]

theorem Run.signers (h : Run t os u) :
    ((os.filter fun o => !o.named).map Offer.signer).Pairwise (· = ·) := by
  induction h with
  | nil => exact .nil
  | @cons t u o os _ hrun ih =>
    cases hn : o.named with
    | true => rwa [List.filter_cons_of_neg (by simp [hn])]
    | false =>
      rw [List.filter_cons_of_pos (by simp [hn])]
      refine .cons (fun s hs => ?_) ih
      obtain ⟨o', ho', rfl⟩ := List.mem_map.mp hs
      obtain ⟨hmem, hnamed⟩ := List.mem_filter.mp ho'
      exact hrun.eq_pin (take_unnamed hn) o' hmem (by simpa using hnamed)

end Trust

end WarrenSdk.Lib
