import Mathlib.Algebra.BigOperators.Group.List.Basic
import Mathlib.Algebra.GroupWithZero.Nat

/-!
# Tickets

Every item of a list holds as many tickets as it weighs, in the order of the list. An item is drawn
by the number of a ticket, so that the numbers that draw it are as many as it weighs.
-/

namespace WarrenSdk.Lib

variable {α : Type u}

def tickets (weight : α → Nat) (items : List α) : List α :=
  items.flatMap fun a => List.replicate (weight a) a

variable {weight : α → Nat}

theorem tickets_cons (a : α) (items : List α) :
    tickets weight (a :: items) = List.replicate (weight a) a ++ tickets weight items := rfl

@[simp] theorem length_tickets (items : List α) :
    (tickets weight items).length = (items.map weight).sum := by
  induction items with
  | nil => rfl
  | cons a items ih =>
    rw [tickets_cons, List.length_append, List.length_replicate, ih, List.map_cons, List.sum_cons]

/-- The tickets of the first item come first. -/
theorem getElem?_tickets_cons (a : α) (items : List α) (n : Nat) :
    (tickets weight (a :: items))[n]? =
      if n < weight a then some a else (tickets weight items)[n - weight a]? := by
  rw [tickets_cons]
  split
  · next h =>
    rw [List.getElem?_append_left (by rwa [List.length_replicate]), List.getElem?_replicate_of_lt h]
  · next h =>
    rw [List.getElem?_append_right (by rw [List.length_replicate]; omega), List.length_replicate]

theorem mem_of_getElem?_tickets {items : List α} {n : Nat}
    (h : (tickets weight items)[n]? = some a) :
    a ∈ items ∧ 0 < weight a := by
  obtain ⟨b, hb, ha⟩ := List.mem_flatMap.mp (List.mem_of_getElem? h)
  obtain ⟨hne, rfl⟩ := List.mem_replicate.mp ha
  exact ⟨hb, Nat.pos_of_ne_zero hne⟩

theorem countP_tickets (p : α → Bool) (items : List α) :
    (tickets weight items).countP p = ((items.filter p).map weight).sum := by
  induction items with
  | nil => rfl
  | cons a items ih =>
    rw [tickets_cons, List.countP_append, List.countP_replicate, ih]
    by_cases h : p a = true
    · rw [if_pos h, List.filter_cons_of_pos h, List.map_cons, List.sum_cons]
    · rw [if_neg h, List.filter_cons_of_neg h, Nat.zero_add]

/-- As many indices read an item of a kind as the list has items of that kind. -/
theorem countP_range_getElem? (p : α → Bool) (items : List α) :
    (List.range items.length).countP (fun n => items[n]?.any p) = items.countP p := by
  induction items with
  | nil => rfl
  | cons a items ih =>
    rw [List.length_cons, List.range_succ_eq_map, List.countP_cons, List.countP_map,
      List.countP_cons]
    congr 1

/-- An item of a kind is drawn by as many numbers as the items of that kind weigh. -/
theorem countP_draws (p : α → Bool) (items : List α) :
    (List.range (items.map weight).sum).countP (fun n => (tickets weight items)[n]?.any p) =
      ((items.filter p).map weight).sum := by
  rw [← length_tickets, countP_range_getElem?, countP_tickets]

end WarrenSdk.Lib
