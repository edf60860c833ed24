import Mathlib.Data.List.Nodup
import WarrenSdk.Lib.Run

/-!
# Requests over connections that come and go

A client posts numbered requests on the one connection it has open, and its peer answers them by
number, in any order, with numbers of its own too, or more than once. A connection is lost with all
that is pending on it. `settles_run` is what becomes of a request over a whole run: it is settled
once, by the first answer with its number or by the loss of its connection. `greets_run` is the rule
for clients that open every connection with a hello, and post nothing else before that hello is
accepted.
-/

namespace WarrenSdk.Lib

/-- What a client makes of what becomes of its requests, and how it opens a connection. -/
structure ExchangeRules (ρ : Type u) (α : Type v) (β : Type w) where
  /-- What an answer that came in on a connection settles its request with. -/
  outcome : Nat → α → β
  /-- What a request may be settled with when its connection is lost. -/
  lost : β → Prop
  hello : ρ → Prop
  /-- Whether a hello on the connection is accepted that is settled so. -/
  accepts : Nat → β → Prop

structure Exchange (ρ : Type u) (α : Type v) (β : Type w) where
  /-- The connection that is open. -/
  current : Option Nat
  nextConn : Nat
  nextId : Nat
  pending : List Nat
  /-- What was posted, with its connection and its number. -/
  sent : List (Nat × Nat × ρ)
  /-- What came in, with its connection and the number it answers. -/
  received : List (Nat × Nat × α)
  results : Nat → Option β

namespace Exchange

inductive Move (ρ : Type u) (α : Type v) (β : Type w)
  | connect
  | post (body : ρ)
  /-- The connection goes; what is pending is settled with `result`. -/
  | lose (result : β)
  | deliver (id : Nat) (answer : α)

variable {ρ : Type u} {α : Type v} {β : Type w} (R : ExchangeRules ρ α β)

/-- Settles a pending request. -/
def settle (id : Nat) (result : β) (x : Exchange ρ α β) : Exchange ρ α β :=
  if id ∈ x.pending then
    { x with
      pending := x.pending.filter (· ≠ id)
      results := Function.update x.results id (some result) }
  else x

def step (x : Exchange ρ α β) : Move ρ α β → Option (Exchange ρ α β)
  | .connect =>
    if x.current = none then
      some { x with current := some x.nextConn, nextConn := x.nextConn + 1 }
    else none
  | .post body => x.current.map fun c =>
    { x with
      nextId := x.nextId + 1
      pending := x.pending ++ [x.nextId]
      sent := x.sent ++ [(c, x.nextId, body)] }
  | .lose result =>
    some { x with
      current := none
      pending := []
      results := fun id => if id ∈ x.pending then some result else x.results id }
  | .deliver id answer => x.current.map fun c =>
    { x with received := x.received ++ [(c, id, answer)] }.settle id (R.outcome c answer)

/-- What was posted on a connection, in order. -/
def sentOn (c : Nat) (x : Exchange ρ α β) : List (Nat × ρ) :=
  (x.sent.filter (·.1 = c)).map (·.2)

/-- How the connection `c` begins: with a hello, and with nothing more before it is accepted. -/
def Begins (c : Nat) (x : Exchange ρ α β) : List (Nat × ρ) → Prop
  | [] => True
  | (id, body) :: rest =>
    R.hello body ∧ (rest ≠ [] → ∃ result, x.results id = some result ∧ R.accepts c result)

/-- Every connection ever opened begins with its own hello. -/
def Greets (x : Exchange ρ α β) : Prop := ∀ c, x.Begins R c (x.sentOn c)

/-- The moves of a client that greets. -/
def Polite (x : Exchange ρ α β) : Move ρ α β → Prop
  | .post body => ∀ c, x.current = some c →
    match x.sentOn c with
    | [] => R.hello body
    | (id, _) :: _ => ∃ result, x.results id = some result ∧ R.accepts c result
  | .lose result => R.lost result
  | _ => True

/-- The invariant of an exchange. -/
structure Inv (x : Exchange ρ α β) : Prop where
  current_lt : ∀ {c}, x.current = some c → c < x.nextConn
  sent_lt : ∀ {c id body}, (c, id, body) ∈ x.sent → c < x.nextConn ∧ id < x.nextId
  /-- No number is posted twice. -/
  nodup : (x.sent.map (·.2.1)).Nodup
  /-- What is pending was posted on the connection that is open. -/
  posted : ∀ {id}, id ∈ x.pending → ∃ c body, x.current = some c ∧ (c, id, body) ∈ x.sent
  unsettled : ∀ {id}, id ∈ x.pending → x.results id = none
  settled : ∀ {c id body}, (c, id, body) ∈ x.sent → id ∉ x.pending → ∃ b, x.results id = some b
  /-- What is settled was answered on its own connection, or lost with it. -/
  own : ∀ {id b}, x.results id = some b → ∃ c body, (c, id, body) ∈ x.sent ∧
    ((∃ answer, (c, id, answer) ∈ x.received ∧ b = R.outcome c answer) ∨
      R.lost b ∧ x.current ≠ some c)

/-- What became of a request that was posted on `c` and pending, given what came in since. -/
inductive Fate (y : Exchange ρ α β) (c id : Nat) (since : List (Nat × Nat × α)) : Prop
  /-- It still waits: its connection is open, and nothing with its number came in. -/
  | waits (pending : id ∈ y.pending) (connected : y.current = some c)
      (silent : ∀ x ∈ since, x.2.1 ≠ id)
  /-- The first answer with its number came in on its own connection, and settled it. -/
  | answered (answer : α) (first : since.find? (·.2.1 = id) = some (c, id, answer))
      (result : y.results id = some (R.outcome c answer))
  /-- Its connection is gone, and was before it answered. -/
  | lost (result : β) (settled : y.results id = some result) (lost : R.lost result)
      (gone : y.current ≠ some c) (silent : ∀ answer, (c, id, answer) ∉ since)

/-- What the requests of `x` owe to the run from `x` to `y`. -/
structure Settles (x y : Exchange ρ α β) : Prop where
  /-- What is settled stays so. -/
  once : ∀ {id b}, x.results id = some b → y.results id = some b
  fate : ∃ since, y.received = x.received ++ since ∧
    ∀ {c id body}, (c, id, body) ∈ x.sent → id ∈ x.pending → y.Fate R c id since

/-- The exchange before anything happens. -/
def start (nextId : Nat) : Exchange ρ α β :=
  { current := none, nextConn := 0, nextId, pending := [], sent := [], received := []
    results := fun _ => none }

variable {R} {x y z : Exchange ρ α β} {m : Move ρ α β} {c id : Nat}

theorem inv_start (nextId : Nat) : (start nextId : Exchange ρ α β).Inv R := by
  constructor
  · nofun
  · nofun
  · exact .nil
  all_goals nofun

theorem greets_start (nextId : Nat) : (start nextId : Exchange ρ α β).Greets R := fun _ => trivial

/-- Numbers tell the posts apart. -/
theorem Inv.eq_of_mem (h : x.Inv R) (h₁ : (c, id, body) ∈ x.sent) (h₂ : (c', id, body') ∈ x.sent) :
    c = c' ∧ body = body' := by
  have heq := List.inj_on_of_nodup_map h.nodup h₁ h₂ rfl
  cases heq
  exact ⟨rfl, rfl⟩

theorem Inv.unposted (h : x.Inv R) (hid : x.nextId ≤ id) :
    id ∉ x.pending ∧ x.results id = none := by
  have hfresh : ∀ {c body}, (c, id, body) ∉ x.sent := fun hsent =>
    absurd (h.sent_lt hsent).2 (Nat.not_lt.mpr hid)
  refine ⟨fun hpending => ?_, ?_⟩
  · obtain ⟨c, body, -, hsent⟩ := h.posted hpending
    exact hfresh hsent
  · cases hresult : x.results id with
    | none => rfl
    | some b =>
      obtain ⟨c, body, hsent, -⟩ := h.own hresult
      exact absurd hsent hfresh

/-- What is settled has left the table. -/
theorem Inv.not_pending (h : x.Inv R) (hr : x.results id = some b) : id ∉ x.pending := by
  intro hpending
  rw [h.unsettled hpending] at hr
  cases hr

section settle

variable {b : β}

@[simp] theorem current_settle : (x.settle id b).current = x.current := by
  unfold settle
  split <;> rfl

@[simp] theorem nextConn_settle : (x.settle id b).nextConn = x.nextConn := by
  unfold settle
  split <;> rfl

@[simp] theorem nextId_settle : (x.settle id b).nextId = x.nextId := by
  unfold settle
  split <;> rfl

@[simp] theorem sent_settle : (x.settle id b).sent = x.sent := by
  unfold settle
  split <;> rfl

@[simp] theorem received_settle : (x.settle id b).received = x.received := by
  unfold settle
  split <;> rfl

@[simp] theorem mem_pending_settle :
    id' ∈ (x.settle id b).pending ↔ id' ∈ x.pending ∧ id' ≠ id := by
  unfold settle
  split
  · simp
  · next hid =>
    constructor
    · intro hmem
      refine ⟨hmem, ?_⟩
      rintro rfl
      exact hid hmem
    · exact And.left

theorem results_settle_self (h : id ∈ x.pending) : (x.settle id b).results id = some b := by
  unfold settle
  rw [if_pos h]
  exact Function.update_self ..

theorem results_settle_of_ne (h : id' ≠ id) : (x.settle id b).results id' = x.results id' := by
  unfold settle
  split
  · exact Function.update_of_ne h ..
  · rfl

/-- An answer settles nothing but a request that is pending. -/
theorem results_settle_of_not_mem (h : id' ∉ x.pending) :
    (x.settle id b).results id' = x.results id' := by
  rcases eq_or_ne id' id with rfl | hne
  · unfold settle
    rw [if_neg h]
  · exact results_settle_of_ne hne

end settle

/-! ## Moves keep the invariant -/

theorem inv_connect (h : x.Inv R) (hs : x.step R .connect = some y) : y.Inv R := by
  simp only [step] at hs
  split at hs
  · next hclosed =>
    cases hs
    have hidle : ∀ {id}, id ∉ x.pending := by
      intro id hid
      obtain ⟨c, body, hcurrent, -⟩ := h.posted hid
      rw [hclosed] at hcurrent
      cases hcurrent
    exact {
      current_lt := by
        intro c hc
        cases hc
        exact Nat.lt_succ_self _
      sent_lt := fun hsent => ⟨Nat.lt_succ_of_lt (h.sent_lt hsent).1, (h.sent_lt hsent).2⟩
      nodup := h.nodup
      posted := fun hid => absurd hid hidle
      unsettled := h.unsettled
      settled := h.settled
      own := by
        intro id b hb
        obtain ⟨c, body, hsent, hown⟩ := h.own hb
        refine ⟨c, body, hsent, hown.imp_right fun hlost => ⟨hlost.1, ?_⟩⟩
        intro hc
        cases hc
        exact absurd (h.sent_lt hsent).1 (Nat.lt_irrefl _) }
  · cases hs

theorem inv_post (h : x.Inv R) (hs : x.step R (.post body) = some y) : y.Inv R := by
  obtain ⟨c, hcurrent, rfl⟩ := Option.map_eq_some_iff.mp hs
  have hmem : ∀ {p : Nat × Nat × ρ}, p ∈ x.sent → p ∈ x.sent ++ [(c, x.nextId, body)] :=
    fun hp => List.mem_append_left _ hp
  have hnew : (c, x.nextId, body) ∈ x.sent ++ [(c, x.nextId, body)] :=
    List.mem_append_right _ (List.mem_singleton_self _)
  exact {
    current_lt := h.current_lt
    sent_lt := by
      intro c' id body' hsent
      rcases List.mem_append.mp hsent with hsent | hsent
      · exact ⟨(h.sent_lt hsent).1, Nat.lt_succ_of_lt (h.sent_lt hsent).2⟩
      · cases List.mem_singleton.mp hsent
        exact ⟨h.current_lt hcurrent, Nat.lt_succ_self _⟩
    nodup := by
      rw [List.map_append]
      refine List.nodup_append.mpr ⟨h.nodup, List.nodup_singleton _, ?_⟩
      intro id hid id' hid' heq
      obtain ⟨⟨c', id, body'⟩, hsent, rfl⟩ := List.mem_map.mp hid
      have hlt : id < x.nextId := (h.sent_lt hsent).2
      exact absurd (heq.trans (List.mem_singleton.mp hid')) (Nat.ne_of_lt hlt)
    posted := by
      intro id hid
      rcases List.mem_append.mp hid with hid | hid
      · obtain ⟨c', body', hc', hsent⟩ := h.posted hid
        exact ⟨c', body', hc', hmem hsent⟩
      · cases List.mem_singleton.mp hid
        exact ⟨c, body, hcurrent, hnew⟩
    unsettled := by
      intro id hid
      rcases List.mem_append.mp hid with hid | hid
      · exact h.unsettled hid
      · cases List.mem_singleton.mp hid
        exact (h.unposted (Nat.le_refl _)).2
    settled := by
      intro c' id body' hsent hid
      rcases List.mem_append.mp hsent with hsent | hsent
      · exact h.settled hsent fun hp => hid (List.mem_append_left _ hp)
      · cases List.mem_singleton.mp hsent
        exact absurd (List.mem_append_right _ (List.mem_singleton_self _)) hid
    own := by
      intro id b hb
      obtain ⟨c', body', hsent, hown⟩ := h.own hb
      exact ⟨c', body', hmem hsent, hown⟩ }

theorem inv_lose (h : x.Inv R) (hlost : R.lost result) (hs : x.step R (.lose result) = some y) :
    y.Inv R := by
  cases hs
  exact {
    current_lt := nofun
    sent_lt := h.sent_lt
    nodup := h.nodup
    posted := nofun
    unsettled := nofun
    settled := by
      intro c id body hsent _
      dsimp only
      split
      · exact ⟨result, rfl⟩
      · next hid => exact h.settled hsent hid
    own := by
      intro id b hb
      dsimp only at hb
      split at hb
      · next hid =>
        cases hb
        obtain ⟨c, body, -, hsent⟩ := h.posted hid
        exact ⟨c, body, hsent, .inr ⟨hlost, nofun⟩⟩
      · obtain ⟨c, body, hsent, hown⟩ := h.own hb
        exact ⟨c, body, hsent, hown.imp_right fun hl => ⟨hl.1, nofun⟩⟩ }

theorem inv_received (h : x.Inv R) (r : Nat × Nat × α) :
    Inv R { x with received := x.received ++ [r] } :=
  { h with
    own := by
      intro id b hb
      obtain ⟨c, body, hsent, hown⟩ := h.own hb
      refine ⟨c, body, hsent, hown.imp_left fun ⟨a, ha, heq⟩ =>
        ⟨a, List.mem_append_left _ ha, heq⟩⟩ }

/-- A request is settled with the outcome of an answer that came in. -/
theorem inv_settle (h : x.Inv R) (hc : x.current = some c) (ha : (c, id, answer) ∈ x.received) :
    (x.settle id (R.outcome c answer)).Inv R where
  current_lt hcurrent := by
    rw [nextConn_settle]
    exact h.current_lt (current_settle.symm.trans hcurrent)
  sent_lt hsent := by
    rw [nextConn_settle, nextId_settle]
    exact h.sent_lt (sent_settle ▸ hsent)
  nodup := by
    rw [sent_settle]
    exact h.nodup
  posted hid := by
    rw [current_settle, sent_settle]
    exact h.posted (mem_pending_settle.mp hid).1
  unsettled hid := by
    obtain ⟨hid, hne⟩ := mem_pending_settle.mp hid
    rw [results_settle_of_ne hne]
    exact h.unsettled hid
  settled {c' id' body'} hsent hid := by
    rw [sent_settle] at hsent
    rw [mem_pending_settle] at hid
    by_cases hpending : id' ∈ x.pending
    · obtain rfl : id' = id := by
        by_contra hne
        exact hid ⟨hpending, hne⟩
      exact ⟨_, results_settle_self hpending⟩
    · obtain ⟨b, hb⟩ := h.settled hsent hpending
      exact ⟨b, (results_settle_of_not_mem hpending).trans hb⟩
  own {id' b} hb := by
    rw [sent_settle, received_settle, current_settle]
    by_cases hpending : id' ∈ x.pending
    · obtain ⟨c', body, hcurrent, hsent⟩ := h.posted hpending
      cases hc.symm.trans hcurrent
      rcases eq_or_ne id' id with rfl | hne
      · cases (results_settle_self hpending).symm.trans hb
        exact ⟨c, body, hsent, .inl ⟨answer, ha, rfl⟩⟩
      · rw [results_settle_of_ne hne, h.unsettled hpending] at hb
        cases hb
    · rw [results_settle_of_not_mem hpending] at hb
      exact h.own hb

theorem inv_deliver (h : x.Inv R) (hs : x.step R (.deliver id answer) = some y) : y.Inv R := by
  obtain ⟨c, hcurrent, rfl⟩ := Option.map_eq_some_iff.mp hs
  refine inv_settle (inv_received h _) hcurrent ?_
  exact List.mem_append_right _ (List.mem_singleton_self _)

theorem inv_step (h : x.Inv R) (hok : x.Polite R m) (hs : x.step R m = some y) : y.Inv R := by
  cases m with
  | connect => exact inv_connect h hs
  | post body => exact inv_post h hs
  | lose result => exact inv_lose h hok hs
  | deliver id answer => exact inv_deliver h hs

/-! ## Connections begin with their hello -/

theorem mem_of_sentOn (h : (id, body) ∈ x.sentOn c) : (c, id, body) ∈ x.sent := by
  obtain ⟨p, hp, heq⟩ := List.mem_map.mp h
  obtain ⟨hmem, hc⟩ := List.mem_filter.mp hp
  have hpost : p = (c, id, body) := Prod.ext (of_decide_eq_true hc) heq
  exact hpost ▸ hmem

/-- Nothing was posted on a connection that is not open yet. -/
theorem Inv.sentOn_eq_nil (h : x.Inv R) (hc : x.nextConn ≤ c) : x.sentOn c = [] := by
  rw [List.eq_nil_iff_forall_not_mem]
  intro p hp
  exact absurd (h.sent_lt (mem_of_sentOn hp)).1 (Nat.not_lt.mpr hc)

theorem sentOn_append (x : Exchange ρ α β) (c c' id : Nat) (body : ρ) :
    sentOn c { x with sent := x.sent ++ [(c', id, body)] } =
      x.sentOn c ++ if c' = c then [(id, body)] else [] := by
  unfold sentOn
  rw [List.filter_append, List.map_append]
  congr 1
  rw [List.filter_cons]
  by_cases hc : c' = c <;> simp [hc]

/-- What a connection began with stays so as requests are settled. -/
theorem Begins.mono {sent : List (Nat × ρ)} (h : x.Begins R c sent)
    (hr : ∀ {id b}, x.results id = some b → y.results id = some b) : y.Begins R c sent := by
  cases sent with
  | nil => trivial
  | cons first rest =>
    refine ⟨h.1, fun hrest => ?_⟩
    obtain ⟨b, hb, haccepts⟩ := h.2 hrest
    exact ⟨b, hr hb, haccepts⟩

/-- What is settled stays so. -/
theorem results_step (h : x.Inv R) (hs : x.step R m = some y) (hr : x.results id = some b) :
    y.results id = some b := by
  have hpending := h.not_pending hr
  cases m with
  | connect =>
    simp only [step] at hs
    split at hs
    · cases hs
      exact hr
    · cases hs
  | post body =>
    obtain ⟨c, -, rfl⟩ := Option.map_eq_some_iff.mp hs
    exact hr
  | lose result =>
    cases hs
    exact (if_neg hpending).trans hr
  | deliver id' answer =>
    obtain ⟨c, -, rfl⟩ := Option.map_eq_some_iff.mp hs
    exact (results_settle_of_not_mem
      (x := { x with received := x.received ++ [(c, id', answer)] }) hpending).trans hr

theorem greets_step (h : x.Inv R) (hg : x.Greets R) (hok : x.Polite R m)
    (hs : x.step R m = some y) : y.Greets R := by
  have hr : ∀ {id b}, x.results id = some b → y.results id = some b := results_step h hs
  intro c
  cases m with
  | connect =>
    simp only [step] at hs
    split at hs
    · cases hs
      exact (hg c).mono hr
    · cases hs
  | post body =>
    obtain ⟨c', hcurrent, rfl⟩ := Option.map_eq_some_iff.mp hs
    have hsent := sentOn_append x c c' x.nextId body
    refine (congrArg (Begins R c _) hsent).mpr (Begins.mono (x := x) ?_ hr)
    have hbegins := hg c
    split
    next heq =>
      subst heq
      have hpolite := hok c' hcurrent
      cases hon : x.sentOn c' with
      | nil =>
        rw [hon] at hpolite
        exact ⟨hpolite, fun hrest => absurd rfl hrest⟩
      | cons first rest =>
        rw [hon] at hpolite hbegins
        exact ⟨hbegins.1, fun _ => hpolite⟩
    next => rwa [List.append_nil]
  | lose result =>
    cases hs
    exact (hg c).mono hr
  | deliver id answer =>
    obtain ⟨c', -, rfl⟩ := Option.map_eq_some_iff.mp hs
    have hsent : sentOn c (settle id (R.outcome c' answer)
        { x with received := x.received ++ [(c', id, answer)] }) = x.sentOn c := by
      unfold sentOn
      rw [sent_settle]
    rw [hsent]
    exact (hg c).mono hr

/-- In every run of polite moves, every connection begins with its own hello. -/
theorem greets_run (h : Run (step R) (Polite R) x y) (hx : x.Inv R) (hg : x.Greets R) :
    y.Inv R ∧ y.Greets R := by
  refine h.invariant (I := fun x => x.Inv R ∧ x.Greets R) ?_ ⟨hx, hg⟩
  intro x m y hx hok hs
  exact ⟨inv_step hx.1 hok hs, greets_step hx.1 hx.2 hok hs⟩

/-! ## What becomes of a request -/

theorem settles_refl (h : x.Inv R) : Settles R x x where
  once := fun hr => hr
  fate := by
    refine ⟨[], (List.append_nil _).symm, ?_⟩
    intro c id body hsent hid
    obtain ⟨c', body', hcurrent, hsent'⟩ := h.posted hid
    obtain ⟨rfl, -⟩ := h.eq_of_mem hsent hsent'
    exact .waits hid hcurrent nofun

/-- A request that was settled stays settled, whatever comes in after. -/
theorem Fate.of_settled {since more : List (Nat × Nat × α)} (h : y.Fate R c id since)
    (hid : id ∉ y.pending) (hr : ∀ {b}, y.results id = some b → z.results id = some b)
    (hgone : y.current ≠ some c → z.current ≠ some c ∧ ∀ answer, (c, id, answer) ∉ more) :
    z.Fate R c id (since ++ more) := by
  cases h with
  | waits hpending => exact absurd hpending hid
  | answered answer first result =>
    refine .answered answer ?_ (hr result)
    rw [List.find?_append, first]
    rfl
  | lost result settled lost gone silent =>
    refine .lost result (hr settled) lost (hgone gone).1 fun answer hmem => ?_
    rcases List.mem_append.mp hmem with hmem | hmem
    · exact silent answer hmem
    · exact (hgone gone).2 answer hmem

/-- A request that is pending still waits. -/
theorem Fate.waiting {since : List (Nat × Nat × α)} (hf : y.Fate R c id since) (h : y.Inv R)
    (hid : id ∈ y.pending) :
    y.current = some c ∧ ∀ r ∈ since, r.2.1 ≠ id := by
  cases hf with
  | waits _ connected silent => exact ⟨connected, silent⟩
  | answered answer _ result => exact absurd hid (h.not_pending result)
  | lost result settled => exact absurd hid (h.not_pending settled)

theorem mem_sent_step (hs : x.step R m = some y) (hmem : p ∈ x.sent) : p ∈ y.sent := by
  cases m with
  | connect =>
    simp only [step] at hs
    split at hs
    · cases hs
      exact hmem
    · cases hs
  | post body =>
    obtain ⟨c, -, rfl⟩ := Option.map_eq_some_iff.mp hs
    exact List.mem_append_left _ hmem
  | lose result =>
    cases hs
    exact hmem
  | deliver id answer =>
    obtain ⟨c, -, rfl⟩ := Option.map_eq_some_iff.mp hs
    rw [sent_settle]
    exact hmem

theorem fate_connect (h : y.Inv R) (hc : c < y.nextConn) (hf : y.Fate R c id since)
    (hs : y.step R .connect = some z) : z.Fate R c id since := by
  have hr : ∀ {b}, y.results id = some b → z.results id = some b := results_step h hs
  simp only [step] at hs
  split at hs
  · next hclosed =>
    cases hs
    have hid : id ∉ y.pending := by
      intro hid
      obtain ⟨c', body, hcurrent, -⟩ := h.posted hid
      rw [hclosed] at hcurrent
      cases hcurrent
    rw [← List.append_nil since]
    refine hf.of_settled hid hr fun _ => ⟨?_, nofun⟩
    intro heq
    cases heq
    exact Nat.lt_irrefl _ hc
  · cases hs

theorem fate_post (h : y.Inv R) (hf : y.Fate R c id since)
    (hs : y.step R (.post body) = some z) : z.Fate R c id since := by
  have hr : ∀ {b}, y.results id = some b → z.results id = some b := results_step h hs
  obtain ⟨c', -, rfl⟩ := Option.map_eq_some_iff.mp hs
  by_cases hid : id ∈ y.pending
  · obtain ⟨hcurrent, hsilent⟩ := hf.waiting h hid
    exact .waits (List.mem_append_left _ hid) hcurrent hsilent
  · rw [← List.append_nil since]
    exact hf.of_settled hid hr fun hgone => ⟨hgone, nofun⟩

theorem fate_lose (h : y.Inv R) (hf : y.Fate R c id since) (hlost : R.lost result)
    (hs : y.step R (.lose result) = some z) : z.Fate R c id since := by
  have hr : ∀ {b}, y.results id = some b → z.results id = some b := results_step h hs
  cases hs
  by_cases hid : id ∈ y.pending
  · obtain ⟨-, hsilent⟩ := hf.waiting h hid
    exact .lost result (if_pos hid) hlost nofun fun answer hmem => hsilent _ hmem rfl
  · rw [← List.append_nil since]
    exact hf.of_settled hid hr fun _ => ⟨nofun, nofun⟩

/-- An answer settles the pending request that has its number. -/
theorem fate_deliver (h : y.Inv R) (hf : y.Fate R c id since) (hc : y.current = some c')
    (hs : y.step R (.deliver id' answer) = some z) :
    z.Fate R c id (since ++ [(c', id', answer)]) := by
  have hr : ∀ {b}, y.results id = some b → z.results id = some b := results_step h hs
  obtain ⟨d, hd, rfl⟩ := Option.map_eq_some_iff.mp hs
  cases hc.symm.trans hd
  by_cases hid : id ∈ y.pending
  · obtain ⟨hcurrent, hsilent⟩ := hf.waiting h hid
    cases hc.symm.trans hcurrent
    by_cases heq : id' = id
    · subst heq
      refine .answered answer ?_ (results_settle_self hid)
      have hnone : since.find? (·.2.1 = id') = none :=
        List.find?_eq_none.mpr fun r hr => by simpa using hsilent r hr
      rw [List.find?_append, hnone]
      simp
    · refine .waits (mem_pending_settle.mpr ⟨hid, Ne.symm heq⟩) (current_settle.trans hc) ?_
      intro r hr
      rcases List.mem_append.mp hr with hr | hr
      · exact hsilent r hr
      · rw [List.mem_singleton.mp hr]
        exact heq
  · refine hf.of_settled hid hr fun hgone => ⟨?_, ?_⟩
    · rw [current_settle]
      exact hgone
    · intro a hmem
      cases List.mem_singleton.mp hmem
      exact hgone hc

theorem settles_step (h : y.Inv R) (hx : Settles R x y) (hmem : ∀ {p}, p ∈ x.sent → p ∈ y.sent)
    (hok : y.Polite R m) (hs : y.step R m = some z) : Settles R x z where
  once hr := results_step h hs (hx.once hr)
  fate := by
    obtain ⟨since, hreceived, hfate⟩ := hx.fate
    have hquiet : z.received = y.received → z.received = x.received ++ since :=
      fun heq => heq.trans hreceived
    cases m with
    | connect =>
      refine ⟨since, hquiet ?_, fun hsent hid => ?_⟩
      · simp only [step] at hs
        split at hs
        · cases hs
          rfl
        · cases hs
      · exact fate_connect h (h.sent_lt (hmem hsent)).1 (hfate hsent hid) hs
    | post body =>
      refine ⟨since, hquiet ?_, fun hsent hid => fate_post h (hfate hsent hid) hs⟩
      obtain ⟨c, -, rfl⟩ := Option.map_eq_some_iff.mp hs
      rfl
    | lose result =>
      refine ⟨since, hquiet ?_, fun hsent hid => fate_lose h (hfate hsent hid) hok hs⟩
      cases hs
      rfl
    | deliver id answer =>
      obtain ⟨c, hc, heq⟩ := Option.map_eq_some_iff.mp hs
      refine ⟨since ++ [(c, id, answer)], ?_, fun hsent hid => ?_⟩
      · rw [← heq, received_settle, hreceived, List.append_assoc]
      · exact fate_deliver h (hfate hsent hid) hc hs

/-- What becomes of every request over a run. -/
theorem settles_run (h : Run (step R) (Polite R) x y) (hx : x.Inv R) : Settles R x y := by
  have hall : y.Inv R ∧ (∀ {p}, p ∈ x.sent → p ∈ y.sent) ∧ Settles R x y := by
    refine h.invariant (I := fun y => y.Inv R ∧ (∀ {p}, p ∈ x.sent → p ∈ y.sent) ∧ Settles R x y) ?_
      ⟨hx, fun hp => hp, settles_refl hx⟩
    intro y m z hy hok hs
    refine ⟨inv_step hy.1 hok hs, fun hp => mem_sent_step hs (hy.2.1 hp), ?_⟩
    exact settles_step hy.1 hy.2.2 hy.2.1 hok hs
  exact hall.2.2

end Exchange

end WarrenSdk.Lib
