import WarrenSdk.Lib.Behaviour

/-!
# Chains of promises

The idiom `queue = queue.then(() => task().catch(() => undefined))`: every task waits behind the
promise of the one before it. A `Link` is one such task, and each of its acts looks at its own
promises and at the promise it waits for, and at nothing else. That the tasks run one at a time, in
the order they were enqueued, and that none is held up by the failure of another, is what
`Chain.Orderly` makes of it; when an act happens is left open.
-/

namespace WarrenSdk.Lib

inductive PromiseState
  | pending
  | fulfilled
  | rejected
deriving DecidableEq

namespace PromiseState

/-- What becomes of `p.catch(() => undefined)`. -/
def caught : PromiseState → PromiseState
  | pending => pending
  | fulfilled | rejected => fulfilled

def ofOutcome (ok : Bool) : PromiseState := if ok then fulfilled else rejected

theorem ofOutcome_ne_pending (ok : Bool) : ofOutcome ok ≠ pending := by
  cases ok <;> exact nofun

@[simp] theorem ofOutcome_eq_fulfilled {ok : Bool} : ofOutcome ok = fulfilled ↔ ok = true := by
  cases ok with
  | true => exact ⟨fun _ => rfl, fun _ => rfl⟩
  | false => exact ⟨nofun, nofun⟩

theorem caught_of_ne_pending (h : p ≠ pending) : caught p = fulfilled := by
  cases p with
  | pending => exact absurd rfl h
  | fulfilled | rejected => rfl

end PromiseState

/-- A task in a chain. -/
structure Link (τ : Type u) where
  task : τ
  /-- The promise of the task, once it is called. -/
  call : Option PromiseState
  /-- Whether the task has taken effect. -/
  performed : Bool
  /-- The promise that `then` gave. -/
  promise : PromiseState
deriving DecidableEq

inductive Act
  /-- The reaction to the promise before the link calls the task. -/
  | call
  /-- The promise before the link was rejected, and the link is with it. -/
  | pass
  /-- The task takes effect. -/
  | perform
  /-- The promise of the task settles. A task that succeeds has taken effect; one that fails may
  have. -/
  | settle (ok : Bool)
  /-- The promise of the link takes over what `catch` gave. -/
  | resolve
deriving DecidableEq

namespace Link
variable {τ : Type u}

def waiting (task : τ) : Link τ where
  task
  call := none
  performed := false
  promise := .pending

def act (before : PromiseState) (link : Link τ) : Act → Option (Link τ)
  | .call =>
    if link.promise = .pending ∧ link.call = none ∧ before = .fulfilled then
      some { link with call := some .pending }
    else none
  | .pass =>
    if link.promise = .pending ∧ link.call = none ∧ before = .rejected then
      some { link with promise := .rejected }
    else none
  | .perform =>
    if link.call = some .pending ∧ link.performed = false then some { link with performed := true }
    else none
  | .settle ok =>
    if link.call = some .pending ∧ (ok = true → link.performed = true) then
      some { link with call := some (.ofOutcome ok) }
    else none
  | .resolve =>
    match link.call with
    | some call =>
      if link.promise = .pending ∧ call.caught ≠ .pending then
        some { link with promise := call.caught }
      else none
    | none => none

/-- Where a link stands behind the promise `before`. -/
inductive Phase (before : PromiseState) : Link τ → Prop
  | waiting (task : τ) : Phase before (waiting task)
  | flying {task : τ} {performed : Bool} (hb : before = .fulfilled) :
      Phase before ⟨task, some .pending, performed, .pending⟩
  | settled {task : τ} {call : PromiseState} {performed : Bool} (hb : before = .fulfilled)
      (hcall : call ≠ .pending) (heffect : call = .fulfilled → performed = true) :
      Phase before ⟨task, some call, performed, .pending⟩
  | done {task : τ} {call : PromiseState} {performed : Bool} (hb : before = .fulfilled)
      (hcall : call ≠ .pending) (heffect : call = .fulfilled → performed = true) :
      Phase before ⟨task, some call, performed, .fulfilled⟩

theorem Phase.mono {link : Link τ} (h : link.Phase before)
    (hb : before = .fulfilled → before' = .fulfilled) : link.Phase before' := by
  cases h with
  | waiting task => exact .waiting task
  | flying h => exact .flying (hb h)
  | settled h hcall heffect => exact .settled (hb h) hcall heffect
  | done h hcall heffect => exact .done (hb h) hcall heffect

/-- What the acts of a link come to where no promise is rejected. -/
inductive Moves : Link τ → Act → Link τ → Prop
  | call {task : τ} : Moves (waiting task) .call ⟨task, some .pending, false, .pending⟩
  | perform {task : τ} : Moves ⟨task, some .pending, false, .pending⟩ .perform
      ⟨task, some .pending, true, .pending⟩
  | settle {task : τ} {performed ok : Bool} (h : ok = true → performed = true) :
      Moves ⟨task, some .pending, performed, .pending⟩ (.settle ok)
        ⟨task, some (.ofOutcome ok), performed, .pending⟩
  | resolve {task : τ} {call : PromiseState} {performed : Bool} (h : call ≠ .pending) :
      Moves ⟨task, some call, performed, .pending⟩ .resolve ⟨task, some call, performed, .fulfilled⟩

/-- A link that is done does nothing any more. -/
theorem act_of_done {task : τ} {call : PromiseState} (hcall : call ≠ .pending) (performed : Bool)
    (before : PromiseState) (a : Act) :
    Link.act before ⟨task, some call, performed, .fulfilled⟩ a = none := by
  cases a with
  | call | pass | resolve => simp [act]
  | perform | settle => simp [act, hcall]

theorem Phase.moves {link : Link τ} (h : link.Phase before) (hb : before ≠ .rejected)
    (ha : link.act before a = some link') :
    link.Moves a link' ∧ (a = .call → before = .fulfilled) := by
  cases h with
  | waiting task =>
    cases a with
    | call =>
      simp only [act, Link.waiting, true_and] at ha
      split at ha
      · next h =>
        cases ha
        exact ⟨.call, fun _ => h⟩
      · cases ha
    | pass => simp [act, hb] at ha
    | perform | settle | resolve => simp [act, Link.waiting] at ha
  | flying hb =>
    cases a with
    | call | pass => simp [act] at ha
    | perform =>
      simp only [act, true_and] at ha
      split at ha
      · next h =>
        cases ha
        subst h
        exact ⟨.perform, nofun⟩
      · cases ha
    | settle ok =>
      simp only [act, true_and] at ha
      split at ha
      · next h =>
        cases ha
        exact ⟨.settle h, nofun⟩
      · cases ha
    | resolve => simp [act, PromiseState.caught] at ha
  | settled hb hcall =>
    cases a with
    | call | pass => simp [act] at ha
    | perform | settle => simp [act, hcall] at ha
    | resolve =>
      simp only [act, true_and, PromiseState.caught_of_ne_pending hcall] at ha
      cases ha
      exact ⟨.resolve hcall, nofun⟩
  | done hb hcall =>
    rw [act_of_done hcall] at ha
    cases ha

theorem Moves.phase {link : Link τ} (h : link.Moves a link') (hp : link.Phase before)
    (hc : a = .call → before = .fulfilled) : link'.Phase before := by
  cases h with
  | call => exact .flying (hc rfl)
  | perform =>
    cases hp with
    | flying hb => exact .flying hb
    | settled _ hcall => exact absurd rfl hcall
  | settle h =>
    have hb : before = .fulfilled := by
      cases hp with
      | flying hb | settled hb => exact hb
    refine .settled hb (PromiseState.ofOutcome_ne_pending _) fun hok => h ?_
    exact PromiseState.ofOutcome_eq_fulfilled.mp hok
  | resolve h =>
    cases hp with
    | flying => exact absurd rfl h
    | settled hb hcall heffect => exact .done hb hcall heffect

/-! ## What acts leave as it was -/

/-- How far a link has come is kept. -/
structure Advances (link link' : Link τ) : Prop where
  task : link'.task = link.task
  called : link.call ≠ none → link'.call ≠ none
  performed : link.performed = true → link'.performed = true
  fulfilled : link.promise = .fulfilled → link' = link

theorem Advances.refl (link : Link τ) : link.Advances link := ⟨rfl, id, id, fun _ => rfl⟩

theorem Advances.trans {l₁ l₂ l₃ : Link τ} (h : l₁.Advances l₂) (h' : l₂.Advances l₃) :
    l₁.Advances l₃ where
  task := h'.task.trans h.task
  called := h'.called ∘ h.called
  performed := h'.performed ∘ h.performed
  fulfilled hp := by
    have heq := h.fulfilled hp
    subst heq
    exact h'.fulfilled hp

theorem Moves.advances {link : Link τ} (h : link.Moves a link') : link.Advances link' := by
  cases h with
  | call => exact ⟨rfl, fun h => absurd rfl h, id, nofun⟩
  | perform => exact ⟨rfl, id, fun _ => rfl, nofun⟩
  | settle => exact ⟨rfl, nofun, id, nofun⟩
  | resolve => exact ⟨rfl, id, id, nofun⟩

theorem Moves.performed {link : Link τ} (h : link.Moves a link') (ha : a ≠ .perform) :
    link'.performed = link.performed := by
  cases h with
  | perform => exact absurd rfl ha
  | call | settle | resolve => rfl

end Link

/-! ## Chains -/

structure Chain (τ : Type u) where
  links : List (Link τ)
deriving DecidableEq

namespace Chain
variable {τ : Type u} {c c' : Chain τ}

/-- `Promise.resolve()` -/
def empty : Chain τ := ⟨[]⟩

def enqueue (task : τ) (c : Chain τ) : Chain τ := ⟨c.links ++ [.waiting task]⟩

/-- Promise number `i`, which link `i` waits for. -/
def promise (c : Chain τ) : Nat → PromiseState
  | 0 => .fulfilled
  | i + 1 =>
    match c.links[i]? with
    | some link => link.promise
    | none => .pending

def act (c : Chain τ) (i : Nat) (a : Act) : Option (Chain τ) :=
  match c.links[i]? with
  | some link => (link.act (c.promise i) a).map fun link => ⟨c.links.set i link⟩
  | none => none

inductive Event (τ : Type u)
  | enqueue (task : τ)
  | act (i : Nat) (a : Act)

def step (c : Chain τ) : Event τ → Option (Chain τ)
  | .enqueue task => some (c.enqueue task)
  | .act i a => c.act i a

/-- The tasks in the order they were enqueued. -/
def tasks (c : Chain τ) : List τ := c.links.map Link.task

def Settled (c : Chain τ) (i : Nat) : Prop :=
  ∃ link call, c.links[i]? = some link ∧ link.call = some call ∧ call ≠ .pending

def InFlight (c : Chain τ) (i : Nat) : Prop :=
  ∃ link, c.links[i]? = some link ∧ link.call = some .pending

theorem promise_succ (h : c.links[i]? = some link) : c.promise (i + 1) = link.promise := by
  simp only [promise, h]

theorem tasks_enqueue (task : τ) (c : Chain τ) : (c.enqueue task).tasks = c.tasks ++ [task] := by
  rw [tasks, enqueue, List.map_append]
  rfl

/-! ## How far a chain has come -/

def Advances (c c' : Chain τ) : Prop :=
  ∀ (i : Nat) (link : Link τ), c.links[i]? = some link →
    ∃ link', c'.links[i]? = some link' ∧ link.Advances link'

theorem Advances.refl (c : Chain τ) : c.Advances c := fun _ link h => ⟨link, h, .refl link⟩

theorem Advances.trans {c'' : Chain τ} (h : c.Advances c') (h' : c'.Advances c'') :
    c.Advances c'' := by
  intro i link hi
  obtain ⟨link', hi', hl⟩ := h i link hi
  obtain ⟨link'', hi'', hl'⟩ := h' i link' hi'
  exact ⟨link'', hi'', hl.trans hl'⟩

theorem Advances.promise (h : c.Advances c') (hp : c.promise i = .fulfilled) :
    c'.promise i = .fulfilled := by
  cases i with
  | zero => rfl
  | succ i =>
    cases hi : c.links[i]? with
    | none => simp [Chain.promise, hi] at hp
    | some link =>
      obtain ⟨link', hi', hl⟩ := h i link hi
      rw [promise_succ hi] at hp
      rw [promise_succ hi', hl.fulfilled hp, hp]

theorem getElem?_enqueue {task : τ} {i : Nat} {link : Link τ}
    (hi : (c.enqueue task).links[i]? = some link) :
    c.links[i]? = some link ∨ link = .waiting task := by
  rw [enqueue, List.getElem?_append] at hi
  split at hi
  · exact .inl hi
  · exact .inr (List.mem_singleton.mp (List.mem_of_getElem? hi))

theorem getElem?_enqueue_of_some {i : Nat} {link : Link τ} (hi : c.links[i]? = some link)
    (task : τ) :
    (c.enqueue task).links[i]? = some link :=
  (List.getElem?_append_left (List.getElem?_eq_some_iff.mp hi).1).trans hi

theorem advances_enqueue (task : τ) (c : Chain τ) : c.Advances (c.enqueue task) :=
  fun _ link hi => ⟨link, getElem?_enqueue_of_some hi task, .refl link⟩

theorem advances_set (hi : c.links[i]? = some link) (hl : link.Advances link') :
    c.Advances ⟨c.links.set i link'⟩ := by
  intro j link₁ hj
  by_cases hij : i = j
  · subst hij
    cases hi.symm.trans hj
    exact ⟨link', List.getElem?_set_self (List.getElem?_eq_some_iff.mp hi).1, hl⟩
  · exact ⟨link₁, by rw [List.getElem?_set_ne hij, hj], .refl link₁⟩

/-! ## Order -/

/-- Every link stands where the promise before it lets it stand. -/
def Orderly (c : Chain τ) : Prop :=
  ∀ (i : Nat) (link : Link τ), c.links[i]? = some link → link.Phase (c.promise i)

theorem orderly_empty : (empty : Chain τ).Orderly := fun _ _ h => nomatch h

theorem Orderly.promise_ne_rejected (h : c.Orderly) (i : Nat) : c.promise i ≠ .rejected := by
  cases i with
  | zero => exact nofun
  | succ i =>
    cases hi : c.links[i]? with
    | none => simp [promise, hi]
    | some link =>
      rw [promise_succ hi]
      cases h i link hi with
      | waiting | flying | settled | done => exact nofun

/-- What an act of an orderly chain comes to. -/
theorem Orderly.moves (h : c.Orderly) (ha : c.act i a = some c') :
    ∃ link link', c.links[i]? = some link ∧ link.Moves a link' ∧
      (a = .call → c.promise i = .fulfilled) ∧ c' = ⟨c.links.set i link'⟩ := by
  unfold Chain.act at ha
  cases hi : c.links[i]? with
  | none => simp [hi] at ha
  | some link =>
    simp only [hi] at ha
    obtain ⟨link', hlink', rfl⟩ := Option.map_eq_some_iff.mp ha
    obtain ⟨hmoves, hcall⟩ := (h i link hi).moves (h.promise_ne_rejected i) hlink'
    exact ⟨link, link', rfl, hmoves, hcall, rfl⟩

theorem Orderly.advances (h : c.Orderly) (hs : c.step e = some c') : c.Advances c' := by
  cases e with
  | enqueue task =>
    cases hs
    exact advances_enqueue task c
  | act i a =>
    obtain ⟨link, link', hi, hmoves, -, rfl⟩ := h.moves hs
    exact advances_set hi hmoves.advances

theorem Orderly.step (h : c.Orderly) (hs : c.step e = some c') : c'.Orderly := by
  have hadv := h.advances hs
  have hmono {i : Nat} {link : Link τ} (hp : link.Phase (c.promise i)) :
      link.Phase (c'.promise i) := hp.mono hadv.promise
  cases e with
  | enqueue task =>
    cases hs
    intro i link hi
    rcases getElem?_enqueue hi with hold | rfl
    · exact hmono (h i link hold)
    · exact .waiting task
  | act i a =>
    obtain ⟨link, link', hi, hmoves, hcall, rfl⟩ := h.moves hs
    intro j link₁ hj
    by_cases hij : i = j
    · subst hij
      rw [List.getElem?_set_self (List.getElem?_eq_some_iff.mp hi).1] at hj
      cases hj
      exact hmono (hmoves.phase (h i link hi) hcall)
    · rw [List.getElem?_set_ne hij] at hj
      exact hmono (h j link₁ hj)

theorem Orderly.fulfilled_of_succ (h : c.Orderly) (hp : c.promise (i + 1) = .fulfilled) :
    c.promise i = .fulfilled ∧ c.Settled i := by
  cases hi : c.links[i]? with
  | none => simp [promise, hi] at hp
  | some link =>
    rw [promise_succ hi] at hp
    cases h i link hi with
    | waiting | flying | settled => cases hp
    | done hb hcall => exact ⟨hb, _, _, hi, rfl, hcall⟩

theorem Orderly.fulfilled_of_le (h : c.Orderly) (hij : i ≤ j) (hp : c.promise j = .fulfilled) :
    c.promise i = .fulfilled := by
  induction hij with
  | refl => exact hp
  | step _ ih => exact ih (h.fulfilled_of_succ hp).1

theorem Orderly.settled_of_lt (h : c.Orderly) (hij : i < j) (hp : c.promise j = .fulfilled) :
    c.Settled i :=
  (h.fulfilled_of_succ (h.fulfilled_of_le hij hp)).2

/-- A task is called once the promise before it is fulfilled. -/
theorem Orderly.fulfilled_of_called (h : c.Orderly) {link : Link τ} (hi : c.links[i]? = some link)
    (hc : link.call ≠ none) : c.promise i = .fulfilled := by
  cases h i link hi with
  | waiting => exact absurd rfl hc
  | flying hb | settled hb | done hb => exact hb

theorem InFlight.not_settled (h : c.InFlight i) : ¬ c.Settled i := by
  obtain ⟨link, hi, hc⟩ := h
  intro hs
  obtain ⟨link', call, hi', hc', hcall⟩ := hs
  cases hi.symm.trans hi'
  cases hc.symm.trans hc'
  exact hcall rfl

theorem Orderly.promise_of_inFlight (h : c.Orderly) (hi : c.InFlight i) :
    c.promise (i + 1) = .pending := by
  obtain ⟨link, hi, hc⟩ := hi
  rw [promise_succ hi]
  cases h i link hi with
  | waiting | flying | settled => rfl
  | done _ hcall => exact absurd (Option.some.inj hc) hcall

/-- Where a task waits behind a promise that is fulfilled, none is in flight. -/
theorem Orderly.not_inFlight (h : c.Orderly) {task : τ} (hi : c.links[i]? = some (.waiting task))
    (hp : c.promise i = .fulfilled) (j : Nat) : ¬ c.InFlight j := by
  intro hj
  rcases Nat.lt_trichotomy j i with hlt | rfl | hlt
  · exact hj.not_settled (h.settled_of_lt hlt hp)
  · obtain ⟨link, hj, hc⟩ := hj
    cases hi.symm.trans hj
    cases hc
  · obtain ⟨link, hj, hc⟩ := hj
    have hpj := h.fulfilled_of_called hj (by rw [hc]; exact nofun)
    have hpi := h.fulfilled_of_le hlt hpj
    rw [promise_succ hi] at hpi
    cases hpi

/-- Behind a task in flight none has been called. -/
theorem Orderly.not_called_of_inFlight (h : c.Orderly) (hi : c.InFlight i) (hij : i < j)
    {link : Link τ} (hj : c.links[j]? = some link) : link = .waiting link.task := by
  have hp : c.promise j ≠ .fulfilled := by
    intro hp
    have hpi := h.fulfilled_of_le hij hp
    rw [h.promise_of_inFlight hi] at hpi
    cases hpi
  cases h j link hj with
  | waiting => rfl
  | flying hb | settled hb | done hb => exact absurd hb hp

/-! ## The last task that took effect -/

structure Latest (c : Chain τ) (i : Nat) (link : Link τ) : Prop where
  getElem? : c.links[i]? = some link
  performed : link.performed = true
  after : ∀ (j : Nat) (link' : Link τ), i < j → c.links[j]? = some link' → link'.performed = false

theorem Latest.of_enqueue {link : Link τ} (h : (c.enqueue task).Latest i link) :
    c.Latest i link := by
  rcases getElem?_enqueue h.getElem? with hi | rfl
  · exact ⟨hi, h.performed, fun j link' hij hj =>
      h.after j link' hij (getElem?_enqueue_of_some hj task)⟩
  · exact Bool.noConfusion h.performed

/-- What a link was before an act of the chain. -/
theorem Orderly.before_act (h : c.Orderly) (ha : c.act i a = some c') {j : Nat} {link : Link τ}
    (hj : c'.links[j]? = some link) : ∃ link₀ : Link τ, c.links[j]? = some link₀ ∧
      link.task = link₀.task ∧ (a ≠ .perform → link.performed = link₀.performed) := by
  obtain ⟨link₁, link₂, hi, hmoves, -, rfl⟩ := h.moves ha
  by_cases hij : i = j
  · subst hij
    rw [List.getElem?_set_self (List.getElem?_eq_some_iff.mp hi).1] at hj
    cases hj
    exact ⟨link₁, hi, hmoves.advances.task, hmoves.performed⟩
  · rw [List.getElem?_set_ne hij] at hj
    exact ⟨link, hj, rfl, fun _ => rfl⟩

theorem Orderly.tasks_act (h : c.Orderly) (ha : c.act i a = some c') : c'.tasks = c.tasks := by
  obtain ⟨link, link', hi, hmoves, -, rfl⟩ := h.moves ha
  apply List.ext_getElem?
  intro j
  rw [tasks, tasks, List.getElem?_map, List.getElem?_map]
  by_cases hij : i = j
  · subst hij
    rw [List.getElem?_set_self (List.getElem?_eq_some_iff.mp hi).1, hi, Option.map_some,
      Option.map_some, hmoves.advances.task]
  · rw [List.getElem?_set_ne hij]

/-- A task whose promise is fulfilled has taken effect, if it was not rejected. -/
theorem Orderly.performed_of_fulfilled (h : c.Orderly) {link : Link τ}
    (hi : c.links[i]? = some link) (hp : c.promise (i + 1) = .fulfilled)
    (hcall : link.call ≠ some .rejected) : link.performed = true := by
  rw [promise_succ hi] at hp
  cases h i link hi with
  | waiting | flying | settled => cases hp
  | @done task call _ _ hpending heffect =>
    cases call with
    | pending => exact absurd rfl hpending
    | fulfilled => exact heffect rfl
    | rejected => exact absurd rfl hcall

theorem latest_of_last {link : Link τ} (hi : c.links[i]? = some link)
    (hlast : i + 1 = c.links.length) (hperf : link.performed = true) : c.Latest i link := by
  refine ⟨hi, hperf, fun j link' hij hj => ?_⟩
  obtain ⟨hlt, -⟩ := List.getElem?_eq_some_iff.mp hj
  omega

/-- Only a task that takes effect becomes the last one that did. -/
theorem Orderly.latest_of_act (h : c.Orderly) (ha : c.act i a = some c') {link : Link τ}
    (hlatest : c'.Latest j link) : ∃ link₀ : Link τ, c.links[j]? = some link₀ ∧
      link.task = link₀.task ∧ ((a = .perform ∧ i = j) ∨ (a ≠ .perform ∧ c.Latest j link₀)) := by
  obtain ⟨link₀, hj, htask, hperf⟩ := h.before_act ha hlatest.getElem?
  refine ⟨link₀, hj, htask, ?_⟩
  obtain ⟨link₁, link₂, hi, hmoves, -, hc'⟩ := h.moves ha
  have hi' : c'.links[i]? = some link₂ := by
    rw [hc', List.getElem?_set_self (List.getElem?_eq_some_iff.mp hi).1]
  by_cases hact : a = .perform
  · left
    refine ⟨hact, ?_⟩
    subst hact
    cases hmoves
    rcases Nat.lt_trichotomy i j with hlt | heq | hlt
    · -- what stands behind a task in flight has not been called
      have hwaiting := h.not_called_of_inFlight ⟨_, hi, rfl⟩ hlt hj
      have hsame : c'.links[j]? = some link₀ := by
        rw [hc', List.getElem?_set_ne (Nat.ne_of_lt hlt), hj]
      cases hsame.symm.trans hlatest.getElem?
      have hp := hlatest.performed
      rw [hwaiting] at hp
      cases hp
    · exact heq
    · cases hlatest.after i _ hlt hi'
  · right
    refine ⟨hact, hj, by rw [← hperf hact, hlatest.performed], fun k link' hjk hk => ?_⟩
    obtain ⟨link'', hk', -⟩ := h.advances (e := .act i a) ha k link' hk
    obtain ⟨link₃, hk₃, -, hperf'⟩ := h.before_act ha hk'
    cases hk.symm.trans hk₃
    rw [← hperf' hact, hlatest.after k link'' hjk hk']

/-! ## Whole runs -/

section
variable (b : Behaviour (@Chain.step τ) empty)

theorem orderly (n : Nat) : (b.state n).Orderly := b.invariant Orderly.step orderly_empty n

theorem advances (h : n ≤ m) : (b.state n).Advances (b.state m) := by
  have hi := b.invariant_from (n := n) (I := fun c => c.Orderly ∧ (b.state n).Advances c)
    (fun hi hs => ⟨hi.1.step hs, hi.2.trans (hi.1.advances hs)⟩) ⟨orderly b n, .refl _⟩ h
  exact hi.2

/-- What happens to a chain at the instant of an act. -/
theorem moves_at (he : b.event n = some (.act i a)) : ∃ link link' : Link τ,
    (b.state n).links[i]? = some link ∧ link.Moves a link' ∧
    (a = .call → (b.state n).promise i = .fulfilled) ∧
    (b.state (n + 1)).links[i]? = some link' := by
  obtain ⟨link, link', hi, hmoves, hcall, hnext⟩ := (orderly b n).moves (b.step_of_event he)
  refine ⟨link, link', hi, hmoves, hcall, ?_⟩
  rw [hnext, List.getElem?_set_self (List.getElem?_eq_some_iff.mp hi).1]

/-- A task is called after those before it have settled, while none is in flight. -/
theorem call_alone (he : b.event n = some (.act i .call)) :
    (∀ j, ¬ (b.state n).InFlight j) ∧ ∀ j < i, (b.state n).Settled j := by
  obtain ⟨link, link', hi, hmoves, hp, -⟩ := moves_at b he
  cases hmoves
  exact ⟨(orderly b n).not_inFlight hi (hp rfl),
    fun j hj => (orderly b n).settled_of_lt hj (hp rfl)⟩

/-- No task is called twice. -/
theorem call_once (he : b.event n = some (.act i .call)) (he' : b.event m = some (.act i .call)) :
    n = m := by
  have hlt {n m : Nat} (he : b.event n = some (.act i .call))
      (he' : b.event m = some (.act i .call)) : ¬ n < m := by
    intro hnm
    obtain ⟨link, link', -, hmoves, -, hi⟩ := moves_at b he
    obtain ⟨link₁, link₁', hi₁, hmoves₁, -, -⟩ := moves_at b he'
    obtain ⟨link₂, hi₂, hl⟩ := advances b hnm i link' hi
    cases hi₁.symm.trans hi₂
    cases hmoves
    cases hmoves₁
    exact hl.called nofun rfl
  exact Nat.le_antisymm (Nat.le_of_not_lt (hlt he' he)) (Nat.le_of_not_lt (hlt he he'))

/-- Tasks take effect in the order they were enqueued. -/
theorem perform_lt (he : b.event n = some (.act i .perform))
    (he' : b.event m = some (.act j .perform)) (hnm : n < m) : i < j := by
  obtain ⟨link, link', hi, hmoves, -, hi'⟩ := moves_at b he
  obtain ⟨link₁, link₁', hj, hmoves₁, -, -⟩ := moves_at b he'
  cases hmoves
  cases hmoves₁
  apply Nat.lt_of_not_le
  intro hji
  rcases Nat.lt_or_eq_of_le hji with hlt | rfl
  · -- the later task is called already, so the earlier one is done and moves no more
    have hp := (orderly b n).fulfilled_of_called hi nofun
    have hdone := (advances b (Nat.le_of_lt hnm)).promise ((orderly b n).fulfilled_of_le hlt hp)
    rw [promise_succ hj] at hdone
    cases hdone
  · obtain ⟨link₂, hj₂, hl⟩ := advances b hnm j _ hi'
    cases hj.symm.trans hj₂
    exact Bool.noConfusion (hl.performed rfl)

end

/-! ## Progress -/

/-- Reactions to promises that have settled run, and tasks that are called settle, one day. -/
structure Fair (b : Behaviour (@Chain.step τ) empty) : Prop where
  reacts : ∀ {n i a}, a = .call ∨ a = .resolve → ((b.state n).act i a).isSome →
    ∃ m, n ≤ m ∧ b.event m = some (.act i a)
  settles : ∀ {n i}, (b.state n).InFlight i →
    ∃ m ok, n ≤ m ∧ b.event m = some (.act i (.settle ok))

section
variable {b : Behaviour (@Chain.step τ) empty}

theorem Fair.called (h : Fair b) {link : Link τ} (hi : (b.state n).links[i]? = some link)
    (hp : (b.state n).promise i = .fulfilled) :
    ∃ m link', n ≤ m ∧ (b.state m).links[i]? = some link' ∧ link'.call ≠ none := by
  cases orderly b n i link hi with
  | waiting task =>
    have hsome : ((b.state n).act i .call).isSome := by
      simp [act, hi, hp, Link.act, Link.waiting]
    obtain ⟨m, hnm, he⟩ := h.reacts (.inl rfl) hsome
    obtain ⟨link, link', -, hmoves, -, hi'⟩ := moves_at b he
    cases hmoves
    exact ⟨m + 1, _, Nat.le_succ_of_le hnm, hi', nofun⟩
  | flying | settled | done => exact ⟨n, _, Nat.le_refl n, hi, nofun⟩

theorem Fair.settled (h : Fair b) {link : Link τ} (hi : (b.state n).links[i]? = some link)
    (hc : link.call ≠ none) : ∃ m, n ≤ m ∧ (b.state m).Settled i := by
  cases orderly b n i link hi with
  | waiting => exact absurd rfl hc
  | flying =>
    obtain ⟨m, ok, hnm, he⟩ := h.settles ⟨_, hi, rfl⟩
    obtain ⟨link, link', -, hmoves, -, hi'⟩ := moves_at b he
    cases hmoves
    exact ⟨m + 1, Nat.le_succ_of_le hnm, _, _, hi', rfl, PromiseState.ofOutcome_ne_pending ok⟩
  | settled _ hcall | done _ hcall => exact ⟨n, Nat.le_refl n, _, _, hi, rfl, hcall⟩

theorem Fair.resolved (h : Fair b) (hs : (b.state n).Settled i) :
    ∃ m, n ≤ m ∧ (b.state m).promise (i + 1) = .fulfilled := by
  obtain ⟨link, call, hi, hc, hcall⟩ := hs
  cases orderly b n i link hi with
  | waiting => cases hc
  | flying =>
    cases hc
    exact absurd rfl hcall
  | settled _ hcall =>
    have hsome : ((b.state n).act i .resolve).isSome := by
      simp [act, hi, Link.act, PromiseState.caught_of_ne_pending hcall]
    obtain ⟨m, hnm, he⟩ := h.reacts (.inr rfl) hsome
    obtain ⟨link, link', -, hmoves, -, hi'⟩ := moves_at b he
    cases hmoves
    exact ⟨m + 1, Nat.le_succ_of_le hnm, promise_succ hi'⟩
  | done => exact ⟨n, Nat.le_refl n, promise_succ hi⟩

/-- Every promise of the chain is fulfilled one day, whatever became of the tasks before it. -/
theorem Fair.fulfilled (h : Fair b) (hi : i ≤ (b.state n).links.length) :
    ∃ m, n ≤ m ∧ (b.state m).promise i = .fulfilled := by
  induction i with
  | zero => exact ⟨n, Nat.le_refl n, rfl⟩
  | succ i ih =>
    obtain ⟨m, hnm, hp⟩ := ih (Nat.le_of_succ_le hi)
    obtain ⟨link, hlink, -⟩ := advances b hnm i _ (List.getElem?_eq_getElem hi)
    obtain ⟨m₁, link₁, hm₁, hlink₁, hc⟩ := h.called hlink hp
    obtain ⟨m₂, hm₂, hs⟩ := h.settled hlink₁ hc
    obtain ⟨m₃, hm₃, hp⟩ := h.resolved hs
    exact ⟨m₃, by omega, hp⟩

/-- A link that is not what it was has been acted on as what it was. -/
theorem acted_of_ne (b : Behaviour (@Chain.step τ) empty) {link link' : Link τ} (hnm : n ≤ m)
    (hn : (b.state n).links[i]? = some link) (hm : (b.state m).links[i]? = some link')
    (hne : link ≠ link') :
    ∃ k a, n ≤ k ∧ b.event k = some (.act i a) ∧ (b.state k).links[i]? = some link := by
  induction hnm generalizing link' with
  | refl =>
    cases hn.symm.trans hm
    exact absurd rfl hne
  | @step m hnm ih =>
    obtain ⟨link₁, hm₁, -⟩ := advances b hnm i link hn
    by_cases hsame : link = link₁
    · subst hsame
      refine ⟨m, ?_⟩
      rcases b.next_cases m with hstay | ⟨e, he, hs⟩
      · rw [hstay] at hm
        cases hm₁.symm.trans hm
        exact absurd rfl hne
      · cases e with
        | enqueue task =>
          rw [← Option.some.inj hs] at hm
          cases (getElem?_enqueue_of_some hm₁ task).symm.trans hm
          exact absurd rfl hne
        | act j a =>
          by_cases hji : j = i
          · subst hji
            exact ⟨a, hnm, he, hm₁⟩
          · obtain ⟨-, link₂, -, -, -, hnext⟩ := (orderly b m).moves hs
            rw [hnext, List.getElem?_set_ne hji] at hm
            cases hm₁.symm.trans hm
            exact absurd rfl hne
    · exact ih hm₁ hsame

/-- A run that comes to rest with its promises fulfilled is fair. -/
theorem Fair.of_rest (b : Behaviour (@Chain.step τ) empty) (N : Nat)
    (hrest : ∀ n, N ≤ n → ∀ (i : Nat) (link : Link τ), (b.state n).links[i]? = some link →
      link.promise = .fulfilled) : Fair b := by
  have hacted {n i : Nat} {link : Link τ} (hn : (b.state n).links[i]? = some link)
      (hp : link.promise = .pending) :
      ∃ k a, n ≤ k ∧ b.event k = some (.act i a) ∧ (b.state k).links[i]? = some link := by
    obtain ⟨link', hm, -⟩ := advances b (Nat.le_max_left n N) i link hn
    refine acted_of_ne b (Nat.le_max_left n N) hn hm fun heq => ?_
    have hdone := hrest _ (Nat.le_max_right n N) i link' hm
    rw [← heq, hp] at hdone
    cases hdone
  constructor
  · intro n i a ha hsome
    obtain ⟨c', hc'⟩ := Option.isSome_iff_exists.mp hsome
    obtain ⟨link, link', hi, hmoves, -⟩ := (orderly b n).moves hc'
    have hp : link.promise = .pending := by
      cases hmoves with
      | call | perform | settle | resolve => rfl
    obtain ⟨k, a', hnk, he, hk⟩ := hacted hi hp
    obtain ⟨link₁, link₂, hk₁, hmoves', -⟩ := moves_at b he
    cases hk.symm.trans hk₁
    refine ⟨k, hnk, ?_⟩
    rcases ha with rfl | rfl
    · cases hmoves
      cases hmoves' with
      | call => exact he
    · cases hmoves with
      | resolve hcall =>
        cases hmoves' with
        | perform | settle => exact absurd rfl hcall
        | resolve => exact he
  · intro n i hflight
    obtain ⟨link, hi, hc⟩ := hflight
    have hp : link.promise = .pending := by
      rw [← promise_succ hi]
      exact (orderly b n).promise_of_inFlight ⟨link, hi, hc⟩
    obtain ⟨k, a, hnk, he, hk⟩ := hacted hi hp
    obtain ⟨link₁, link₂, hk₁, hmoves, -, hk'⟩ := moves_at b he
    cases hk.symm.trans hk₁
    cases hmoves with
    | call => cases hc
    | settle => exact ⟨k, _, hnk, he⟩
    | resolve hcall => exact absurd (Option.some.inj hc) hcall
    | perform =>
      -- it has taken effect, and what it does next is to settle
      obtain ⟨k', a', hkk', he', hk''⟩ := hacted hk' rfl
      obtain ⟨link₃, link₄, hk₃, hmoves', -⟩ := moves_at b he'
      cases hk''.symm.trans hk₃
      cases hmoves' with
      | settle => exact ⟨k', _, by omega, he'⟩
      | resolve hcall => exact absurd rfl hcall

end

end Chain

end WarrenSdk.Lib
