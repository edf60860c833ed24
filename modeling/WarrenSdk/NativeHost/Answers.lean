import Mathlib.Data.Nat.Find
import WarrenSdk.Lib.Behaviour
import WarrenSdk.NativeHost.Ownership

/-!
# What is answered, and in which order

Each part of a call answers its request and ends the call, or suspends it at an await nearer to its
end (`Part`). So a request is answered at most once, and, in a behaviour in which every backend call
returns, exactly once. A generation that a call ended is over before the call answers, and no state
event of a generation that is over is queued.
-/

namespace WarrenSdk.NativeHost
open Lib

/-- The id a message echoes. -/
def Message.id? : Message → Option Value
  | .hello id | .status id _ _ _ _ | .connect id _ _ _ _ | .disconnect id | .exits id _
  | .account id _ | .error id _ _ => some id
  | .state _ => none

/-- The id that a suspended call still has to echo. -/
def Call.owes : Call → Option Value
  | .creating id _ _ | .dialing id _ _ | .disconnecting id | .listing id | .expiring id => some id
  | .discarding answer => answer.id?
  | .closing => none

/-- The most awaits that a suspended call goes through, the one it is at included. -/
def Call.awaits : Call → Nat
  | .creating _ _ _ => 3
  | .dialing _ _ _ => 2
  | .discarding _ | .disconnecting _ | .closing | .listing _ | .expiring _ => 1

theorem Call.awaits_pos (c : Call) : 0 < c.awaits := by
  cases c <;> exact Nat.zero_lt_succ _

theorem Call.awaits_lt (c : Call) : c.awaits < 4 := by
  cases c <;> simp [Call.awaits]

/-- The call that the return of a backend call wakes. -/
def Event.wakes : Event → Option Nat
  | .created t _ | .dialed t _ | .shutDown t | .listed t _ | .expiry t _ => some t
  | .handle _ _ | .close | .state _ _ => none

namespace HostSession

/-- The answers that the call `t` has sent, in order. -/
def answers (s : HostSession) (t : Nat) : List Message :=
  s.outbox.filterMap fun x => if x.1 = some t then some x.2 else none

/-- What is left of the call `t`; nothing once it is over. -/
def rank (s : HostSession) (t : Nat) : Nat := (s.calls t).elim 0 Call.awaits

variable {s s' u : HostSession} {e : Event} {t k g : Nat} {m : Message} {id : Value}

theorem actor_of_wakes (h : e.wakes = some t) : s.actor e = some t := by
  cases e <;> first | exact h | cases h

theorem rank_of_suspended (h : s.calls t = some c) : s.rank t = c.awaits := by
  unfold rank
  rw [h, Option.elim_some]

theorem rank_of_over (h : s.calls t = none) : s.rank t = 0 := by
  unfold rank
  rw [h, Option.elim_none]

theorem over_of_rank (h : s.rank t = 0) : s.calls t = none := by
  cases hc : s.calls t with
  | none => rfl
  | some c => exact absurd ((rank_of_suspended hc).symm.trans h) c.awaits_pos.ne'

@[simp] theorem mem_answers : m ∈ s.answers t ↔ (some t, m) ∈ s.outbox := by
  unfold answers
  rw [List.mem_filterMap]
  constructor
  · rintro ⟨⟨c, m'⟩, hx, hm⟩
    split at hm
    · next hc =>
      cases hm
      exact (show c = some t from hc) ▸ hx
    · cases hm
  · intro h
    exact ⟨_, h, if_pos rfl⟩

theorem answers_eq_nil (h : ∀ m, (some t, m) ∉ s.outbox) : s.answers t = [] :=
  List.eq_nil_iff_forall_not_mem.mpr fun m hm => h m (mem_answers.mp hm)

theorem answers_congr (h : s'.outbox = s.outbox) : s'.answers t = s.answers t := by
  unfold answers
  rw [h]

theorem answers_append (h : s'.outbox = s.outbox ++ [(some t, m)]) :
    s'.answers t = s.answers t ++ [m] := by
  unfold answers
  rw [h, List.filterMap_append]
  simp

theorem answers_send (s : HostSession) (t : Nat) (m : Message) :
    (s.send t m).answers t = s.answers t ++ [m] := answers_append rfl

theorem answers_append_of_ne {c : Option Nat} (h : s'.outbox = s.outbox ++ [(c, m)])
    (hne : c ≠ some t) : s'.answers t = s.answers t := by
  unfold answers
  rw [h, List.filterMap_append]
  simp [hne]

/-! ## One part of a call -/

/-- What a part of the call `t` that owes an answer to `owed` does: it leaves the call at an await
with fewer than `k` to go, or it ends the call, with the answer owed. -/
inductive Part (t : Nat) (owed : Option Value) (k : Nat) (s s' : HostSession) : Prop
  | suspended (c : Call) (hc : s'.calls t = some c) (ho : c.owes = owed) (hk : c.awaits < k)
      (hq : s'.outbox = s.outbox)
  | answered (m : Message) (hc : s'.calls t = none) (ho : m.id? = owed)
      (hq : s'.outbox = s.outbox ++ [(some t, m)])
  | silent (hc : s'.calls t = none) (ho : owed = none) (hq : s'.outbox = s.outbox)

variable {owed : Option Value}

theorem Part.of_outbox (h : Part t owed k u s') (hq : u.outbox = s.outbox) :
    Part t owed k s s' := by
  cases h with
  | suspended c hc ho hk hq' => exact .suspended c hc ho hk (hq'.trans hq)
  | answered m hc ho hq' => exact .answered m hc ho (hq ▸ hq')
  | silent hc ho hq' => exact .silent hc ho (hq'.trans hq)

theorem Part.send (hf : s.calls t = none) (hm : m.id? = owed) : Part t owed k s (s.send t m) :=
  .answered m hf hm rfl

theorem Part.suspend (ho : c.owes = owed) (hk : c.awaits < k) :
    Part t owed k s (s.suspend t c) :=
  .suspended c (Function.update_self ..) ho hk rfl

theorem Part.shutdown (ho : c.owes = owed) (hk : c.awaits < k) :
    Part t owed k s (s.shutdown t n c) := by
  have h : Part t owed k { s with shutdowns := s.shutdowns ++ [n] } (s.shutdown t n c) :=
    .suspend ho hk
  exact h.of_outbox rfl

theorem Part.answerConnect {discard : Option Nat} (hf : s.calls t = none) (hm : m.id? = owed)
    (hk : 1 < k) : Part t owed k s (s.answerConnect t discard m) := by
  cases discard with
  | none => exact .send hf hm
  | some n => exact .shutdown hm hk

theorem Part.settle (hf : s.calls t = none) (hk : 1 < k) :
    Part t (some id) k s (s.settle t id g outcome) := by
  have hanswer {inner : Inner} {discard : Option Nat} {m : Message} (hm : m.id? = some id) :
      Part t (some id) k s ({ s with inner }.answerConnect t discard m) := by
    have h : Part t (some id) k { s with inner } ({ s with inner }.answerConnect t discard m) :=
      .answerConnect hf hm hk
    exact h.of_outbox rfl
  unfold HostSession.settle
  simp only
  split
  · split
    · exact hanswer rfl
    · exact hanswer rfl
  · exact hanswer rfl

theorem Part.tunnelCreated (hf : s.calls t = none) :
    Part t (some id) 3 s (s.tunnelCreated t id g options r) := by
  unfold HostSession.tunnelCreated
  cases r with
  | error e => exact .settle hf (by decide)
  | ok _ => exact .suspended _ (Function.update_self ..) rfl (Nat.lt_succ_self 2) rfl

theorem Part.hello (hf : s.calls t = none) :
    Part t (some id) k s (s.hello t id protocol channel) := by
  have hset {channel : Option Channel} :
      Part t (some id) k s ({ s with inner := { s.inner with channel } }.send t (.hello id)) := by
    have h : Part t (some id) k { s with inner := { s.inner with channel } }
        ({ s with inner := { s.inner with channel } }.send t (.hello id)) := .send hf rfl
    exact h.of_outbox rfl
  unfold HostSession.hello
  split
  · split
    · exact hset
    · split
      · exact hset
      · exact .send hf rfl
    · exact .send hf rfl
  · exact .send hf rfl

theorem Part.connect (hf : s.calls t = none) :
    Part t (some id) 4 s (s.connect t id request) := by
  unfold HostSession.connect
  split
  · exact .send hf rfl
  · split
    · exact .send hf rfl
    · exact .suspended _ (Function.update_self ..) rfl (Call.awaits_lt _) rfl

theorem Part.disconnect (hf : s.calls t = none) :
    Part t (some id) 4 s (s.disconnect t id) := by
  unfold HostSession.disconnect HostSession.teardown
  cases s.inner.tunnel with
  | none => exact .answered _ hf rfl rfl
  | some n => exact .suspended _ (Function.update_self ..) rfl (Call.awaits_lt _) rfl

theorem Part.close (hf : s.calls t = none) : Part t none 4 s (s.close t) := by
  unfold HostSession.close HostSession.teardown
  simp only
  cases s.inner.tunnel with
  | none => exact .silent hf rfl rfl
  | some n => exact .suspended _ (Function.update_self ..) rfl (Call.awaits_lt _) rfl

theorem Part.handle (hf : s.calls t = none) :
    Part t (some envelope.id) 4 s (s.handle t envelope route) := by
  obtain ⟨id, request⟩ := envelope
  cases request with
  | hello protocol channel => exact .hello hf
  | status => exact .send hf (by unfold statusAnswer; split <;> rfl)
  | connect request => exact .connect hf
  | disconnect => exact .disconnect hf
  | exits => exact .suspended _ (Function.update_self ..) rfl (Call.awaits_lt _) rfl
  | account mnemonic => exact .suspended _ (Function.update_self ..) rfl (Call.awaits_lt _) rfl
  | refused reason => exact .send hf rfl

/-- The call an event is a part of is a new one, or one that was suspended. -/
theorem part_of_step (ho : OwnInv none s) (hs : NativeHost.step s e = some s')
    (hact : s.actor e = some t) :
    (t = s.nextCall ∧ ∃ envelope route, e = .handle envelope route ∧
      Part t (some envelope.id) 4 s s') ∨
    (t = s.nextCall ∧ e = .close ∧ Part t none 4 s s') ∨
    ∃ c, s.calls t = some c ∧ Part t c.owes c.awaits s s' := by
  have hnew : s.calls s.nextCall = none := by
    by_contra hc
    exact Nat.lt_irrefl _ (ho.call_lt hc)
  have hfree : (s.wake t).calls t = none := Function.update_self ..
  cases e with
  | handle envelope route =>
    cases hact
    cases hs
    have h : Part s.nextCall (some envelope.id) 4 { s with nextCall := s.nextCall + 1 }
        (HostSession.handle s.nextCall envelope route { s with nextCall := s.nextCall + 1 }) :=
      .handle hnew
    exact .inl ⟨rfl, envelope, route, rfl, h.of_outbox rfl⟩
  | close =>
    cases hact
    cases hs
    have h : Part s.nextCall none 4 { s with nextCall := s.nextCall + 1 } _ := .close hnew
    exact .inr (.inl ⟨rfl, rfl, h.of_outbox rfl⟩)
  | created t' r =>
    cases hact
    simp only [NativeHost.step] at hs
    split at hs
    · next hc =>
      cases hs
      exact .inr (.inr ⟨_, hc, (Part.tunnelCreated hfree).of_outbox rfl⟩)
    · cases hs
  | dialed t' r =>
    cases hact
    simp only [NativeHost.step] at hs
    split at hs
    · next hc =>
      cases hs
      refine .inr (.inr ⟨_, hc, Part.of_outbox (u := s.wake t) ?_ rfl⟩)
      exact .settle hfree (Nat.lt_succ_self 1)
    · cases hs
  | shutDown t' =>
    cases hact
    simp only [NativeHost.step] at hs
    split at hs
    · next hc =>
      cases hs
      exact .inr (.inr ⟨_, hc, .answered _ hfree rfl rfl⟩)
    · next hc =>
      cases hs
      exact .inr (.inr ⟨_, hc, .answered _ hfree rfl rfl⟩)
    · next hc =>
      cases hs
      exact .inr (.inr ⟨_, hc, .silent hfree rfl rfl⟩)
    · cases hs
  | listed t' r =>
    cases hact
    simp only [NativeHost.step] at hs
    split at hs
    · next hc =>
      cases hs
      refine .inr (.inr ⟨_, hc, ?_⟩)
      cases r with
      | error e => exact .answered _ hfree rfl rfl
      | ok locations => exact .answered _ hfree rfl rfl
    · cases hs
  | expiry t' r =>
    cases hact
    simp only [NativeHost.step] at hs
    split at hs
    · next hc =>
      cases hs
      refine .inr (.inr ⟨_, hc, ?_⟩)
      cases r with
      | error e => exact .answered _ hfree rfl rfl
      | ok expiresAt => exact .answered _ hfree rfl rfl
    · cases hs
  | state g state => cases hact

theorem suspended_of_actor (ho : OwnInv none s) (hs : NativeHost.step s e = some s')
    (hact : s.actor e = some t) (hlt : t < s.nextCall) : ∃ c, s.calls t = some c ∧
      Part t c.owes c.awaits s s' := by
  rcases part_of_step ho hs hact with ⟨rfl, -⟩ | ⟨rfl, -⟩ | h
  · exact absurd hlt (Nat.lt_irrefl _)
  · exact absurd hlt (Nat.lt_irrefl _)
  · exact h

/-- An event sends the answers of its own call only. -/
theorem answers_of_ne (ho : OwnInv none s) (hs : NativeHost.step s e = some s')
    (hact : s.actor e ≠ some t) : s'.answers t = s.answers t := by
  cases hact' : s.actor e with
  | none =>
    cases e <;> cases hact'
    cases hs
    unfold HostSession.stateSink
    split
    · rfl
    · exact answers_append_of_ne rfl (by simp)
  | some t' =>
    have hne : some t' ≠ some t := hact' ▸ hact
    have hpart : ∃ owed k, Part t' owed k s s' := by
      rcases part_of_step ho hs hact' with ⟨-, _, _, -, h⟩ | ⟨-, -, h⟩ | ⟨c, -, h⟩
      · exact ⟨_, _, h⟩
      · exact ⟨_, _, h⟩
      · exact ⟨_, _, h⟩
    obtain ⟨_, _, h⟩ := hpart
    cases h with
    | suspended c hc ho hk hq => exact answers_congr hq
    | answered m hc ho hq => exact answers_append_of_ne hq hne
    | silent hc ho hq => exact answers_congr hq

/-- No event takes back the number of calls, nor a generation. -/
theorem step_mono (ho : OwnInv none s) (hs : NativeHost.step s e = some s') :
    s.nextCall ≤ s'.nextCall ∧ s.inner.generation ≤ s'.inner.generation := by
  -- No event is a part of the call after the next.
  have ha : Apart (s.nextCall + 1) s s' := by
    refine .step ho hs fun hact => ?_
    rcases part_of_step ho hs hact with ⟨h, -⟩ | ⟨h, -⟩ | ⟨c, hc, -⟩
    · exact Nat.succ_ne_self _ h
    · exact Nat.succ_ne_self _ h
    · exact absurd (ho.call_lt (by rw [hc]; simp)) (Nat.not_lt.mpr (Nat.le_succ _))
  exact ⟨ha.nextCall, ha.generation⟩

/-- A handle is a call of its own. -/
theorem nextCall_handle (hs : NativeHost.step s (.handle envelope route) = some s') :
    s.nextCall < s'.nextCall := by
  cases hs
  exact (Apart.handle (t := s.nextCall + 1) (s := { s with nextCall := s.nextCall + 1 })
    (Nat.ne_of_lt (Nat.lt_succ_self _))).nextCall

theorem rank_step (ho : OwnInv none s) (hs : NativeHost.step s e = some s')
    (hlt : t < s.nextCall) :
    s'.rank t ≤ s.rank t ∧ (s.actor e = some t → s'.rank t < s.rank t) := by
  by_cases hact : s.actor e = some t
  · obtain ⟨c, hc, hpart⟩ := suspended_of_actor ho hs hact hlt
    have hdown : s'.rank t < s.rank t := by
      rw [rank_of_suspended hc]
      cases hpart with
      | suspended c' hc' ho' hk hq => rwa [rank_of_suspended hc']
      | answered m hc' ho' hq =>
        rw [rank_of_over hc']
        exact c.awaits_pos
      | silent hc' ho' hq =>
        rw [rank_of_over hc']
        exact c.awaits_pos
    exact ⟨Nat.le_of_lt hdown, fun _ => hdown⟩
  · refine ⟨Nat.le_of_eq ?_, fun h => absurd h hact⟩
    unfold rank
    rw [(Apart.step ho hs hact).calls]

/-! ## One answer, with the id of its request -/

/-- The call `t` is over, and `m` is all that it has sent. -/
structure Answered (s : HostSession) (t : Nat) (m : Message) : Prop where
  ended : s.calls t = none
  lt : t < s.nextCall
  answers : s.answers t = [m]

/-- The call `t` has answered with `id`, or is suspended and will. -/
inductive Owed (s : HostSession) (t : Nat) (id : Value) : Prop
  | pending (c : Call) (hc : s.calls t = some c) (ho : c.owes = some id) (hq : s.answers t = [])
  | answered (m : Message) (hm : m.id? = some id) (h : s.Answered t m)

theorem Answered.step (ho : OwnInv none s) (h : s.Answered t m)
    (hs : NativeHost.step s e = some s') : s'.Answered t m := by
  have hact : s.actor e ≠ some t := by
    intro hact
    obtain ⟨c, hc, -⟩ := suspended_of_actor ho hs hact h.lt
    cases h.ended.symm.trans hc
  have ha := Apart.step ho hs hact
  exact {
    ended := ha.calls.trans h.ended
    lt := Nat.lt_of_lt_of_le h.lt ha.nextCall
    answers := (answers_of_ne ho hs hact).trans h.answers }

theorem Part.toOwed (h : Part t (some id) k s s') (hq : s.answers t = []) (hlt : t < s'.nextCall) :
    Owed s' t id := by
  cases h with
  | suspended c hc ho hk hq' => exact .pending c hc ho ((answers_congr hq').trans hq)
  | answered m hc ho hq' =>
    refine .answered m ho ⟨hc, hlt, ?_⟩
    rw [answers_append hq', hq, List.nil_append]
  | silent hc ho hq' => cases ho

theorem Owed.step (ho : OwnInv none s) (h : Owed s t id)
    (hs : NativeHost.step s e = some s') : Owed s' t id := by
  cases h with
  | answered m hm h => exact .answered m hm (h.step ho hs)
  | pending c hc howes hq =>
    have hlt : t < s.nextCall := ho.call_lt (by rw [hc]; simp)
    by_cases hact : s.actor e = some t
    · obtain ⟨c', hc', hpart⟩ := suspended_of_actor ho hs hact hlt
      cases hc.symm.trans hc'
      rw [howes] at hpart
      exact hpart.toOwed hq (Nat.lt_of_lt_of_le hlt (step_mono ho hs).1)
    · have ha := Apart.step ho hs hact
      exact .pending c (ha.calls.trans hc) howes ((answers_of_ne ho hs hact).trans hq)

theorem Owed.handle (ho : OwnInv none s) (h : QuietInv s)
    (hs : NativeHost.step s (.handle envelope route) = some s') :
    Owed s' s.nextCall envelope.id := by
  have hq : s.answers s.nextCall = [] := answers_eq_nil fun m => h.fresh (Nat.le_refl _)
  rcases part_of_step ho hs rfl with ⟨-, _, _, he, hpart⟩ | ⟨-, he, -⟩ | ⟨c, hc, -⟩
  · cases he
    exact hpart.toOwed hq (nextCall_handle hs)
  · cases he
  · exact absurd (ho.call_lt (by rw [hc]; simp)) (Nat.lt_irrefl _)

/-! ## Generations that are over -/

/-- The `connect` `t`, begun under `g`, is in flight, or that generation is over, or the answer was
no error. -/
inductive Lapses (s : HostSession) (t g : Nat) : Prop
  | begun (c : Call) (hc : s.calls t = some c) (hg : c.generation? = some g)
  | lapsed (hg : g < s.inner.generation)
  | settled (hc : s.calls t = none) (hlt : t < s.nextCall)
      (hm : ∀ m ∈ s.answers t, m.isError = false)

theorem Lapses.answerConnect {discard : Option Nat} (h : g < s.inner.generation) :
    Lapses (s.answerConnect t discard m) t g := by
  cases discard with
  | none => exact .lapsed h
  | some n => exact .lapsed h

theorem Lapses.settle (hf : s.calls t = none) (hlt : t < s.nextCall) (hq : s.answers t = [])
    (hg : g ≤ s.inner.generation) : Lapses (s.settle t id g outcome) t g := by
  unfold HostSession.settle
  simp only
  split
  · split
    · refine .settled hf hlt fun m hm => ?_
      have hnone (inner : Inner) : ({ s with inner } : HostSession).answers t = [] := hq
      rw [HostSession.answerConnect, answers_send, hnone, List.nil_append,
        List.mem_singleton] at hm
      exact hm ▸ rfl
    · next hne => exact .answerConnect (Nat.lt_of_le_of_ne hg (Ne.symm hne))
  · refine .answerConnect ?_
    split
    · exact Nat.lt_succ_of_le hg
    · next hne => exact Nat.lt_of_le_of_ne hg (Ne.symm hne)

theorem Lapses.step (ho : OwnInv none s) (hq : QuietInv s) (h : Lapses s t g)
    (hs : NativeHost.step s e = some s') : Lapses s' t g := by
  cases h with
  | lapsed hg => exact .lapsed (Nat.lt_of_lt_of_le hg (step_mono ho hs).2)
  | settled hc hlt hm =>
    have hact : s.actor e ≠ some t := by
      intro hact
      obtain ⟨c, hc', -⟩ := suspended_of_actor ho hs hact hlt
      cases hc.symm.trans hc'
    have ha := Apart.step ho hs hact
    refine .settled (ha.calls.trans hc) (Nat.lt_of_lt_of_le hlt ha.nextCall) ?_
    rwa [answers_of_ne ho hs hact]
  | begun c hc hg =>
    by_cases hact : s.actor e = some t
    · have hlt : t < s.nextCall := ho.call_lt (by rw [hc]; simp)
      have hsettling := ho.settling hc hg
      have hquiet : (s.wake t).answers t = [] :=
        answers_eq_nil ((hq.suspended t).resolve_left (by rw [hc]; simp))
      rcases step_cases hs with ⟨_, _, rfl, -⟩ | ⟨rfl, -⟩ | ⟨_, _, rfl, -⟩ |
        ⟨t', c', hact', hc', hr⟩
      · exact absurd hlt (Option.some.inj hact ▸ Nat.lt_irrefl _)
      · exact absurd hlt (Option.some.inj hact ▸ Nat.lt_irrefl _)
      · cases hact
      · cases hact'.symm.trans hact
        cases hc.symm.trans hc'
        cases hr with
        | created =>
          cases hg
          unfold HostSession.tunnelCreated
          split
          · exact .settle hsettling.free hsettling.lt hquiet hsettling.le
          · exact .begun _ (Function.update_self ..) rfl
        | dialed =>
          cases hg
          exact .settle hsettling.free hsettling.lt hquiet hsettling.le
        | discarded => cases hg
        | disconnected => cases hg
        | closed => cases hg
        | listed => cases hg
        | expiry => cases hg
    · exact .begun c ((Apart.step ho hs hact).calls.trans hc) hg

/-- A sink whose generation is over queues nothing. -/
theorem stateSink_of_lt (h : g < s.inner.generation) : s.stateSink g state = s :=
  if_pos (Nat.ne_of_gt h)

/-! ## Every behaviour -/

/-- What a session does from its beginning on, whatever the order of requests, of backend
completions and of state events. -/
abbrev Session := Behaviour NativeHost.step ({} : HostSession)

/-- Every backend call eventually returns. A call that `serve` drops when its drain has run out has
not. -/
def EveryCallReturns (b : Session) : Prop :=
  ∀ n t, (b.state n).calls t ≠ none → ∃ m, n ≤ m ∧ ∃ e, b.event m = some e ∧ e.wakes = some t

/-- At the instant `n` the message is queued, as an answer of the call given. -/
def Queues (b : Session) (n t : Nat) (m : Message) : Prop :=
  (b.state (n + 1)).outbox = (b.state n).outbox ++ [(some t, m)]

/-- From the instant `n` on no state event of a tunnel created under `g` is queued. -/
def SilentFrom (b : Session) (n g : Nat) : Prop :=
  ∀ k state, n ≤ k → b.event k = some (.state g state) →
    (b.state (k + 1)).outbox = (b.state k).outbox

theorem session_inv (b : Session) (n : Nat) : OwnInv none (b.state n) ∧ QuietInv (b.state n) :=
  b.invariant (I := fun s => OwnInv none s ∧ QuietInv s)
    (fun hi hs => ⟨hi.1.step hs, hi.2.step hi.1 hs⟩) ⟨.new, .new⟩ n

theorem session_mono (b : Session) {n m : Nat} (h : n ≤ m) :
    (b.state n).nextCall ≤ (b.state m).nextCall ∧
      (b.state n).inner.generation ≤ (b.state m).inner.generation := by
  have hi := b.invariant_from (n := n) (I := fun s => OwnInv none s ∧
      (b.state n).nextCall ≤ s.nextCall ∧ (b.state n).inner.generation ≤ s.inner.generation)
    (fun {_ _ _} hi hs => ⟨hi.1.step hs, Nat.le_trans hi.2.1 (step_mono hi.1 hs).1,
      Nat.le_trans hi.2.2 (step_mono hi.1 hs).2⟩)
    ⟨(session_inv b n).1, Nat.le_refl _, Nat.le_refl _⟩ h
  exact hi.2

/-- A call that has not begun has not answered. -/
theorem answers_before (b : Session) (h : i ≤ n) : (b.state i).answers (b.state n).nextCall = [] :=
  answers_eq_nil fun _ => (session_inv b i).2.fresh (session_mono b h).1

theorem le_of_queues (b : Session) (h : Queues b k (b.state n).nextCall m) : n ≤ k := by
  by_contra hlt
  have hnone := answers_before b (Nat.succ_le_of_lt (Nat.lt_of_not_le hlt))
  have hsome := answers_append h
  rw [hnone] at hsome
  simp at hsome

theorem owed_after (b : Session) (he : b.event n = some (.handle envelope route)) (h : n < i) :
    Owed (b.state i) (b.state n).nextCall envelope.id := by
  obtain ⟨ho, hq⟩ := session_inv b n
  have hi := b.invariant_from (n := n + 1)
    (I := fun s => OwnInv none s ∧ Owed s (b.state n).nextCall envelope.id)
    (fun hi hs => ⟨hi.1.step hs, hi.2.step hi.1 hs⟩)
    ⟨(session_inv b (n + 1)).1, .handle ho hq (b.step_of_event he)⟩ h
  exact hi.2

theorem silent_of_lt (b : Session) (h : g < (b.state n).inner.generation) : SilentFrom b n g := by
  intro k state hle he
  have hs : NativeHost.step (b.state k) (.state g state) = some (b.state (k + 1)) :=
    b.step_of_event he
  rw [NativeHost.step, stateSink_of_lt (Nat.lt_of_lt_of_le h (session_mono b hle).2)] at hs
  rw [Option.some.inj hs]

/-- Every call that has begun comes to an end. -/
theorem over_eventually (b : Session) (hb : EveryCallReturns b) (hlt : t < (b.state n).nextCall) :
    ∃ k, n ≤ k ∧ (b.state k).calls t = none := by
  have hdown {s e s'} (hi : OwnInv none s ∧ t < s.nextCall)
      (hs : NativeHost.step s e = some s') :
      (OwnInv none s' ∧ t < s'.nextCall) ∧ s'.rank t ≤ s.rank t :=
    ⟨⟨hi.1.step hs, Nat.lt_of_lt_of_le hi.2 (step_mono hi.1 hs).1⟩, (rank_step hi.1 hs hi.2).1⟩
  have hfair (m : Nat) (hm : n ≤ m) (hpos : 0 < (b.state m).rank t) :
      ∃ k, m ≤ k ∧ (b.state (k + 1)).rank t < (b.state k).rank t := by
    have hne : (b.state m).calls t ≠ none := fun hc => hpos.ne' (rank_of_over hc)
    obtain ⟨k, hmk, e, he, hwakes⟩ := hb m t hne
    have hlt' : t < (b.state k).nextCall :=
      Nat.lt_of_lt_of_le hlt (session_mono b (Nat.le_trans hm hmk)).1
    exact ⟨k, hmk, (rank_step (session_inv b k).1 (b.step_of_event he) hlt').2
      (actor_of_wakes hwakes)⟩
  obtain ⟨k, hk, hz⟩ := b.exhausted hdown hfair ⟨(session_inv b n).1, hlt⟩
  exact ⟨k, hk, over_of_rank hz⟩

/-- A suspended call is ended by the returns of its backend calls only. -/
theorem returns_of_over (b : Session) (hne : (b.state n).calls t ≠ none) (hle : n ≤ k)
    (hk : (b.state k).calls t = none) :
    ∃ m, n ≤ m ∧ ∃ e, b.event m = some e ∧ e.wakes = some t := by
  induction hle with
  | refl => exact absurd hk hne
  | @step k hle ih =>
    by_cases hover : (b.state k).calls t = none
    · exact ih hover
    · rcases b.next_cases k with hsame | ⟨e, he, hs⟩
      · rw [hsame] at hk
        exact absurd hk hover
      · obtain ⟨ho, -⟩ := session_inv b k
        have hact : (b.state k).actor e = some t := by
          by_contra hact
          exact hover ((Apart.step ho hs hact).calls.symm.trans hk)
        have hlt := ho.call_lt hover
        refine ⟨k, hle, e, he, ?_⟩
        cases e with
        | handle | close => exact absurd (Option.some.inj hact ▸ hlt) (Nat.lt_irrefl _)
        | created | dialed | shutDown | listed | expiry => exact hact
        | state => cases hact

/-- Each request is answered once, with its id; and once a disconnect, or a `connect` with an error,
is answered, no state event of the generation that it ended is queued. -/
structure AnswersOnce (b : Session) : Prop where
  answered : ∀ {n envelope route}, b.event n = some (.handle envelope route) →
    ∃ m k, m.id? = some envelope.id ∧ n ≤ k ∧
      (∀ i ≤ k, (b.state i).answers (b.state n).nextCall = []) ∧
      ∀ i > k, (b.state i).answers (b.state n).nextCall = [m]
  disconnected : ∀ {n id route k m g}, b.event n = some (.handle ⟨id, .disconnect⟩ route) →
    g ≤ (b.state n).inner.generation → Queues b k (b.state n).nextCall m → SilentFrom b (k + 1) g
  failed : ∀ {n id request route c g k m},
    b.event n = some (.handle ⟨id, .connect request⟩ route) →
    (b.state (n + 1)).calls (b.state n).nextCall = some c → c.generation? = some g →
    Queues b k (b.state n).nextCall m → m.isError = true → SilentFrom b (k + 1) g

theorem answered_of_returns (b : Session) (hb : EveryCallReturns b)
    (he : b.event n = some (.handle envelope route)) :
    ∃ m k, m.id? = some envelope.id ∧ n ≤ k ∧
      (∀ i ≤ k, (b.state i).answers (b.state n).nextCall = []) ∧
      ∀ i > k, (b.state i).answers (b.state n).nextCall = [m] := by
  have hlt : (b.state n).nextCall < (b.state (n + 1)).nextCall :=
    nextCall_handle (b.step_of_event he)
  obtain ⟨K, hnK, hover⟩ := over_eventually b hb hlt
  have hex : ∃ i, (b.state i).answers (b.state n).nextCall ≠ [] := by
    refine ⟨K, fun hnil => ?_⟩
    cases owed_after b he hnK with
    | pending c hc _ _ => cases hover.symm.trans hc
    | answered m _ h => cases h.answers.symm.trans hnil
  -- The first instant after which there is an answer.
  classical
  have hfirst := Nat.find_spec hex
  obtain ⟨k, hk⟩ : ∃ k, Nat.find hex = k + 1 := by
    refine Nat.exists_eq_succ_of_ne_zero fun hz => ?_
    rw [hz] at hfirst
    exact hfirst (answers_before b (Nat.zero_le n))
  have hbefore : ∀ i ≤ k, (b.state i).answers (b.state n).nextCall = [] := fun i hi =>
    not_not.mp (Nat.find_min hex (hk ▸ Nat.lt_succ_of_le hi))
  rw [hk] at hfirst
  have hnk : n ≤ k := by
    by_contra hlt'
    exact hfirst (answers_before b (Nat.succ_le_of_lt (Nat.lt_of_not_le hlt')))
  cases owed_after b he (Nat.lt_succ_of_le hnk) with
  | pending c _ _ hq => exact absurd hq hfirst
  | answered m hm h =>
    refine ⟨m, k, hm, hnk, hbefore, fun i hi => ?_⟩
    have hkeep := b.invariant_from (n := k + 1)
      (I := fun s => OwnInv none s ∧ s.Answered (b.state n).nextCall m)
      (fun hi hs => ⟨hi.1.step hs, hi.2.step hi.1 hs⟩) ⟨(session_inv b (k + 1)).1, h⟩ hi
    exact hkeep.2.answers

theorem lapsed_of_error (b : Session) (hc : (b.state (n + 1)).calls t = some c)
    (hg : c.generation? = some g) (hle : n ≤ k) (h : Queues b k t m) (hm : m.isError = true) :
    g < (b.state (k + 1)).inner.generation := by
  have hi := b.invariant_from (n := n + 1)
    (I := fun s => (OwnInv none s ∧ QuietInv s) ∧ Lapses s t g)
    (fun hi hs => ⟨⟨hi.1.1.step hs, hi.1.2.step hi.1.1 hs⟩, hi.2.step hi.1.1 hi.1.2 hs⟩)
    ⟨session_inv b (n + 1), .begun c hc hg⟩ (Nat.succ_le_succ hle)
  have hsent : (some t, m) ∈ (b.state (k + 1)).outbox := by
    rw [h]
    exact List.mem_append_right _ (List.mem_singleton.mpr rfl)
  cases hi.2 with
  | begun c' hc' _ =>
    rcases hi.1.2.suspended t with hnone | hquiet
    · cases hnone.symm.trans hc'
    · exact absurd hsent (hquiet m)
  | lapsed hlt => exact hlt
  | settled _ _ hno => cases hm.symm.trans (hno m (mem_answers.mpr hsent))

/-- Whatever the order of requests, of state events and of the returns of backend calls. -/
theorem answers_once (b : Session) (hb : EveryCallReturns b) : AnswersOnce b where
  answered he := answered_of_returns b hb he
  disconnected {n id route k m g} he hg hq := by
    obtain ⟨-, hgen, -⟩ := step_cancels rfl (b.step_of_event he)
    have hle : n ≤ k := le_of_queues b hq
    refine silent_of_lt b ?_
    have hmono : (b.state (n + 1)).inner.generation ≤ (b.state (k + 1)).inner.generation :=
      (session_mono b (Nat.succ_le_succ hle)).2
    omega
  failed _ hc hg hq hm := silent_of_lt b (lapsed_of_error b hc hg (le_of_queues b hq) hq hm)

/-- A tunnel is being dialed when a disconnect lands; then the dial fails. -/
def overtakenSession : Session :=
  .ofList (overtakenConnect ++
    [.dialed 0 (.error { code := .transport, message := "unreachable" }), .shutDown 0]) ⟨_, rfl⟩

theorem answers_once_overtakenSession : EveryCallReturns overtakenSession ∧
    ((overtakenSession.state 5).answers 0).length = 1 ∧ AnswersOnce overtakenSession := by
  have hlast (n : Nat) (hn : 5 ≤ n) : overtakenSession.state n = overtakenSession.state 5 :=
    (replay_of_length_le rfl hn).trans (replay_of_length_le rfl (Nat.le_refl 5)).symm
  have hover (t : Nat) : (overtakenSession.state 5).calls t = none := by
    match t with
    | 0 => rfl
    | 1 => rfl
    | t + 2 => rfl
  have hreturns : EveryCallReturns overtakenSession := by
    intro n t hne
    have hle : n ≤ max n 5 := Nat.le_max_left ..
    refine returns_of_over overtakenSession hne hle ?_
    rw [hlast _ (Nat.le_max_right ..)]
    exact hover t
  exact ⟨hreturns, rfl, answers_once overtakenSession hreturns⟩

end HostSession

end WarrenSdk.NativeHost
