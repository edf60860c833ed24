import WarrenSdk.NativeHost.Serve

/-!
# What an event of the loop does

`Moves` lists what `hostStep` can do, so that an invariant is checked once for each of them. The
calls of the session are those of the requests that were polled, and the one that closes it
(`Calls`).
-/

namespace WarrenSdk.NativeHost
open Lib

/-! ## The moves of the loop -/

section
variable (N : Spelling) (C : Crates) {σ : Type} (R : Reader σ Wire.IoError)

inductive Moves (s : Host σ) : Host σ → Prop
  | read (hreading : s.reading = true) (h : Wire.readFrame R s.reader = (frame, reader)) :
    Moves s
      { s with reader, queue := s.queue ++ [frame], reading := Frame.isPayload frame }
  | take (hphase : s.phase = .serving) (hqueue : s.queue = frame :: queue) :
    Moves s ({ s with queue }.take C frame)
  | leave (hphase : s.phase = .serving)
      (h : exit = .signalled ∨ exit = .endOfStream ∧ s.queue = [] ∧ s.reading = false) :
    Moves s (s.leave exit)
  | poll {request : Nat} (hpolls : s.polls = true) (hfresh : s.fresh[request]? = some envelope)
      (hstep : step s.session (.handle envelope route) = some session) :
    Moves s
      { s with
        session
        fresh := s.fresh.eraseIdx request
        begun := s.begun ++ [(s.session.nextCall, envelope)] }
  | session (hphase : s.phase ≠ .ended) (hstep : step s.session e = some session)
      (hwakes : ∀ t, s.session.actor e = some t → s.polls = true ∧ e.wakes = some t) :
    Moves s { s with session }
  | closed (hphase : s.phase = .closing t) (hstep : step s.session (.shutDown t) = some session) :
    Moves s { s with session, phase := .draining }
  | drained (hphase : s.phase = .draining) (hidle : s.idle = true) :
    Moves s { s with phase := .flushing }
  | drainOver (hphase : s.phase = .draining) :
    Moves s { s with phase := .flushing, overrun := true }
  | write (hwriting : s.writing = true) (hphase : s.phase ≠ .ended)
      (h : s.messages[s.taken]? = some message) : Moves s (s.write N message broken)
  | finish (hphase : s.phase = .flushing)
      (h : s.writing = false ∨ s.taken = s.messages.length) : Moves s { s with phase := .ended }

end

variable {N : Spelling} {C : Crates} {σ : Type} {R : Reader σ Wire.IoError} {s s' : Host σ}

theorem moves_of_resume {e : Event} (h : s.resume e = some s')
    (hwakes : ∀ t, s.session.actor e = some t → e.wakes = some t) : Moves N C R s s' := by
  unfold Host.resume at h
  split at h
  next hpolls =>
    obtain ⟨session, hstep, rfl⟩ := Option.map_eq_some_iff.mp h
    have hphase : s.phase ≠ .ended := by
      intro hphase
      rw [Host.polls, hphase] at hpolls
      cases hpolls
    exact .session hphase hstep fun t ht => ⟨hpolls, hwakes t ht⟩
  next => cases h

/-- A call goes on, or a tunnel reports. -/
theorem moves_of_session {e : Event} (h : hostStep N C R s (.session e) = some s') :
    Moves N C R s s' := by
  cases e with
  | handle | close => cases h
  | created | dialed | listed | expiry => exact moves_of_resume h fun _ ht => ht
  | state generation state =>
    simp only [hostStep] at h
    split at h
    next => cases h
    next hphase =>
      cases h
      have hstep : step s.session (.state generation state) =
        some (s.session.stateSink generation state) := rfl
      exact .session hphase hstep fun t ht => by cases ht
  | shutDown t =>
    simp only [hostStep] at h
    split at h
    next hphase =>
      obtain ⟨session, hstep, rfl⟩ := Option.map_eq_some_iff.mp h
      exact .closed hphase hstep
    next => exact moves_of_resume h fun _ ht => ht

theorem moves_of_step (h : hostStep N C R s e = some s') : Moves N C R s s' := by
  cases e with
  | session event => exact moves_of_session h
  | read =>
    simp only [hostStep] at h
    split at h
    next hread =>
      cases h
      exact .read hread.1 rfl
    next => cases h
  | receive =>
    simp only [hostStep] at h
    split at h
    next hphase =>
      split at h
      next frame queue hqueue =>
        cases h
        exact .take hphase hqueue
      next hqueue =>
        split at h
        next => cases h
        next hreading =>
          cases h
          exact .leave hphase (.inr ⟨rfl, hqueue, Bool.not_eq_true _ ▸ hreading⟩)
    next => cases h
  | poll request route =>
    simp only [hostStep] at h
    split at h
    next hpolls =>
      obtain ⟨envelope, hfresh, rfl⟩ := Option.map_eq_some_iff.mp h
      exact .poll hpolls hfresh rfl
    next => cases h
  | stop =>
    simp only [hostStep] at h
    split at h
    next hphase =>
      cases h
      exact .leave hphase (.inl rfl)
    next => cases h
  | drained =>
    simp only [hostStep] at h
    split at h
    next hdrained =>
      cases h
      exact .drained hdrained.1 hdrained.2
    next => cases h
  | drainOver =>
    simp only [hostStep] at h
    split at h
    next hphase =>
      cases h
      exact .drainOver hphase
    next => cases h
  | write broken =>
    simp only [hostStep] at h
    split at h
    next hwriting =>
      obtain ⟨message, hmessage, rfl⟩ := Option.map_eq_some_iff.mp h
      exact .write hwriting.1 hwriting.2 hmessage
    next => cases h
  | finish =>
    simp only [hostStep] at h
    split at h
    next hfinish =>
      cases h
      exact .finish hfinish.1 hfinish.2
    next => cases h

/-! ## The calls of the session -/

namespace HostSession

variable {s s' : HostSession} {e : Event}

/-- An event queues at most one message: under the call it is a part of, or a state event. -/
theorem outbox_of_step (ho : OwnInv none s) (hs : NativeHost.step s e = some s') :
    s'.outbox = s.outbox ∨
      ∃ m, s'.outbox = s.outbox ++ [(s.actor e, m)] ∧ (s.actor e = none → m.id? = none) := by
  cases hact : s.actor e with
  | none =>
    cases e <;> cases hact
    cases hs
    unfold HostSession.stateSink
    split
    · exact .inl rfl
    · exact .inr ⟨_, rfl, fun _ => rfl⟩
  | some t =>
    have hpart : ∃ owed k, Part t owed k s s' := by
      rcases part_of_step ho hs hact with ⟨-, _, _, -, h⟩ | ⟨-, -, h⟩ | ⟨c, -, h⟩
      · exact ⟨_, _, h⟩
      · exact ⟨_, _, h⟩
      · exact ⟨_, _, h⟩
    obtain ⟨_, _, h⟩ := hpart
    cases h with
    | suspended c hc ho hk hq => exact .inl hq
    | answered m hc ho hq => exact .inr ⟨m, hq, nofun⟩
    | silent hc ho hq => exact .inl hq

/-- The calls of a session are those begun for a request, each of which is owed its answer, and the
one that closes it. -/
structure Calls (session : HostSession) (begun : List (Nat × Envelope)) (closer : Option Nat) :
    Prop where
  own : OwnInv none session
  quiet : QuietInv session
  nodup : (begun.map Prod.fst).Nodup
  owed : ∀ p ∈ begun, p.1 < session.nextCall ∧ Owed session p.1 p.2.id
  suspended : ∀ t, session.calls t ≠ none →
    t ∈ begun.map Prod.fst ∨ closer = some t ∧ session.calls t = some .closing
  tagged : ∀ t m, (some t, m) ∈ session.outbox → t ∈ begun.map Prod.fst
  reports : ∀ m, (none, m) ∈ session.outbox → m.id? = none

namespace Calls
variable {begun : List (Nat × Envelope)} {closer : Option Nat}

theorem new : Calls {} [] none where
  own := .new
  quiet := .new
  nodup := List.nodup_nil
  owed := List.forall_mem_nil _
  suspended := fun _ h => absurd rfl h
  tagged := fun _ _ h => (List.not_mem_nil h).elim
  reports := fun _ h => (List.not_mem_nil h).elim

theorem owed_step (h : Calls s begun closer) (hs : NativeHost.step s e = some s') :
    ∀ p ∈ begun, p.1 < s'.nextCall ∧ Owed s' p.1 p.2.id := by
  intro p hp
  obtain ⟨hlt, howed⟩ := h.owed p hp
  exact ⟨Nat.lt_of_lt_of_le hlt (step_mono h.own hs).1, howed.step h.own hs⟩

/-- What is queued afterwards is queued under a call of `begun'`, if what the event queues is. -/
theorem outbox_step {begun' : List (Nat × Envelope)} (h : Calls s begun closer)
    (hs : NativeHost.step s e = some s') (hsub : begun <+: begun')
    (hactor : ∀ t, s.actor e = some t → t ∈ begun'.map Prod.fst) :
    (∀ t m, (some t, m) ∈ s'.outbox → t ∈ begun'.map Prod.fst) ∧
      ∀ m, (none, m) ∈ s'.outbox → m.id? = none := by
  have hold (t : Nat) (m : Message) (hm : (some t, m) ∈ s.outbox) : t ∈ begun'.map Prod.fst :=
    (hsub.map Prod.fst).subset (h.tagged t m hm)
  rcases outbox_of_step h.own hs with hq | ⟨m', hq, hreport⟩
  · rw [hq]
    exact ⟨hold, h.reports⟩
  · rw [hq]
    constructor
    · intro t m hm
      rcases List.mem_append.mp hm with hm | hm
      · exact hold t m hm
      · obtain ⟨hact, rfl⟩ := Prod.mk.inj (List.mem_singleton.mp hm)
        exact hactor t hact.symm
    · intro m hm
      rcases List.mem_append.mp hm with hm | hm
      · exact h.reports m hm
      · obtain ⟨hact, rfl⟩ := Prod.mk.inj (List.mem_singleton.mp hm)
        exact hreport hact.symm

/-- A request in flight goes on, or a tunnel reports. -/
theorem resume (h : Calls s begun closer) (hs : NativeHost.step s e = some s')
    (hwakes : ∀ t, s.actor e = some t → closer = none ∧ e.wakes = some t) :
    Calls s' begun closer := by
  have hold (t : Nat) (ht : s.actor e = some t) : t ∈ begun.map Prod.fst := by
    obtain ⟨rfl, hw⟩ := hwakes t ht
    rcases part_of_step h.own hs ht with ⟨-, _, _, rfl, -⟩ | ⟨-, rfl, -⟩ | ⟨c, hc, -⟩
    · cases hw
    · cases hw
    · exact (h.suspended t (by rw [hc]; nofun)).resolve_right fun hclosing => by cases hclosing.1
  obtain ⟨htagged, hreports⟩ := h.outbox_step hs (List.prefix_refl _) hold
  refine ⟨h.own.step hs, h.quiet.step h.own hs, h.nodup, h.owed_step hs, ?_, htagged, hreports⟩
  intro t ht
  by_cases hact : s.actor e = some t
  · exact .inl (hold t hact)
  · rw [(Apart.step h.own hs hact).calls] at ht ⊢
    exact h.suspended t ht

theorem handle (h : Calls s begun none)
    (hs : NativeHost.step s (.handle envelope route) = some s') :
    Calls s' (begun ++ [(s.nextCall, envelope)]) none := by
  have hnew : s.nextCall ∉ begun.map Prod.fst := by
    intro hmem
    obtain ⟨p, hp, heq⟩ := List.mem_map.mp hmem
    exact absurd (h.owed p hp).1 (heq ▸ Nat.lt_irrefl _)
  have hmem {t : Nat} : t ∈ (begun ++ [(s.nextCall, envelope)]).map Prod.fst ↔
      t ∈ begun.map Prod.fst ∨ t = s.nextCall := by
    rw [List.map_append, List.mem_append]
    exact or_congr_right List.mem_singleton
  obtain ⟨htagged, hreports⟩ := h.outbox_step hs (List.prefix_append ..) fun t ht =>
    hmem.mpr (.inr (Option.some.inj ht).symm)
  refine ⟨h.own.step hs, h.quiet.step h.own hs, ?_, ?_, ?_, htagged, hreports⟩
  · rw [List.map_append]
    refine List.nodup_append.mpr ⟨h.nodup, by simp, fun t ht t' ht' heq => ?_⟩
    rw [heq, List.mem_singleton.mp ht'] at ht
    exact hnew ht
  · intro p hp
    rcases List.mem_append.mp hp with hp | hp
    · exact h.owed_step hs p hp
    · rw [List.mem_singleton.mp hp]
      exact ⟨nextCall_handle hs, .handle h.own h.quiet hs⟩
  · intro t ht
    by_cases hact : t = s.nextCall
    · exact .inl (hmem.mpr (.inr hact))
    · have hactor : s.actor (.handle envelope route) ≠ some t := fun heq =>
        hact (Option.some.inj heq).symm
      rw [(Apart.step h.own hs hactor).calls] at ht
      exact (h.suspended t ht).imp (fun hb => hmem.mpr (.inl hb)) fun hclosing => by
        cases hclosing.1

theorem calls_close (hfree : s.calls t = none) :
    (s.close t).calls t = none ∨ (s.close t).calls t = some .closing := by
  unfold HostSession.close HostSession.teardown
  simp only
  cases s.inner.tunnel with
  | none => exact .inl hfree
  | some n => exact .inr (Function.update_self ..)

theorem outbox_close : (s.close t).outbox = s.outbox := by
  unfold HostSession.close HostSession.teardown
  simp only
  cases s.inner.tunnel with
  | none => rfl
  | some n => rfl

/-- The session is closed by a call of its own. -/
theorem close (h : Calls s begun none) (hs : NativeHost.step s .close = some s') :
    Calls s' begun (some s.nextCall) := by
  have hout : s'.outbox = s.outbox := by
    cases hs
    exact outbox_close
  have hnew : s'.calls s.nextCall = none ∨ s'.calls s.nextCall = some .closing := by
    cases hs
    refine calls_close ?_
    by_contra hc
    exact Nat.lt_irrefl _ (h.own.call_lt hc)
  refine ⟨h.own.step hs, h.quiet.step h.own hs, h.nodup, h.owed_step hs, ?_, ?_, ?_⟩
  · intro t ht
    by_cases hact : t = s.nextCall
    · subst hact
      exact .inr ⟨rfl, hnew.resolve_left ht⟩
    · have hactor : s.actor .close ≠ some t := fun heq => hact (Option.some.inj heq).symm
      rw [(Apart.step h.own hs hactor).calls] at ht
      exact .inl ((h.suspended t ht).resolve_right fun hclosing => by cases hclosing.1)
  · rw [hout]
    exact h.tagged
  · rw [hout]
    exact h.reports

/-- The call that closes the session is over. -/
theorem closed (h : Calls s begun closer) (hover : ∀ t, closer = some t → s.calls t = none) :
    Calls s begun none :=
  { h with
    suspended := by
      intro t ht
      refine .inl ((h.suspended t ht).resolve_right fun hclosing => ?_)
      exact ht (hover t hclosing.1) }

theorem shutDown (h : Calls s begun (some t)) (hclosing : s.calls t = some .closing)
    (hs : NativeHost.step s (.shutDown t) = some s') : Calls s' begun none := by
  have heq : s' = s.wake t := by
    simp only [NativeHost.step, hclosing] at hs
    exact (Option.some.inj hs).symm
  have hcalls : s'.calls t = none := by
    rw [heq]
    exact Function.update_self ..
  have hs' : Calls s' begun (some t) := by
    refine ⟨h.own.step hs, h.quiet.step h.own hs, h.nodup, h.owed_step hs, ?_, ?_, ?_⟩
    · intro t' ht'
      have hne : t' ≠ t := fun heq => ht' (heq ▸ hcalls)
      have hactor : s.actor (.shutDown t) ≠ some t' := fun hact => hne (Option.some.inj hact).symm
      rw [(Apart.step h.own hs hactor).calls] at ht' ⊢
      exact h.suspended t' ht'
    · rw [heq]
      exact h.tagged
    · rw [heq]
      exact h.reports
  exact hs'.closed fun t' ht' => Option.some.inj ht' ▸ hcalls

end Calls

end HostSession

end WarrenSdk.NativeHost
