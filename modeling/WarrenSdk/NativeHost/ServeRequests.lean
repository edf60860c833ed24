import Mathlib.Data.List.Perm.Basic
import WarrenSdk.NativeHost.ServeSteps

/-!
# The requests of a connection

Each request that the loop took is polled once, and is then owed the answer of its call
(`Requests`). Once the loop is left the session is closed, and when the drain ends in time no call
is left.
-/

namespace WarrenSdk.NativeHost
open Lib

/-- Only a number is the id of a request. -/
theorem id_of_decodeRequest {C : Crates} (h : decodeRequest C payload = .request envelope) :
    ∃ q, envelope.id = .number q := by
  cases hread : C.read payload with
  | none =>
    rw [decodeRequest_of_corrupt hread] at h
    cases h
  | some document =>
    by_cases hobject : ∃ members, document = .object members
    · obtain ⟨members, rfl⟩ := hobject
      rcases decodeRequest_object hread with ⟨id, request, -, hdecoded⟩ | ⟨-, hdecoded⟩
      · rw [hdecoded, answer] at h
        split at h
        next id hid =>
          cases h
          obtain ⟨-, hnumber⟩ := Option.filter_eq_some_iff.mp hid
          cases id with
          | number q => exact ⟨q, rfl⟩
          | string s => cases hnumber
          | other => cases hnumber
        next => cases h
      · rw [hdecoded] at h
        cases h
    · rw [decodeRequest_of_not_object hread fun members heq => hobject ⟨members, heq⟩] at h
      cases h

/-- The call that closes the session, while the loop waits for it. -/
def Phase.closer : Phase → Option Nat
  | .closing closer => some closer
  | .serving | .draining | .flushing | .ended => none

namespace Host
variable {N : Spelling} {C : Crates} {σ : Type} {R : Reader σ Wire.IoError} {s s' : Host σ}

structure Requests (s : Host σ) : Prop where
  calls : s.session.Calls s.begun s.phase.closer
  received : s.received.Perm (s.begun.map Prod.snd ++ s.fresh)
  numbered : ∀ envelope ∈ s.received, ∃ q, envelope.id = .number q
  closing : ∀ t, s.phase = .closing t → s.session.calls t = some .closing
  closed : s.phase ≠ .serving → s.session.inner.closed = true
  settled : s.phase = .flushing ∨ s.phase = .ended → s.overrun = false →
    s.fresh = [] ∧ ∀ t, s.session.calls t = none

theorem closer_of_polls (h : s.polls = true) : s.phase.closer = none := by
  unfold polls at h
  split at h
  next hphase => rw [hphase]; rfl
  next hphase => rw [hphase]; rfl
  all_goals cases h

theorem Requests.calls_at (h : Requests s) (hphase : s.phase = p) :
    s.session.Calls s.begun p.closer := hphase ▸ h.calls

theorem Requests.new (reader : σ) : Requests { reader } where
  calls := .new
  received := .refl _
  numbered := List.forall_mem_nil _
  closing := nofun
  closed := fun h => absurd rfl h
  settled := nofun

theorem Requests.leave (h : Requests s) (hphase : s.phase = .serving) (exit : HostExit) :
    Requests (s.leave exit) := by
  have hcalls := h.calls_at hphase
  have hclose : HostSession.Calls ({ s.session with nextCall := s.session.nextCall + 1 }.close
      s.session.nextCall) _ (some s.session.nextCall) := hcalls.close rfl
  unfold Host.leave
  simp only
  split
  next hsome =>
    obtain ⟨c, hc⟩ := Option.isSome_iff_exists.mp hsome
    refine ⟨hclose, h.received, h.numbered, ?_, fun _ => HostSession.closed_close .., nofun⟩
    intro t ht
    cases ht
    rcases hclose.suspended _ (by rw [hc]; nofun) with hbegun | hclosing
    · obtain ⟨p, hp, heq⟩ := List.mem_map.mp hbegun
      exact absurd (hcalls.owed p hp).1 (heq ▸ Nat.lt_irrefl _)
    · exact hclosing.2
  next hnone =>
    refine ⟨hclose.closed ?_, h.received, h.numbered, nofun, fun _ => HostSession.closed_close ..,
      nofun⟩
    intro t ht
    cases ht
    exact Option.not_isSome_iff_eq_none.mp hnone

/-- A call of the session goes on in a phase that stays. -/
theorem Requests.session (h : Requests s) (hphase : s.phase ≠ .ended)
    (hstep : step s.session e = some u)
    (hwakes : ∀ t, s.session.actor e = some t → s.polls = true ∧ e.wakes = some t) :
    Requests { s with session := u } := by
  have hsame (t : Nat) (hp : s.polls = false) : u.calls t = s.session.calls t := by
    refine (HostSession.Apart.step h.calls.own hstep fun hact => ?_).calls
    rw [(hwakes t hact).1] at hp
    cases hp
  constructor
  · exact h.calls.resume hstep fun t ht => ⟨closer_of_polls (hwakes t ht).1, (hwakes t ht).2⟩
  · exact h.received
  · exact h.numbered
  · intro t ht
    have hp : s.polls = false := by
      rw [polls, show s.phase = .closing t from ht]
    rw [hsame t hp]
    exact h.closing t ht
  · exact fun hne => HostSession.closed_step h.calls.own hstep (h.closed hne)
  · intro hover hnot
    have hp : s.polls = false := by
      have hflush : s.phase = .flushing := hover.resolve_right hphase
      rw [polls, hflush]
    obtain ⟨hfresh, hcalls⟩ := h.settled hover hnot
    exact ⟨hfresh, fun t => (hsame t hp).trans (hcalls t)⟩

theorem Requests.poll {request : Nat} (h : Requests s) (hpolls : s.polls = true)
    (hfresh : s.fresh[request]? = some envelope)
    (hstep : step s.session (.handle envelope route) = some u) :
    Requests
      { s with
        session := u
        fresh := s.fresh.eraseIdx request
        begun := s.begun ++ [(s.session.nextCall, envelope)] } := by
  have hcloser := closer_of_polls hpolls
  have hcalls : s.session.Calls s.begun none := hcloser ▸ h.calls
  constructor
  · have hhandle := hcalls.handle hstep
    rw [← hcloser] at hhandle
    exact hhandle
  · obtain ⟨hlt, hget⟩ := List.getElem?_eq_some_iff.mp hfresh
    have hperm := List.getElem_cons_eraseIdx_perm hlt
    rw [hget] at hperm
    simp only [List.map_append, List.map_cons, List.map_nil, List.append_assoc,
      List.singleton_append]
    exact h.received.trans (hperm.symm.append_left _)
  · exact h.numbered
  · intro t ht
    rw [polls, show s.phase = .closing t from ht] at hpolls
    cases hpolls
  · exact fun hne => HostSession.closed_step h.calls.own hstep (h.closed hne)
  · intro hover
    rcases hover with hover | hover
    · rw [polls, show s.phase = .flushing from hover] at hpolls
      cases hpolls
    · rw [polls, show s.phase = .ended from hover] at hpolls
      cases hpolls

theorem calls_of_idle (h : Requests s) (hidle : s.idle = true) (t : Nat) :
    s.session.calls t = none := by
  by_contra hne
  have hlt := h.calls.own.call_lt hne
  obtain ⟨-, hall⟩ := (Bool.and_eq_true ..).mp hidle
  have hnone := List.all_eq_true.mp hall t (List.mem_range.mpr hlt)
  exact hne (Option.isNone_iff_eq_none.mp hnone)

theorem Requests.take (h : Requests s) (hphase : s.phase = .serving) (frame : Frame) :
    Requests (s.take C frame) := by
  unfold Host.take
  split
  next payload =>
    split
    next envelope hdecoded =>
      refine ⟨h.calls, ?_, ?_, h.closing, h.closed, ?_⟩
      · rw [← List.append_assoc]
        exact h.received.append_right _
      · intro e he
        rcases List.mem_append.mp he with he | he
        · exact h.numbered e he
        · rw [List.mem_singleton.mp he]
          exact id_of_decodeRequest hdecoded
      · rw [hphase]
        nofun
    next => exact h
    next => exact h.leave hphase _
  next => exact h.leave hphase _
  next => exact h.leave hphase _

theorem write_eq (message : Message) (broken : Option Nat) (s : Host σ) :
    ∃ output writing, s.write N message broken =
      { s with taken := s.taken + 1, output, writing } := by
  unfold Host.write
  split
  · exact ⟨_, _, rfl⟩
  · exact ⟨_, _, rfl⟩
  · exact ⟨_, _, rfl⟩

theorem Requests.moves (h : Requests s) (hs : Moves N C R s s') : Requests s' := by
  cases hs with
  | read hreading hread => exact ⟨h.calls, h.received, h.numbered, h.closing, h.closed, h.settled⟩
  | @take frame queue hphase hqueue =>
    have hnext : Requests { s with queue } :=
      ⟨h.calls, h.received, h.numbered, h.closing, h.closed, h.settled⟩
    exact hnext.take hphase _
  | leave hphase hexit => exact h.leave hphase _
  | poll hpolls hfresh hstep => exact h.poll hpolls hfresh hstep
  | session hphase hstep hwakes => exact h.session hphase hstep hwakes
  | closed hphase hstep =>
    refine ⟨(h.calls_at hphase).shutDown (h.closing _ hphase) hstep, h.received, h.numbered, nofun,
      fun _ => ?_,
      nofun⟩
    exact HostSession.closed_step h.calls.own hstep (h.closed (by rw [hphase]; nofun))
  | drained hphase hidle =>
    have hcalls := h.calls_at hphase
    have hover := calls_of_idle h hidle
    refine ⟨hcalls, h.received, h.numbered, nofun,
      fun _ => h.closed (by rw [hphase]; nofun), ?_⟩
    intro _ _
    exact ⟨List.isEmpty_iff.mp ((Bool.and_eq_true ..).mp hidle).1, hover⟩
  | drainOver hphase =>
    have hcalls := h.calls_at hphase
    exact ⟨hcalls, h.received, h.numbered, nofun, fun _ => h.closed (by rw [hphase]; nofun),
      fun _ hnot => by cases hnot⟩
  | write hwriting hphase hmessage =>
    obtain ⟨output, writing, heq⟩ := write_eq (N := N) _ _ s
    rw [heq]
    exact ⟨h.calls, h.received, h.numbered, h.closing, h.closed, h.settled⟩
  | finish hphase hdone =>
    have hcalls := h.calls_at hphase
    exact ⟨hcalls, h.received, h.numbered, nofun, fun _ => h.closed (by rw [hphase]; nofun),
      fun _ => h.settled (.inl hphase)⟩

end Host

end WarrenSdk.NativeHost
