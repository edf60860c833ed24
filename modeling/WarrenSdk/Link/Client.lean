import WarrenSdk.Extension.Client.TunnelPort
import WarrenSdk.Link.Answers

/-!
# What a client makes of answers that fit

Every call of a client that waits for its host waits for the answer to a request of its own
(`asked`). Where what comes in answers the request with its number (`Fitting`), none of its calls
fails for the protocol (`Sound.blameless`), and the listener it holds is one that a host answered
with (`Sound.source`).
-/

namespace WarrenSdk.Link
open Lib Extension

/-- A failure that is none of the protocol's. -/
def Blameless : Failure → Prop
  | .extension e => e.code ≠ .protocol
  | .thrown => True

section
variable (api : ChromeLike)

/-- A `connect` answer that a host gave, with the listener that the browser needs. -/
structure Good (received : List (Nat × HostResponse)) (g : Granted) : Prop where
  heard : ∃ id auth, (g.port, .ok id (.connect g.endpoints auth g.exit)) ∈ received ∧
    listenerAuth auth = some g.auth
  http : api.platform = .chromium → g.endpoints.http.isSome = true

end

/-- How a posted request is settled. -/
def Settles (received : List (Nat × HostResponse)) (body : HostRequest) :
    Except Failure (Nat × ResponseBody) → Prop
  | .ok (p, b) => Fits body b ∧ ∃ id, (p, .ok id b) ∈ received
  | .error (.extension e) => e.code ≠ .protocol ∧ (body.type = "hello" → e.code ≠ .host)
  | .error .thrown => True

/-- What the call of a request resolves with. -/
def Resolves (received : List (Nat × HostResponse)) (body : HostRequest) : TaskResult → Prop
  | .ok (.answer p b) => Fits body b ∧ ∃ id, (p, .ok id b) ∈ received
  | .ok v => body.type = "hello" ∧ ∃ datapath, v = .datapath datapath
  | .error e => Blameless e

section
variable (api : ChromeLike)

/-- The request that a `connect` makes. -/
def connectBody (c : ConnectCall) : HostRequest :=
  .connect c.options.mnemonic c.options.selector c.options.entrySelector
    (if api.platform = .chromium then some true else c.options.httpProxy) c.options.daita
    c.options.device

def helloBody : HostRequest := .hello EXTENSION_PROTOCOL_VERSION api.channel

/-- The failure that a `connect` fails with in the end. -/
def failure? : ConnectAwait → Option Failure
  | .restoreSettings e _ | .releasePolicy e _ | .releasePrediction e _ => some e
  | _ => none

/-- What is known of a suspended call `t`; `asked` has the request of each call that makes one. -/
inductive Awaits (asked : Nat → Option HostRequest) (sent : List (Nat × Nat × HostRequest))
    (received : List (Nat × HostResponse)) (t : Nat) : Task → Prop
  | hello (h : asked t = some (helloBody api)) (hm : (p, m, helloBody api) ∈ sent) :
    Awaits asked sent received t (.hello m)
  | requestHandshake (h : asked t = some body) (hne : body.type ≠ "hello") :
    Awaits asked sent received t (.requestHandshake body n)
  | requestAnswer (h : asked t = some body) (hm : (p, m, body) ∈ sent) :
    Awaits asked sent received t (.requestAnswer m)
  | asking (h : asked t = none) (hr : asked r = some (q.body.getD (helloBody api))) :
    Awaits asked sent received t (.asking q r)
  | connect (h : asked t = none) (hr : ∀ r, a = .request r → asked r = some (connectBody api c))
      (hg : ∀ g, a.granted = some g → Good api received g)
      (he : ∀ e, failure? a = some e → Blameless e) :
    Awaits asked sent received t (.connect c a)
  | other (h : asked t = none) (hrequest : x.isRequest = false) (hconnect : x.isConnect = false)
      (hasking : ∀ q r, x ≠ .asking q r) : Awaits asked sent received t x

/-- A client whose calls are answered by what they ask for; since `s₀` it has only posted. -/
structure Sound (s₀ : State) (asked : Nat → Option HostRequest) (s : State) : Prop where
  asked_lt : ∀ {t body}, asked t = some body → t < s.nextTask
  fresh : ∀ {t}, s.nextTask ≤ t → s.tasks t = none ∧ s.results t = none
  /-- The hello of the current port is one. -/
  greeting : ∀ {n}, s.handshake = some n → asked n = some (helloBody api)
  sent_lt : ∀ {p m body}, (p, m, body) ∈ s.sent → m < s.nextId
  one : ∀ {p p' m body body'}, (p, m, body) ∈ s.sent → (p', m, body') ∈ s.sent →
    p = p' ∧ body = body'
  version : ∀ {p m v channel}, (p, m, .hello v channel) ∈ s.sent → v = EXTENSION_PROTOCOL_VERSION
  /-- What is pending was posted on the port that is open. -/
  posted : ∀ {m}, m ∈ s.pending → ∃ p body, (p, m, body) ∈ s.sent ∧ s.On p
  settled : ∀ {p m body}, (p, m, body) ∈ s.sent → m ∉ s.pending → s.answers m ≠ none
  answers : ∀ {m r}, s.answers m = some r →
    ∃ p body, (p, m, body) ∈ s.sent ∧ Settles s.received body r
  awaits : ∀ {t x}, s.tasks t = some x → Awaits api asked s.sent s.received t x
  resolved : ∀ {t body r}, asked t = some body → s.results t = some r → Resolves s.received body r
  blameless : ∀ {t e}, s.results t = some (.error e) → Blameless e
  thrown : ∀ {n e}, s.browserResults n = some (.error e) → Blameless e
  source : ∀ {g}, s.source = some g → Good api s.received g
  http : api.platform = .chromium → ∀ {e}, s.endpoints = some e → e.http.isSome = true
  grown : s₀.sent ⊆ s.sent
  heard : s.received = s₀.received
  /-- What is answered stays so. -/
  kept : ∀ {m}, s₀.answers m ≠ none → s.answers m ≠ none

end

variable {api : ChromeLike} {asked asked' : Nat → Option HostRequest} {s₀ s s' : State} {t : Nat}
  {received received' : List (Nat × HostResponse)} {sent sent' : List (Nat × Nat × HostRequest)}
  {body : HostRequest} {g : Granted} {r : TaskResult} {x : Task} {native : Bool}

/-! ## More requests, and more answers -/

theorem Good.mono (h : Good api received g) (hr : received ⊆ received') : Good api received' g where
  heard := by
    obtain ⟨id, auth, hmem, hauth⟩ := h.heard
    exact ⟨id, auth, hr hmem, hauth⟩
  http := h.http

theorem Settles.mono {r : Except Failure (Nat × ResponseBody)} (h : Settles received body r)
    (hr : received ⊆ received') : Settles received' body r := by
  cases r with
  | ok v => exact ⟨h.1, h.2.imp fun _ hmem => hr hmem⟩
  | error e => cases e <;> exact h

theorem Resolves.mono (h : Resolves received body r) (hr : received ⊆ received') :
    Resolves received' body r := by
  cases r with
  | ok v =>
    cases v with
    | answer p b => exact ⟨h.1, h.2.imp fun _ hmem => hr hmem⟩
    | _ => exact h
  | error e => exact h

theorem Awaits.mono (h : Awaits api asked sent received t x) (ha : ∀ {t b}, asked t = some b →
    asked' t = some b) (ht : asked t = none → asked' t = none) (hs : sent ⊆ sent')
    (hr : received ⊆ received') : Awaits api asked' sent' received' t x := by
  cases h with
  | hello h hm => exact .hello (ha h) (hs hm)
  | requestHandshake h hne => exact .requestHandshake (ha h) hne
  | requestAnswer h hm => exact .requestAnswer (ha h) (hs hm)
  | asking h hr => exact .asking (ht h) (ha hr)
  | connect h hreq hg he =>
    exact .connect (ht h) (fun r heq => ha (hreq r heq)) (fun g heq => (hg g heq).mono hr) he
  | other h hrequest hconnect hasking => exact .other (ht h) hrequest hconnect hasking

/-- What resolves other than a hello is an answer that fits. -/
theorem Resolves.answer {v : TaskValue} (h : Resolves received body (.ok v))
    (hne : body.type ≠ "hello") :
    ∃ p b, v = .answer p b ∧ Fits body b ∧ ∃ id, (p, .ok id b) ∈ received := by
  cases v with
  | answer p b => exact ⟨p, b, rfl, h⟩
  | _ => exact absurd h.1 hne

/-! ## Parts that say nothing -/

/-- What `Sound` speaks of, but for the port. -/
def hostView (s : State) :=
  (s.nextTask, s.handshake, s.nextId, s.sent, s.received, s.pending, s.answers, s.tasks, s.results,
    s.source, s.endpoints, s.browserResults)

def soundView (s : State) := (hostView s, s.port, s.portDead)

/-- Another port, if nothing is pending. -/
theorem Sound.move (h : Sound api s₀ asked s) (hv : hostView s' = hostView s)
    (hport : ∀ m ∈ s.pending, ∀ p, s.On p → s'.On p) : Sound api s₀ asked s' := by
  simp only [hostView, Prod.mk.injEq] at hv
  obtain ⟨hn, hh, hid, hs, hr, hp, ha, ht, hres, hsrc, he, hb⟩ := hv
  constructor
  · rw [hn]
    exact h.asked_lt
  · rw [hn, ht, hres]
    exact h.fresh
  · rw [hh]
    exact h.greeting
  · rw [hs, hid]
    exact h.sent_lt
  · rw [hs]
    exact h.one
  · rw [hs]
    exact h.version
  · rw [hp, hs]
    intro m hm
    obtain ⟨p, body, hsent, hon⟩ := h.posted hm
    exact ⟨p, body, hsent, hport m hm p hon⟩
  · rw [hs, hp, ha]
    exact h.settled
  · rw [ha, hs, hr]
    exact h.answers
  · rw [ht, hs, hr]
    exact h.awaits
  · rw [hres, hr]
    exact h.resolved
  · rw [hres]
    exact h.blameless
  · rw [hb]
    exact h.thrown
  · rw [hsrc, hr]
    exact h.source
  · rw [he]
    exact h.http
  · rw [hs]
    exact h.grown
  · rw [hr]
    exact h.heard
  · rw [ha]
    exact h.kept

theorem Sound.frame (h : Sound api s₀ asked s) (hv : soundView s' = soundView s) :
    Sound api s₀ asked s' := by
  obtain ⟨hview, hrest⟩ := Prod.mk.inj hv
  obtain ⟨hport, hdead⟩ := Prod.mk.inj hrest
  exact h.move hview fun _ _ p hon => ⟨hport.trans hon.1, hdead.trans hon.2⟩

theorem Sound.settle (h : Sound api s₀ asked s) (hlt : t < s.nextTask)
    (hr : ∀ body, asked t = some body → Resolves s.received body r)
    (he : ∀ e, r = .error e → Blameless e) : Sound api s₀ asked (s.settle t r) :=
  { h with
    fresh := by
      intro u hu
      have hsame : (s.settle t r).results u = s.results u :=
        Function.update_of_ne (Nat.ne_of_gt (Nat.lt_of_lt_of_le hlt hu)) ..
      exact ⟨(h.fresh hu).1, hsame.trans (h.fresh hu).2⟩
    resolved := by
      intro u body r' hu hres
      rcases eq_or_ne u t with rfl | hne
      · have hself : (s.settle u r).results u = some r := Function.update_self ..
        cases hself.symm.trans hres
        exact hr body hu
      · exact h.resolved hu ((Function.update_of_ne hne ..).symm.trans hres)
    blameless := by
      intro u e hres
      rcases eq_or_ne u t with rfl | hne
      · have hself : (s.settle u r).results u = some r := Function.update_self ..
        exact he e (Option.some.inj (hself.symm.trans hres))
      · exact h.blameless ((Function.update_of_ne hne ..).symm.trans hres) }

theorem Sound.settle_error {e : Failure} (h : Sound api s₀ asked s) (hlt : t < s.nextTask)
    (he : Blameless e) : Sound api s₀ asked (s.settle t (.error e)) :=
  h.settle hlt (fun _ _ => he) fun _ heq => by
    cases heq
    exact he

theorem Sound.suspend (h : Sound api s₀ asked s) (hlt : t < s.nextTask)
    (hx : Awaits api asked s.sent s.received t x) :
    Sound api s₀ asked (s.suspend t x) :=
  { h with
    fresh := by
      intro u hu
      have hsame : (s.suspend t x).tasks u = s.tasks u :=
        Function.update_of_ne (Nat.ne_of_gt (Nat.lt_of_lt_of_le hlt hu)) ..
      exact ⟨hsame.trans (h.fresh hu).1, (h.fresh hu).2⟩
    awaits := by
      intro u y hu
      rcases eq_or_ne u t with rfl | hne
      · have hself : (s.suspend u x).tasks u = some x := Function.update_self ..
        cases hself.symm.trans hu
        exact hx
      · exact h.awaits ((Function.update_of_ne hne ..).symm.trans hu) }

/-- The client as it is now. -/
theorem Sound.rebase (h : Sound api s₀ asked s) : Sound api s asked s :=
  { h with
    grown := List.Subset.refl _
    heard := rfl
    kept := id }

theorem Sound.wake (h : Sound api s₀ asked s) : Sound api s₀ asked (s.wake t) :=
  { h with
    fresh := by
      intro u hu
      refine ⟨?_, (h.fresh hu).2⟩
      rcases eq_or_ne u t with rfl | hne
      · exact Function.update_self ..
      · have hsame : (s.wake t).tasks u = s.tasks u := Function.update_of_ne hne ..
        exact hsame.trans (h.fresh hu).1
    awaits := by
      intro u y hu
      rcases eq_or_ne u t with rfl | hne
      · have hself : (s.wake u).tasks u = none := Function.update_self ..
        cases hself.symm.trans hu
      · have hsame : (s.wake t).tasks u = s.tasks u := Function.update_of_ne hne ..
        exact h.awaits (hsame.symm.trans hu) }

theorem Sound.answer_blameless {n : Nat} {r : BrowserResult} (h : Sound api s₀ asked s)
    (hn : s.browserResults n = some r) : ∀ e, r = .error e → Blameless e := fun _ heq =>
  h.thrown (hn.trans (congrArg some heq))

theorem Sound.resolved_blameless {n : Nat} {r : TaskResult} (h : Sound api s₀ asked s)
    (hn : s.results n = some r) : ∀ e, r = .error e → Blameless e := fun _ heq =>
  h.blameless (hn.trans (congrArg some heq))

/-! ## Talking to the host -/

theorem hostUnavailable_blameless (message : String) :
    Blameless (.of .hostUnavailable message) := by
  simp [Blameless, Failure.of]

theorem Sound.rejectPending (h : Sound api s₀ asked s) (message : String) :
    Sound api s₀ asked (s.rejectPending message) :=
  { h with
    posted := fun hm => (List.not_mem_nil hm).elim
    answers := by
      intro m r hm
      dsimp only [State.rejectPending] at hm
      split at hm
      · next hpending =>
        obtain ⟨p, body, hsent, -⟩ := h.posted hpending
        cases hm
        exact ⟨p, body, hsent, by simp [Settles, Failure.of]⟩
      · exact h.answers hm
    settled := by
      intro p m body hsent _
      dsimp only [State.rejectPending]
      split
      · exact Option.some_ne_none _
      · next hpending => exact h.settled hsent hpending
    kept := by
      intro m hm
      dsimp only [State.rejectPending]
      split
      · exact Option.some_ne_none _
      · exact h.kept hm }

theorem Sound.closePort (h : Sound api s₀ asked s) : Sound api s₀ asked s.closePort :=
  (h.rejectPending "native messaging host closed").move rfl fun _ hm => (List.not_mem_nil hm).elim

theorem openPort_on (ho : s.openPort native = .ok s') : s'.On (s'.port.getD 0) := by
  unfold State.openPort at ho
  split at ho
  · next hopen =>
    cases ho
    obtain ⟨hport, hdead⟩ := (Bool.and_eq_true ..).mp hopen
    obtain ⟨p, hp⟩ := Option.isSome_iff_exists.mp hport
    exact ⟨by rw [hp, Option.getD_some], (Bool.not_eq_true' _).mp hdead⟩
  · split at ho
    · cases ho
      exact ⟨rfl, rfl⟩
    · cases ho

theorem Sound.openPort (h : Sound api s₀ asked s) (ho : s.openPort native = .ok s') :
    Sound api s₀ asked s' ∧ s'.nextTask = s.nextTask ∧ s'.nextId = s.nextId := by
  unfold State.openPort at ho
  split at ho
  · cases ho
    exact ⟨h, rfl, rfl⟩
  · next hclosed =>
    have hidle {m : Nat} (hm : m ∈ s.pending) : False := by
      obtain ⟨p, -, -, hport, hdead⟩ := h.posted hm
      exact hclosed (by rw [State.portOpen, hport, hdead]; rfl)
    split at ho
    · cases ho
      exact ⟨{ h with
        greeting := fun hn => by cases hn
        posted := fun hm => (hidle hm).elim }, rfl, rfl⟩
    · cases ho

theorem openPort_blameless {e : Failure} (ho : s.openPort native = .error e) : Blameless e := by
  unfold State.openPort at ho
  split at ho
  · cases ho
  · split at ho
    · cases ho
    · cases ho
      exact hostUnavailable_blameless _

/-- A message is posted under a number of its own. -/
theorem Sound.send (h : Sound api s₀ asked s) (hs : s.send native body = .ok s')
    (hversion : ∀ v channel, body = .hello v channel → v = EXTENSION_PROTOCOL_VERSION) :
    Sound api s₀ asked s' ∧ s'.nextTask = s.nextTask ∧ ∃ p, (p, s.nextId, body) ∈ s'.sent := by
  unfold State.send at hs
  split at hs
  · cases hs
  · next u ho =>
    obtain ⟨hu, hn, hid⟩ := h.openPort ho
    cases hs
    refine ⟨?_, hn, u.port.getD 0, ?_⟩
    · have hfresh {p : Nat} {b : HostRequest} (hmem : (p, u.nextId, b) ∈ u.sent) : False :=
        Nat.lt_irrefl _ (hu.sent_lt hmem)
      have hmem {p m : Nat} {b : HostRequest}
          (hb : (p, m, b) ∈ u.sent ++ [(u.port.getD 0, u.nextId, body)]) :
          (p, m, b) ∈ u.sent ∨ p = u.port.getD 0 ∧ m = u.nextId ∧ b = body := by
        simpa using hb
      have hold : u.sent ⊆ u.sent ++ [(u.port.getD 0, u.nextId, body)] :=
        List.subset_append_left ..
      exact {
        hu with
        sent_lt := by
          intro p m b hb
          rcases hmem hb with hb | ⟨-, rfl, -⟩
          · exact Nat.lt_succ_of_lt (hu.sent_lt hb)
          · exact Nat.lt_succ_self _
        one := by
          intro p p' m b b' hb hb'
          rcases hmem hb with hold | ⟨hp, hm, hbody⟩
          · rcases hmem hb' with hold' | ⟨-, hm', -⟩
            · exact hu.one hold hold'
            · exact (hfresh (hm' ▸ hold)).elim
          · rcases hmem hb' with hold' | ⟨hp', -, hbody'⟩
            · exact (hfresh (hm ▸ hold')).elim
            · exact ⟨hp.trans hp'.symm, hbody.trans hbody'.symm⟩
        version := by
          intro p m v channel hb
          rcases hmem hb with hb | ⟨-, -, hb⟩
          · exact hu.version hb
          · exact hversion v channel hb.symm
        posted := by
          intro m hm
          rcases List.mem_append.mp hm with hm | hm
          · obtain ⟨p, b, hb, hon⟩ := hu.posted hm
            exact ⟨p, b, hold hb, hon⟩
          · rw [List.mem_singleton.mp hm]
            have hon := openPort_on ho
            exact ⟨_, body, List.mem_append_right _ (List.mem_singleton_self _), hon⟩
        settled := by
          intro p m b hb hm
          rcases hmem hb with hb | ⟨-, rfl, -⟩
          · exact hu.settled hb fun hpending => hm (List.mem_append_left _ hpending)
          · exact absurd (List.mem_append_right _ (List.mem_singleton_self _)) hm
        answers := by
          intro m r hm
          obtain ⟨p, b, hb, hr⟩ := hu.answers hm
          exact ⟨p, b, hold hb, hr⟩
        awaits := fun ht => (hu.awaits ht).mono id id hold (List.Subset.refl _)
        grown := fun _ hb => hold (hu.grown hb) }
    · rw [← hid]
      exact List.mem_append_right _ (List.mem_singleton_self _)

theorem send_blameless {e : Failure} (hs : s.send native body = .error e) : Blameless e := by
  unfold State.send at hs
  split at hs
  · next ho =>
    cases hs
    exact openPort_blameless ho
  · cases hs

theorem Sound.asked_next (h : Sound api s₀ asked s) : asked s.nextTask = none := by
  by_contra hne
  obtain ⟨b, hb⟩ := Option.ne_none_iff_exists'.mp hne
  exact Nat.lt_irrefl _ (h.asked_lt hb)

/-- A call is numbered. -/
theorem Sound.number (h : Sound api s₀ asked s) :
    Sound api s₀ asked { s with nextTask := s.nextTask + 1 } :=
  { h with
    asked_lt := fun ht => Nat.lt_succ_of_lt (h.asked_lt ht)
    fresh := fun ht => h.fresh (Nat.le_of_succ_le ht) }

/-- A call is numbered that makes a request. -/
theorem Sound.ask (h : Sound api s₀ asked s) (body : HostRequest) :
    Sound api s₀ (Function.update asked s.nextTask (some body))
      { s with nextTask := s.nextTask + 1 } := by
  have hold {t : Nat} {b : HostRequest} (ht : asked t = some b) :
      Function.update asked s.nextTask (some body) t = some b :=
    (Function.update_of_ne (Nat.ne_of_lt (h.asked_lt ht)) ..).trans ht
  exact {
    h with
    asked_lt := by
      intro t b ht
      rcases eq_or_ne t s.nextTask with rfl | hne
      · exact Nat.lt_succ_self _
      · rw [Function.update_of_ne hne] at ht
        exact Nat.lt_succ_of_lt (h.asked_lt ht)
    fresh := fun ht => h.fresh (Nat.le_of_succ_le ht)
    greeting := fun hn => hold (h.greeting hn)
    awaits := by
      intro t x ht
      have hne : t ≠ s.nextTask := by
        rintro rfl
        cases (h.fresh (Nat.le_refl _)).1.symm.trans ht
      refine (h.awaits ht).mono hold (fun hnone => ?_) (List.Subset.refl _) (List.Subset.refl _)
      exact (Function.update_of_ne hne ..).trans hnone
    resolved := by
      intro t b r ht hr
      rcases eq_or_ne t s.nextTask with rfl | hne
      · cases (h.fresh (Nat.le_refl _)).2.symm.trans hr
      · rw [Function.update_of_ne hne] at ht
        exact h.resolved ht hr }

/-- The requests of the calls that were numbered before `n` are those they were. -/
def Agrees (n : Nat) (asked asked' : Nat → Option HostRequest) : Prop :=
  ∀ t < n, asked' t = asked t

theorem agrees_update (n : Nat) (v : Option HostRequest) :
    Agrees n asked (Function.update asked n v) := fun _ hlt =>
  Function.update_of_ne (Nat.ne_of_lt hlt) ..

/-- Every request waits for the hello of its port. -/
theorem Sound.shakeHands (h : Sound api s₀ asked s) (native : Bool) :
    ∃ asked', Agrees s.nextTask asked asked' ∧ Sound api s₀ asked' (s.shakeHands api native).2 ∧
    s.nextTask ≤ (s.shakeHands api native).2.nextTask ∧
    asked' (s.shakeHands api native).1 = some (helloBody api) := by
  unfold State.shakeHands
  split
  · next n hn => exact ⟨asked, fun _ _ => rfl, h, Nat.le_refl _, h.greeting hn⟩
  · have hself : Function.update asked s.nextTask (some (helloBody api)) s.nextTask =
        some (helloBody api) := Function.update_self ..
    have hbegun : Sound api s₀ (Function.update asked s.nextTask (some (helloBody api)))
        { s with nextTask := s.nextTask + 1, handshake := some s.nextTask } :=
      { h.ask (helloBody api) with
        greeting := fun hn => by
          cases hn
          exact hself }
    refine ⟨_, agrees_update s.nextTask (some (helloBody api)), ?_⟩
    dsimp only
    split
    · next hs =>
      exact ⟨hbegun.settle_error (Nat.lt_succ_self _) (send_blameless hs), Nat.le_succ _, hself⟩
    · next u hs =>
      obtain ⟨hsent, hn, p, hmem⟩ := hbegun.send hs fun v channel heq => by cases heq; rfl
      have hlt : s.nextTask < u.nextTask := hn ▸ Nat.lt_succ_self _
      exact ⟨hsent.suspend hlt (.hello hself hmem), Nat.le_of_lt hlt, hself⟩

/-- A request is made, as the call numbered next. -/
theorem Sound.request (h : Sound api s₀ asked s) (native : Bool) (hne : body.type ≠ "hello") :
    ∃ asked', Agrees s.nextTask asked asked' ∧ Sound api s₀ asked' (s.request api native body) ∧
      s.nextTask < (s.request api native body).nextTask ∧
      asked' s.nextTask = some body := by
  have hself : Function.update asked s.nextTask (some body) s.nextTask = some body :=
    Function.update_self ..
  have hbegun := h.ask body
  unfold State.request
  dsimp only
  split
  · next ho =>
    have hsettled := hbegun.settle_error (Nat.lt_succ_self _) (openPort_blameless ho)
    exact ⟨_, agrees_update s.nextTask (some body), hsettled, Nat.lt_succ_self _, hself⟩
  · next u ho =>
    obtain ⟨hopen, hn, -⟩ := hbegun.openPort ho
    obtain ⟨asked', hagrees, hshaken, hle, -⟩ := hopen.shakeHands native
    have hlt : s.nextTask < u.nextTask := hn ▸ Nat.lt_succ_self _
    have hbody : asked' s.nextTask = some body := (hagrees _ hlt).trans hself
    refine ⟨asked', fun t ht => ?_, ?_, Nat.lt_of_lt_of_le hlt hle, hbody⟩
    · exact (hagrees t (Nat.lt_trans ht hlt)).trans (agrees_update _ (some body) t ht)
    · exact hshaken.suspend (Nat.lt_of_lt_of_le hlt hle) (.requestHandshake hbody hne)

end WarrenSdk.Link
