import WarrenSdk.Lib.Run
import WarrenSdk.Extension.Client.Aside
import WarrenSdk.Lib.LowerCase

/-!
# The tunnel and the port that carries it

What the client must never do is consider its tunnel up, or hand credentials out, over a port other
than the one whose connect answer they came from. `PortInv` is the invariant behind that; it is kept
by every part of every operation except where a loss of the host goes unseen: `assertHostAlive`
looks at `portDead`, which a port closed by the client or opened since does not leave set, and a
refused `hello` closes whatever port is current. `LossesSeen` says that neither happens, and
`tunnelOnItsPort_iff` that the runs without them are exactly the runs in which the tunnel and its
port agree throughout.
-/

namespace WarrenSdk.Extension
open Lib

/-- The connect answer an await of `connect` goes on with. -/
def ConnectAwait.granted : ConnectAwait → Option Granted
  | .hardenPolicy g _ | .hardenPrediction g _ | .applyProxy g _ | .verifyRouting g _ => some g
  | _ => none

/-- The connect answer whose credentials `connect` has stored at an await. -/
def ConnectAwait.stored : ConnectAwait → Option Granted
  | .applyProxy g _ | .verifyRouting g _ => some g
  | _ => none

theorem ConnectAwait.granted_of_stored {a : ConnectAwait} (h : a.stored = some g) :
    a.granted = some g := by
  cases a <;> first | exact h | cases h

/-- Whether a hello settled so is refused, which closes the port. -/
def helloRefused : Except Failure (Nat × ResponseBody) → Bool
  | .ok (_, .hello protocol _) => protocol ≠ EXTENSION_PROTOCOL_VERSION
  | .ok _ => true
  | .error (.extension e) => e.code = .host
  | .error .thrown => false

namespace State

/-- A host answered `body` on port `p`. -/
def Heard (s : State) (p : Nat) (body : ResponseBody) : Prop :=
  p < s.nextPort ∧ ∃ id, (p, .ok id body) ∈ s.received

/-- The host on `g.port` answered a connect with `g`'s endpoints and credentials. -/
def Answered (s : State) (g : Granted) : Prop :=
  ∃ auth, s.Heard g.port (.connect g.endpoints auth g.exit) ∧ listenerAuth auth = some g.auth

/-- The client holds `g`'s endpoints and credentials. -/
def Took (s : State) (g : Granted) : Prop :=
  s.source = some g ∧ s.endpoints = some g.endpoints ∧ s.auth = some g.auth

/-- The client's port is `p`, and it does not know it dead. -/
def On (s : State) (p : Nat) : Prop := s.port = some p ∧ s.portDead = false

/-- The agreement of the tunnel with its port: while the tunnel is up the current port is open and
is the one whose connect answer gave the endpoints and credentials held, and credentials are handed
out only for a listener of that answer, while that port is open. -/
structure TunnelOnItsPort (s : State) : Prop where
  tunnel : s.tunnelUp = true →
    ∃ g, s.Took g ∧ s.Answered g ∧ s.On g.port ∧ s.live g.port = true
  listener : ∀ {listener auth}, s.forListener listener = some auth →
    ∃ g, s.source = some g ∧ s.Answered g ∧ s.On g.port ∧ s.live g.port = true ∧ auth = g.auth ∧
      (listener = g.endpoints.socks5 ∨ g.endpoints.http = some listener)

/-- A `connect` is running: it is in flight, and suspended nowhere. -/
structure Running (s : State) : Prop where
  connecting : s.connecting = true
  alone : ∀ t c a, s.tasks t ≠ some (.connect c a)

/-- What is known of a `connect` at the await `a`: the answer it goes on with is a host's, the
credentials held are that answer's once it has stored them, and before that there are none. -/
structure Admits (s : State) (a : ConnectAwait) : Prop where
  answered : ∀ {g}, a.granted = some g → s.Answered g
  took : ∀ {g}, a.stored = some g → s.On g.port ∨ s.auth ≠ none → s.Took g
  noAuth : a.stored = none → s.auth = none

/-- The calls that can be suspended now: a `connect` only by the one that runs. -/
def Fits (s : State) : Task → Prop
  | .connect _ a => s.Running ∧ s.Admits a
  | _ => True

structure PortInv (s : State) : Prop where
  live : ∀ {p}, s.live p = true ↔ s.On p
  port_lt : ∀ {p}, s.port = some p → p < s.nextPort
  connecting : ∀ {t c a}, s.tasks t = some (.connect c a) → s.connecting = true
  unique : ∀ {t t' c c' a a'}, s.tasks t = some (.connect c a) →
    s.tasks t' = some (.connect c' a') → t = t'
  admits : ∀ {t c a}, s.tasks t = some (.connect c a) → s.Admits a
  answers : ∀ {m p b}, s.answers m = some (.ok (p, b)) → s.Heard p b
  results : ∀ {r p b}, s.results r = some (.ok (.answer p b)) → s.Heard p b
  held : s.auth ≠ none → ∃ g, s.Took g ∧ s.Answered g ∧ s.On g.port
  up : s.tunnelUp = true → s.auth ≠ none
  down : s.connecting = true → s.tunnelUp = false
  owner : s.auth ≠ none → s.tunnelUp = true ∨ s.connecting = true

variable {s s' : State}

/-! ## Agreement from the invariant -/

theorem PortInv.tunnelOnItsPort (h : PortInv s) : TunnelOnItsPort s where
  tunnel hu := by
    obtain ⟨g, ht, ha, ho⟩ := h.held (h.up hu)
    exact ⟨g, ht, ha, ho, h.live.mpr ho⟩
  listener {listener auth} hl := by
    have hauth : s.auth ≠ none := by
      intro hn
      simp [forListener, hn] at hl
    obtain ⟨g, ⟨hs, he, ha⟩, hans, ho⟩ := h.held hauth
    simp only [forListener, ha, he] at hl
    split at hl
    · next hc =>
      cases hl
      exact ⟨g, hs, hans, ho, h.live.mpr ho, rfl, hc.symm⟩
    · cases hl

theorem PortInv.portOpen_of_auth (h : PortInv s) (ha : s.auth ≠ none) : s.portOpen = true := by
  obtain ⟨g, -, -, hp, hd⟩ := h.held ha
  simp [portOpen, hp, hd]

theorem PortInv.auth_of_not_portOpen (h : PortInv s) (ho : s.portOpen = false) :
    s.auth = none := by
  by_contra ha
  simp [h.portOpen_of_auth ha] at ho

theorem PortInv.auth_of_idle (h : PortInv s) (hu : s.tunnelUp = false)
    (hc : s.connecting = false) : s.auth = none := by
  by_contra ha
  rcases h.owner ha with h' | h' <;> simp_all

theorem Heard.mono (h : s.Heard p b) (hn : s.nextPort ≤ s'.nextPort)
    (hr : ∀ x ∈ s.received, x ∈ s'.received) : s'.Heard p b :=
  ⟨Nat.lt_of_lt_of_le h.1 hn, h.2.imp fun _ => hr _⟩

theorem Answered.mono (h : s.Answered g) (hn : s.nextPort ≤ s'.nextPort)
    (hr : ∀ x ∈ s.received, x ∈ s'.received) : s'.Answered g :=
  h.imp fun _ ⟨hh, ha⟩ => ⟨hh.mono hn hr, ha⟩

/-- Before anything is stored, an await asks for an answer and for no credentials held. -/
theorem Admits.of_noAuth (hg : ∀ {g}, a.granted = some g → Answered s g)
    (ha : s.auth = none) (hs : a.stored = none) : s.Admits a where
  answered := hg
  took h := by rw [hs] at h; cases h
  noAuth _ := ha

/-! ## Parts that leave the tunnel alone -/

/-- What `PortInv` speaks of. -/
def portView (s : State) :=
  (s.port, s.portDead, s.live, s.nextPort, s.received, s.tunnelUp, s.endpoints, s.auth, s.source,
    s.connecting, s.tasks, s.answers, s.results)

theorem Admits.frame (h : Admits s a) (hv : s'.portView = s.portView) : s'.Admits a := by
  simp only [portView, Prod.mk.injEq] at hv
  obtain ⟨hp, hd, -, hn, hr, -, he, ha, hs, -⟩ := hv
  constructor
  · intro g
    simp only [Answered, Heard, hn, hr]
    exact h.answered
  · intro g
    simp only [On, Took, hp, hd, he, ha, hs]
    exact h.took
  · rw [ha]; exact h.noAuth

theorem Running.frame (h : Running s) (hv : s'.portView = s.portView) : Running s' := by
  simp only [portView, Prod.mk.injEq] at hv
  obtain ⟨-, -, -, -, -, -, -, -, -, hc, ht, -⟩ := hv
  exact ⟨hc.trans h.connecting, ht ▸ h.alone⟩

theorem Fits.frame (h : Fits s x) (hv : s'.portView = s.portView) : s'.Fits x := by
  cases x with
  | connect c a => exact ⟨h.1.frame hv, h.2.frame hv⟩
  | _ => trivial

theorem PortInv.frame (h : PortInv s) (hv : s'.portView = s.portView) : PortInv s' := by
  have hadm : ∀ {a}, s.Admits a → s'.Admits a := fun ha => ha.frame hv
  simp only [portView, Prod.mk.injEq] at hv
  obtain ⟨hp, hd, hl, hn, hr, hu, he, ha, hs, hc, ht, hm, hres⟩ := hv
  have hon : ∀ p, s'.On p = s.On p := fun p => by simp only [On, hp, hd]
  have hheard : ∀ p b, s'.Heard p b = s.Heard p b := fun p b => by simp only [Heard, hn, hr]
  have hans : ∀ g, s'.Answered g = s.Answered g := fun g => by simp only [Answered, hheard]
  have htook : ∀ g, s'.Took g = s.Took g := fun g => by simp only [Took, hs, he, ha]
  constructor
  · intro p; rw [hl, hon]; exact h.live
  · rw [hp, hn]; exact h.port_lt
  · rw [ht, hc]; exact h.connecting
  · rw [ht]; exact h.unique
  · rw [ht]; exact fun h' => hadm (h.admits h')
  · intro m p b; rw [hm, hheard]; exact h.answers
  · intro r p b; rw [hres, hheard]; exact h.results
  · rw [ha]; simp only [htook, hans, hon]; exact h.held
  · rw [hu, ha]; exact h.up
  · rw [hc, hu]; exact h.down
  · rw [ha, hu, hc]; exact h.owner

/-! ## Calls in flight -/

/-- `PortInv` does not mind calls that leave, nor calls that fit. -/
theorem PortInv.setTasks (h : PortInv s)
    (hsub : ∀ {t c a}, f t = some (.connect c a) → s.tasks t = some (.connect c a) ∨
      ((∀ t' c' a', f t' = some (.connect c' a') → t' = t) ∧ s.connecting = true ∧ s.Admits a)) :
    PortInv { s with tasks := f } :=
  { h with
    connecting := fun ht => (hsub ht).elim h.connecting (·.2.1)
    unique := by
      intro t t' c c' a a' ht ht'
      rcases hsub ht with h1 | h1
      · rcases hsub ht' with h2 | h2
        · exact h.unique h1 h2
        · exact h2.1 _ _ _ ht
      · exact (h1.1 _ _ _ ht').symm
    admits := fun ht => by
      rcases hsub ht with h1 | h1
      · exact { h.admits h1 with }
      · exact { h1.2.2 with } }

theorem PortInv.wake (h : PortInv s) : PortInv (s.wake t) := by
  refine h.setTasks fun {t' c a} ht => .inl ?_
  simp only [Function.update_apply] at ht
  split at ht
  · cases ht
  · exact ht

/-- A connect that is woken runs alone. -/
theorem PortInv.wake_running (h : PortInv s) (ht : s.tasks t = some (.connect c a)) :
    Running (s.wake t) where
  connecting := h.connecting ht
  alone t' c' a' ht' := by
    simp only [State.wake, Function.update_apply] at ht'
    split at ht'
    · cases ht'
    · next hne => exact hne (h.unique ht' ht)

theorem PortInv.settle (h : PortInv s) (hr : ∀ p b, r = .ok (.answer p b) → s.Heard p b) :
    PortInv (s.settle t r) :=
  { h with
    results := by
      intro r' p b hb
      simp only [State.settle, Function.update_apply] at hb
      split at hb
      · exact hr p b (Option.some.inj hb)
      · exact h.results hb
    admits := fun ht => { h.admits ht with } }

theorem PortInv.settle_error (h : PortInv s) : PortInv (s.settle t (.error e)) :=
  h.settle fun _ _ hr => by cases hr

theorem PortInv.suspend (h : PortInv s) (hx : s.Fits x) : PortInv (s.suspend t x) := by
  refine h.setTasks fun {t' c a} ht => ?_
  simp only [Function.update_apply] at ht
  split at ht
  · next he =>
    cases ht
    refine .inr ⟨fun t'' c' a' ht'' => ?_, hx.1.connecting, hx.2⟩
    simp only [Function.update_apply] at ht''
    split at ht''
    · next he' => exact he'.trans he.symm
    · exact absurd ht'' (hx.1.alone _ _ _)
  · exact .inl ht

theorem PortInv.awaitCall (h : PortInv s) (hx : ∀ n, s.Fits (task n)) :
    PortInv (s.awaitCall t call task) :=
  (h.suspend (t := t) (hx s.calls.length)).frame rfl

theorem PortInv.awaitSettled (h : PortInv s) (hx : ∀ n, s.Fits (task n)) :
    PortInv (s.awaitSettled t r task) :=
  (h.suspend (t := t) (hx s.calls.length)).frame rfl

theorem PortInv.awaitOptional (h : PortInv s) (hx : ∀ n, s.Fits (task n)) :
    PortInv (s.awaitOptional has t call task) := by
  unfold State.awaitOptional
  split
  · exact h.awaitCall hx
  · exact h.awaitSettled hx

/-! ## Ports -/

theorem PortInv.closePort_live (h : PortInv s) : s.closePort.live p = false := by
  by_contra hp
  simp only [State.closePort, State.rejectPending, Bool.not_eq_false] at hp
  split at hp
  · simp only [Bool.and_eq_true, Bool.not_eq_true', beq_eq_false_iff_ne] at hp
    exact hp.2 (h.live.mp hp.1).1
  · next ho =>
    obtain ⟨h1, h2⟩ := h.live.mp hp
    simp [portOpen, h1, h2] at ho

/-- Losing the port is harmless when the tunnel and the credentials go with it. -/
theorem PortInv.lost (h : PortInv s) (hl : ∀ p, s'.live p = false) (hon : ∀ p, ¬ s'.On p)
    (hp : ∀ p, s'.port = some p → s.port = some p) (ha : s'.auth = none)
    (hu : s'.tunnelUp = false) (hc : s'.connecting = s.connecting) (ht : s'.tasks = s.tasks)
    (hm : ∀ {m x}, s'.answers m = some (.ok x) → s.answers m = some (.ok x))
    (hres : s'.results = s.results) (hn : s'.nextPort = s.nextPort)
    (hr : s'.received = s.received) : PortInv s' := by
  have hheard : ∀ p b, s'.Heard p b = s.Heard p b := fun p b => by simp only [Heard, hn, hr]
  have hans : ∀ g, s'.Answered g = s.Answered g := fun g => by simp only [Answered, hheard]
  exact {
    live := fun {p} => ⟨fun h' => (by rw [hl] at h'; cases h'), fun h' => absurd h' (hon p)⟩
    port_lt := fun h' => by rw [hn]; exact h.port_lt (hp _ h')
    connecting := fun h' => by rw [hc]; exact h.connecting (ht ▸ h')
    unique := fun h₁ h₂ => h.unique (ht ▸ h₁) (ht ▸ h₂)
    admits := fun {t c a} h' =>
      { answered := fun {g} hg => by
          rw [hans]; exact (h.admits (ht ▸ h')).answered hg
        took := fun _ ho => ho.elim (absurd · (hon _)) (absurd ha)
        noAuth := fun _ => ha }
    answers := fun h' => by rw [hheard]; exact h.answers (hm h')
    results := fun h' => by rw [hheard]; exact h.results (hres ▸ h')
    held := fun h' => absurd ha h'
    up := fun h' => by rw [hu] at h'; cases h'
    down := fun _ => hu
    owner := fun h' => absurd ha h' }

theorem rejectPending_answers (hm : (rejectPending message s).answers m = some (.ok x)) :
    s.answers m = some (.ok x) := by
  simp only [State.rejectPending] at hm
  split at hm
  · cases hm
  · exact hm

theorem PortInv.closePort (h : PortInv s) (ha : s.auth = none) : PortInv s.closePort := by
  have hu : s.tunnelUp = false := by
    by_contra hu
    exact h.up (by simpa using hu) ha
  exact h.lost (fun _ => h.closePort_live) (fun p hp => by cases hp.1) (fun p hp => by cases hp)
    ha hu rfl rfl rejectPending_answers rfl rfl rfl

/-- A fresh port is opened only when none is open, so when no credentials are held. -/
theorem PortInv.openPort (h : PortInv s) (ho : s.openPort native = .ok s') : PortInv s' := by
  unfold State.openPort at ho
  split at ho
  · cases ho; exact h
  next hclosed =>
  simp only [Bool.not_eq_true] at hclosed
  have ha : s.auth = none := h.auth_of_not_portOpen hclosed
  split at ho
  · cases ho
    have hn : ∀ p, s.live p = true → False := fun p hp => by
      obtain ⟨h1, h2⟩ := h.live.mp hp
      simp [portOpen, h1, h2] at hclosed
    have hheard : ∀ {p b}, s.Heard p b → p ≠ s.nextPort := fun hh => Nat.ne_of_lt hh.1
    exact {
      live := by
        intro p
        simp only [Function.update_apply, On, Option.some.injEq, and_true]
        split
        · next hp => simp [hp]
        · next hp => exact ⟨fun hl => (hn p hl).elim, fun he => absurd he.symm hp⟩
      port_lt := fun hp => by cases hp; exact Nat.lt_succ_self _
      connecting := h.connecting
      unique := h.unique
      admits := fun {t c a} ht =>
        { answered := fun hg => ((h.admits ht).answered hg).mono (Nat.le_succ _) fun _ hx => hx
          took := fun {g} hs hp => by
            obtain ⟨_, hh, -⟩ := (h.admits ht).answered (ConnectAwait.granted_of_stored hs)
            exact hp.elim (fun hp => absurd (Option.some.inj hp.1).symm (hheard hh)) (absurd ha)
          noAuth := fun _ => ha }
      answers := fun hm => (h.answers hm).mono (Nat.le_succ _) fun _ hx => hx
      results := fun hr => (h.results hr).mono (Nat.le_succ _) fun _ hx => hx
      held := fun hn => absurd ha hn
      up := h.up
      down := h.down
      owner := h.owner }
  · cases ho

theorem PortInv.send (h : PortInv s) (hs : s.send native body = .ok s') : PortInv s' := by
  unfold State.send at hs
  split at hs
  · cases hs
  · next ho =>
    cases hs
    exact (h.openPort ho).frame rfl

variable {api : ChromeLike}

theorem PortInv.shakeHands (h : PortInv s) : PortInv (s.shakeHands api native).2 := by
  unfold State.shakeHands
  split
  · exact h
  · have h' : PortInv { s with nextTask := s.nextTask + 1, handshake := some s.nextTask } :=
      h.frame rfl
    simp only
    split
    · exact h'.settle_error
    · next hs => exact (h'.send hs).suspend trivial

theorem PortInv.request (h : PortInv s) : PortInv (s.request api native body) := by
  have h' : PortInv { s with nextTask := s.nextTask + 1 } := h.frame rfl
  unfold State.request
  simp only
  split
  · exact h'.settle_error
  · next ho => exact (h'.openPort ho).shakeHands.suspend trivial

/-- Talking to the host suspends no `connect`. -/
theorem Running.aside (h : Running s) (ha : Aside s s') : Running s' where
  connecting := ha.connecting.trans h.connecting
  alone t c a ht := h.alone t c a (ha.tasks_of ht rfl)

theorem PortInv.requestHandshakeDone (h : PortInv s) :
    PortInv (s.requestHandshakeDone t native body r) := by
  unfold State.requestHandshakeDone
  split
  · exact h.settle_error
  · split
    · exact h.settle_error
    · next hs => exact (h.send hs).suspend trivial

/-- Nothing but a refusal of the hello touches the tunnel. -/
theorem PortInv.helloAnswered (h : PortInv s) (hr : helloRefused r = true → s.auth = none) :
    PortInv (s.helloAnswered t r) := by
  have hrefused {e} (hx : helloRefused r = true) : PortInv (s.closePort.settle t (.error e)) :=
    (h.closePort (hr hx)).settle_error
  unfold State.helloAnswered
  split
  · split
    · exact h.settle fun _ _ hx => by cases hx
    · next hp => exact hrefused (by simpa [helloRefused] using hp)
  · next hb =>
    refine hrefused ?_
    unfold helloRefused
    split <;> simp_all
  · split
    · next hc => exact hrefused (by simpa [helloRefused] using hc)
    · exact h.settle_error
  · exact h.settle_error

/-! ## Questions -/

theorem PortInv.finishAsking (h : PortInv s) (hr : ∀ p b, r = .ok (.answer p b) → s.Heard p b) :
    PortInv (s.finishAsking t q r) := by
  have h' : PortInv { s with questions := s.questions - 1 } := h.frame rfl
  have hans p b (hq : q.result r = .ok (.answer p b)) : s.Heard p b :=
    hr p b ((Question.result_ok hq).resolve_right (by simp [TaskValue.isReport]))
  unfold State.finishAsking
  simp only
  split
  · next hidle => exact (h'.closePort (h.auth_of_idle hidle.2.1 hidle.2.2)).settle hans
  · exact h'.settle hans

theorem PortInv.askStart (h : PortInv s) : PortInv (s.askStart api t native q) := by
  have h' : PortInv { s with questions := s.questions + 1 } := h.frame rfl
  unfold State.askStart
  simp only
  split
  · split
    · exact h'.finishAsking fun _ _ hr => by cases hr
    · next ho => exact (h'.openPort ho).shakeHands.suspend trivial
  · exact h'.request.suspend trivial

/-! ## Routing -/

theorem PortInv.applyProxy {endpoints : ExtensionEndpoints} (h : PortInv s)
    (hx : ∀ n, s.Fits (task n)) :
    PortInv (s.applyProxy api t endpoints split task) := by
  unfold State.applyProxy
  split
  · have h' : PortInv (s.registerFirefoxOnRequest endpoints.socks5 split) := h.frame rfl
    have hx' : ∀ n, (s.registerFirefoxOnRequest endpoints.socks5 split).Fits (task n) :=
      fun n => (hx n).frame rfl
    simp only
    split
    · exact h'.awaitSettled hx'
    · exact h'.awaitCall hx'
  · split
    · exact h.awaitSettled hx
    · exact h.awaitCall hx

theorem PortInv.verifyRouting (h : PortInv s) (hx : ∀ n, s.Fits (task n)) :
    PortInv (s.verifyRouting api t split task) := by
  unfold State.verifyRouting
  split
  · exact h.awaitSettled hx
  · exact h.awaitOptional hx

theorem removeOnRequestHandler_portView : s.removeOnRequestHandler.portView = s.portView := by
  unfold State.removeOnRequestHandler
  split <;> rfl

/-! ## `connect` -/

/-- While it holds no credentials, a `connect` can be suspended where it goes on with no answer. -/
theorem Running.fits (hrun : Running s) (ha : s.auth = none) (hg : a.granted = none) :
    s.Fits (.connect c a) := by
  refine ⟨hrun, .of_noAuth (fun h => by rw [hg] at h; cases h) ha ?_⟩
  cases hs : a.stored with
  | none => rfl
  | some g => rw [ConnectAwait.granted_of_stored hs] at hg; cases hg

/-- The end of a `connect`: with no credentials left, or the tunnel up. -/
theorem PortInv.endConnect (h : PortInv s) (hrun : Running s)
    (ha : s.auth ≠ none → s.tunnelUp = true) : PortInv { s with connecting := false } :=
  { h with
    connecting := fun ht => absurd ht (hrun.alone _ _ _)
    admits := fun ht => absurd ht (hrun.alone _ _ _)
    down := fun hc => by cases hc
    owner := fun h' => .inl (ha h') }

theorem PortInv.connectFailed (h : PortInv s) (hrun : Running s) (ha : s.auth = none) :
    PortInv (s.connectFailed t c e) := by
  have h' : PortInv { s with onRequestHandler := c.heldHandler } := h.frame rfl
  exact ((h'.closePort ha).endConnect ⟨hrun.connecting, hrun.alone⟩ (absurd ha)).settle_error

/-- A running `connect` forgets what it stored. -/
theorem PortInv.forget (h : PortInv s) (hrun : Running s) :
    PortInv { s with endpoints := none, auth := none, source := none } :=
  { h with
    admits := fun ht => absurd ht (hrun.alone _ _ _)
    held := fun h' => absurd rfl h'
    up := fun hu => by
      rw [show s.tunnelUp = false from h.down hrun.connecting] at hu
      cases hu
    owner := fun h' => absurd rfl h' }

theorem PortInv.connectCatch (h : PortInv s) (hrun : Running s) :
    PortInv (s.connectCatch t c e) := by
  have h' := h.forget hrun
  have hrun' : Running { s with endpoints := none, auth := none, source := none } :=
    ⟨hrun.connecting, hrun.alone⟩
  unfold State.connectCatch
  simp only
  split
  · refine (h'.frame removeOnRequestHandler_portView).awaitCall fun n => ?_
    exact Fits.frame (hrun'.fits rfl rfl) removeOnRequestHandler_portView
  · exact h'.connectFailed hrun' rfl

theorem PortInv.connectRestored (h : PortInv s) (hrun : Running s) (ha : s.auth = none) :
    PortInv (s.connectRestored t c e r) := by
  unfold State.connectRestored
  split
  · exact h.connectFailed hrun ha
  · split
    · exact h.awaitCall fun _ => hrun.fits ha rfl
    · exact h.connectFailed hrun ha

theorem PortInv.connectPolicyReleased (h : PortInv s) (hrun : Running s) (ha : s.auth = none) :
    PortInv (s.connectPolicyReleased api t c e r) := by
  unfold State.connectPolicyReleased
  split
  · exact h.connectFailed hrun ha
  · exact h.awaitOptional fun _ => hrun.fits ha rfl

theorem PortInv.connectStart (h : PortInv s) : PortInv (s.connectStart api t options) := by
  unfold State.connectStart
  split
  · exact h.settle_error
  next hc =>
  split
  · exact h.settle_error
  next hu =>
  simp only [Bool.not_eq_true] at hc hu
  have halone : ∀ t c a, s.tasks t ≠ some (.connect c a) := fun t c a ht => by
    rw [h.connecting ht] at hc
    cases hc
  have h' : PortInv { s with connecting := true, onRequestHandler := none } :=
    { h with
      connecting := fun _ => rfl
      admits := fun ht => absurd ht (halone _ _ _)
      down := fun _ => hu
      owner := fun _ => .inr rfl }
  exact h'.awaitOptional fun _ => Running.fits ⟨rfl, halone⟩ (h.auth_of_idle hu hc) rfl

theorem PortInv.connectControlled (h : PortInv s) (hrun : Running s) (ha : s.auth = none) :
    PortInv (s.connectControlled api t c r) := by
  unfold State.connectControlled
  split
  · exact h.connectCatch hrun
  · exact h.awaitOptional fun _ => hrun.fits ha rfl

theorem PortInv.connectRequest (h : PortInv s) (hrun : Running s) (ha : s.auth = none) :
    PortInv (s.connectRequest api t native c) :=
  h.request.suspend ((hrun.aside request_aside).fits (request_aside.auth.trans ha) rfl)

theorem PortInv.connectLeaksKnown (h : PortInv s) (hrun : Running s) (ha : s.auth = none) :
    PortInv (s.connectLeaksKnown api t native c r) := by
  unfold State.connectLeaksKnown
  split
  · exact h.connectCatch hrun
  · simp only
    split
    · exact h.awaitOptional fun _ => hrun.fits ha rfl
    · exact h.connectRequest hrun ha

theorem PortInv.connectAccessKnown (h : PortInv s) (hrun : Running s) (ha : s.auth = none) :
    PortInv (s.connectAccessKnown api t native c r) := by
  unfold State.connectAccessKnown
  split
  · exact h.connectCatch hrun
  · split
    · exact h.connectCatch hrun
    · split
      · exact h.connectRequest hrun ha
      · exact h.connectCatch hrun

theorem PortInv.connectAnswered (h : PortInv s) (hrun : Running s) (ha : s.auth = none)
    (hr : ∀ p b, r = .ok (.answer p b) → s.Heard p b) : PortInv (s.connectAnswered t c r) := by
  unfold State.connectAnswered
  split
  · exact h.connectCatch hrun
  · split
    · exact h.connectCatch hrun
    · next hauth =>
      refine h.awaitCall fun n => ⟨hrun, .of_noAuth (fun hg => ?_) ha rfl⟩
      cases hg
      exact ⟨_, hr _ _ rfl, hauth⟩
  · exact h.connectCatch hrun

theorem PortInv.connectPolicyHardened (h : PortInv s) (hrun : Running s) (ha : s.auth = none)
    (hans : s.Answered g) : PortInv (s.connectPolicyHardened api t c g r) := by
  unfold State.connectPolicyHardened
  split
  · exact h.connectCatch hrun
  · refine h.awaitOptional fun n => ⟨hrun, .of_noAuth (fun hg => ?_) ha rfl⟩
    cases hg
    exact hans

/-- `connect` takes its answer's credentials while that answer's port is current. -/
theorem PortInv.take (h : PortInv s) (hrun : Running s) (hans : s.Answered g)
    (hon : s.On g.port) :
    PortInv { s with endpoints := some g.endpoints, auth := some g.auth, source := some g } :=
  { h with
    admits := fun ht => absurd ht (hrun.alone _ _ _)
    held := fun _ => ⟨g, ⟨rfl, rfl, rfl⟩, hans, hon⟩
    up := fun _ h' => by cases h'
    owner := fun _ => .inr hrun.connecting }

theorem PortInv.connectHardened (h : PortInv s) (hrun : Running s) (hans : s.Answered g)
    (hok : ∀ v, r = .ok v → s.portDead = true ∨ s.port = some g.port) :
    PortInv (s.connectHardened api t c g r) := by
  unfold State.connectHardened
  split
  · exact h.connectCatch hrun
  · simp only
    split
    · exact h.connectCatch hrun
    next hdead =>
    have hon : s.On g.port := ⟨(hok _ rfl).resolve_left hdead, by simpa using hdead⟩
    have hadm n : Admits { s with endpoints := some g.endpoints, auth := some g.auth,
                                  source := some g } (.applyProxy g n) := by
      refine ⟨fun hg => ?_, fun hg _ => ?_, fun hs => ?_⟩
      · cases hg; exact hans
      · cases hg; exact ⟨rfl, rfl, rfl⟩
      · cases hs
    exact (h.take hrun hans hon).applyProxy fun n =>
      And.intro ⟨hrun.connecting, hrun.alone⟩ (hadm n)

theorem PortInv.connectApplied (h : PortInv s) (hrun : Running s)
    (hadm : s.Admits (.applyProxy g n)) : PortInv (s.connectApplied api t c g r) := by
  unfold State.connectApplied
  split
  · exact h.connectCatch hrun
  · exact h.verifyRouting fun n => ⟨hrun, hadm.answered, hadm.took, fun hs => by cases hs⟩

theorem PortInv.connectVerified (h : PortInv s) (hrun : Running s)
    (hadm : s.Admits (.verifyRouting g n))
    (hok : ∀ d, proxyControl [.controlledByThisExtension] r = .ok d →
      s.portDead = true ∨ s.port = some g.port) : PortInv (s.connectVerified t c g r) := by
  unfold State.connectVerified
  split
  · exact h.connectCatch hrun
  · next hd =>
    split
    · exact h.connectCatch hrun
    next hdead =>
    have hon : s.On g.port := ⟨(hok _ hd).resolve_left hdead, by simpa using hdead⟩
    have hauth : s.auth ≠ none := by
      rw [(hadm.took rfl (.inl hon)).2.2]
      simp
    -- The tunnel comes up and the `connect` ends at once: in between, `down` does not hold.
    have h' : PortInv { s with proxied := true, tunnelUp := true, exit := parseTunnelExit g.exit,
                               connecting := false } :=
      { h with
        connecting := fun ht => absurd ht (hrun.alone _ _ _)
        admits := fun ht => absurd ht (hrun.alone _ _ _)
        up := fun _ => hauth
        down := fun hc => by cases hc
        owner := fun _ => .inl rfl }
    refine PortInv.settle (h'.frame ?_) fun _ _ hr => by cases hr
    cases c.heldHandler <;> rfl

/-! ## `reconnect`, `disconnect` and `applySplit` -/

theorem PortInv.releaseHost (h : PortInv s) : PortInv s.releaseHost := by
  refine h.lost (fun _ => h.closePort_live) (fun p hp => by cases hp.1) (fun p hp => by cases hp)
    rfl rfl rfl rfl rejectPending_answers rfl rfl rfl

theorem PortInv.reconnectReleased (h : PortInv s) :
    PortInv (s.reconnectReleased api t options) :=
  h.releaseHost.connectStart

theorem PortInv.reconnectRelease (h : PortInv s) :
    PortInv (s.reconnectRelease api t native options) := by
  have h' : PortInv { s with releasing := true } := h.frame rfl
  unfold State.reconnectRelease
  simp only
  split
  · exact h'.request.suspend trivial
  · exact h'.reconnectReleased

theorem PortInv.reconnectStart (h : PortInv s) :
    PortInv (s.reconnectStart api t native options) := by
  unfold State.reconnectStart
  split
  · exact h.connectStart
  · split
    · exact h.settle_error
    · split
      · exact h.awaitCall fun _ => trivial
      · exact h.reconnectRelease

theorem PortInv.reconnectLocked (h : PortInv s) :
    PortInv (s.reconnectLocked api t native options r) := by
  unfold State.reconnectLocked
  split
  · exact h.settle_error
  · exact h.reconnectRelease

theorem PortInv.clearBrowserSettings (h : PortInv s) : PortInv (s.clearBrowserSettings t) :=
  (h.frame removeOnRequestHandler_portView).awaitCall fun _ => trivial

theorem PortInv.disconnectStart (h : PortInv s) : PortInv (s.disconnectStart api t native) := by
  have h' : PortInv { s with releasing := true } := h.frame rfl
  unfold State.disconnectStart
  simp only
  split
  · exact h'.request.suspend trivial
  · exact h'.clearBrowserSettings

theorem PortInv.disconnectSettingsCleared (h : PortInv s) :
    PortInv (s.disconnectSettingsCleared t r) := by
  unfold State.disconnectSettingsCleared
  split
  · exact h.releaseHost.settle_error
  · exact h.awaitCall fun _ => trivial

theorem PortInv.disconnectPolicyCleared (h : PortInv s) :
    PortInv (s.disconnectPolicyCleared api t r) := by
  unfold State.disconnectPolicyCleared
  split
  · exact h.releaseHost.settle_error
  · exact h.awaitOptional fun _ => trivial

theorem PortInv.disconnectPredictionCleared (h : PortInv s) :
    PortInv (s.disconnectPredictionCleared t r) := by
  unfold State.disconnectPredictionCleared
  split
  · exact h.releaseHost.settle_error
  · have h' : PortInv { s with proxied := false } := h.frame rfl
    exact h'.releaseHost.settle fun _ _ hr => by cases hr

theorem PortInv.applySplitStart (h : PortInv s) : PortInv (s.applySplitStart api t split) := by
  have h' : PortInv { s with onRequestHandler := none } := h.frame rfl
  unfold State.applySplitStart
  split
  · exact h'.applyProxy fun _ => trivial
  · exact h.settle_error

theorem PortInv.applySplitApplied (h : PortInv s) :
    PortInv (s.applySplitApplied api t split previous r) := by
  unfold State.applySplitApplied
  split
  · exact h.settle_error
  · cases previous with
    | none => exact h.verifyRouting fun _ => trivial
    | some handler =>
      exact PortInv.verifyRouting (s := s.removeListener handler) (h.frame rfl) fun _ => trivial

theorem PortInv.applySplitVerified (h : PortInv s) : PortInv (s.applySplitVerified t r) := by
  unfold State.applySplitVerified
  split
  · exact h.settle_error
  · exact h.settle fun _ _ hr => by cases hr

/-! ## What happens to the client -/

theorem PortInv.portDied (h : PortInv s) (hp : s.live p = true) : PortInv (s.portDied api p) := by
  have hlive : ∀ q, Function.update s.live p false q = false := by
    intro q
    by_contra hq
    simp only [Function.update_apply, Bool.not_eq_false] at hq
    split at hq
    · cases hq
    · next hne =>
      exact hne (Option.some.inj ((h.live.mp hq).1.symm.trans (h.live.mp hp).1))
  have h' : PortInv (State.rejectPending "native messaging host disconnected"
      { s with live := Function.update s.live p false, portDead := true, tunnelUp := false,
               auth := none, exit := none }) :=
    h.lost hlive (fun q hq => by cases hq.2) (fun _ hq => hq) rfl rfl rfl rfl
      rejectPending_answers rfl rfl rfl
  unfold State.portDied
  simp only
  split
  · refine h'.frame ?_
    unfold blockReleasedListener
    split <;> rfl
  · exact h'

theorem PortInv.received (h : PortInv s) : PortInv { s with received := s.received ++ [x] } := by
  have hr : ∀ y ∈ s.received, y ∈ s.received ++ [x] := fun y hy => List.mem_append_left _ hy
  exact { h with
    answers := fun hm => (h.answers hm).mono (Nat.le_refl _) hr
    results := fun hm => (h.results hm).mono (Nat.le_refl _) hr
    admits := fun ht =>
      { answered := fun hg => ((h.admits ht).answered hg).mono (Nat.le_refl _) hr
        took := (h.admits ht).took
        noAuth := (h.admits ht).noAuth }
    held := fun ha => by
      obtain ⟨g, ht, hans, ho⟩ := h.held ha
      exact ⟨g, ht, hans.mono (Nat.le_refl _) hr, ho⟩ }

theorem PortInv.onMessage (h : PortInv s) (hp : s.live p = true) : PortInv (s.onMessage p m) := by
  unfold State.onMessage
  split
  · next response =>
    have h' : PortInv { s with received := s.received ++ [(p, response)] } := h.received
    simp only
    split
    · refine { h' with answers := ?_, admits := fun ht => { h'.admits ht with } }
      intro m p' b hm
      simp only [Function.update_apply] at hm
      split at hm
      · cases response with
        | ok id body =>
          cases hm
          exact ⟨h.port_lt (h.live.mp hp).1, id, by simp⟩
        | error id code message => cases hm
      · exact h'.answers hm
    · exact h'
  · exact h

theorem takeEffect_portView : (takeEffect c r s).portView = s.portView := by
  unfold takeEffect
  split
  · rfl
  · rfl
  · split <;> rfl

/-! ## Losses that the client sees -/

/-- The answer whose host `assertHostAlive` is about to look for when `t` is resumed. -/
def hostCheck (s : State) (t : Nat) : Option Granted :=
  match s.tasks t with
  | some (.connect _ (.hardenPrediction g n)) =>
    match s.browserResults n with
    | some (.ok _) => some g
    | _ => none
  | some (.connect _ (.verifyRouting g n)) =>
    match (s.browserResults n).map (proxyControl [.controlledByThisExtension]) with
    | some (.ok _) => some g
    | _ => none
  | _ => none

/-- Whether `t` is about to be resumed with its hello refused. -/
def refusesHello (s : State) (t : Nat) : Bool :=
  match s.tasks t with
  | some (.hello m) => (s.answers m).any helloRefused
  | _ => false

/-- Where `connect` looks whether its host is gone, its port is still the current one or the client
knows the current one dead; and a refused hello closes no port that credentials are held for. -/
def LossesSeen (s : State) : Event → Prop
  | .resume t _ =>
    (∀ g, s.hostCheck t = some g → s.portDead = true ∨ s.port = some g.port) ∧
      (s.refusesHello t = true → s.auth = none)
  | _ => True

theorem hostCheck_prediction (ht : s.tasks t = some (.connect c (.hardenPrediction g n)))
    (hr : s.browserResults n = some (.ok v)) : s.hostCheck t = some g := by
  simp [hostCheck, ht, hr]

theorem hostCheck_routing (ht : s.tasks t = some (.connect c (.verifyRouting g n)))
    (hr : s.browserResults n = some r)
    (hd : proxyControl [.controlledByThisExtension] r = .ok d) : s.hostCheck t = some g := by
  simp [hostCheck, ht, hr, hd]

theorem PortInv.resumeConnect (h : PortInv s) (ht : s.tasks t = some (.connect c a))
    (hc : s.LossesSeen (.resume t native))
    (hs : (s.wake t).resumeConnect api t native c a = some s') : PortInv s' := by
  have hw : PortInv (s.wake t) := h.wake
  have hrun : Running (s.wake t) := h.wake_running ht
  have hadm : (s.wake t).Admits a := { h.admits ht with }
  cases a <;> simp only [State.resumeConnect, Option.map_eq_some_iff] at hs <;>
    obtain ⟨r, hr, rfl⟩ := hs
  case assertProxyControl => exact hw.connectControlled hrun (hadm.noAuth rfl)
  case holdsLeakHardening => exact hw.connectLeaksKnown hrun (hadm.noAuth rfl)
  case isAllowedIncognitoAccess => exact hw.connectAccessKnown hrun (hadm.noAuth rfl)
  case request =>
    exact hw.connectAnswered hrun (hadm.noAuth rfl) fun p b hx => hw.results (hx ▸ hr)
  case hardenPolicy => exact hw.connectPolicyHardened hrun (hadm.noAuth rfl) (hadm.answered rfl)
  case hardenPrediction g n =>
    exact hw.connectHardened hrun (hadm.answered rfl) fun v hv =>
      hc.1 g (hostCheck_prediction ht (hv ▸ hr))
  case applyProxy => exact hw.connectApplied hrun hadm
  case verifyRouting g n =>
    exact hw.connectVerified hrun hadm fun d hd => hc.1 g (hostCheck_routing ht hr hd)
  case restoreSettings => exact hw.connectRestored hrun (hadm.noAuth rfl)
  case releasePolicy => exact hw.connectPolicyReleased hrun (hadm.noAuth rfl)
  case releasePrediction => exact hw.connectFailed hrun (hadm.noAuth rfl)

theorem PortInv.resume (h : PortInv s) (ht : s.tasks t = some x)
    (hc : s.LossesSeen (.resume t native))
    (hs : (s.wake t).resume api t native x = some s') : PortInv s' := by
  have hw : PortInv (s.wake t) := h.wake
  cases x
  case connect c a => exact h.resumeConnect ht hc hs
  all_goals obtain ⟨r, hr, rfl⟩ := Option.map_eq_some_iff.mp hs
  case hello m =>
    have hr' : s.answers m = some r := hr
    exact hw.helloAnswered fun hx => hc.2 (by simp [refusesHello, ht, hr', hx])
  case requestHandshake => exact hw.requestHandshakeDone
  case requestAnswer =>
    refine hw.settle fun p b hx => ?_
    cases r with
    | error e => cases hx
    | ok y => cases hx; exact hw.answers hr
  case asking => exact hw.finishAsking fun p b hx => hw.results (hx ▸ hr)
  case reconnectLockdown => exact hw.reconnectLocked
  case reconnectRelease => exact hw.reconnectReleased
  case disconnectRelease => exact hw.clearBrowserSettings
  case disconnectSettings => exact hw.disconnectSettingsCleared
  case disconnectPolicy => exact hw.disconnectPolicyCleared
  case disconnectPrediction => exact hw.disconnectPredictionCleared
  case applySplitProxy => exact hw.applySplitApplied
  case applySplitVerify => exact hw.applySplitVerified

theorem PortInv.initial {settings : Option ProxyValue} {policy : Option String} :
    PortInv (.initial settings policy prediction) := by
  constructor <;> intros <;> simp_all [State.initial, On]

/-- One event keeps the invariant, if the losses of the host are seen. -/
theorem PortInv.step (h : PortInv s) (hc : s.LossesSeen e) (hs : Extension.step api s e = some s') :
    PortInv s' := by
  have hfresh : PortInv { s with nextTask := s.nextTask + 1 } := h.frame rfl
  cases e
  case connect => cases hs; exact hfresh.connectStart
  case reconnect => cases hs; exact hfresh.reconnectStart
  case disconnect => cases hs; exact hfresh.disconnectStart
  case applySplit => cases hs; exact hfresh.applySplitStart
  case ask => cases hs; exact hfresh.askStart
  case resume t native =>
    obtain ⟨x, ht, hs⟩ := Option.bind_eq_some_iff.mp hs
    exact h.resume ht hc hs
  case timeout t =>
    obtain ⟨x, ht, hs⟩ := Option.bind_eq_some_iff.mp hs
    cases x <;> cases hs
    case reconnectRelease => exact h.wake.reconnectReleased
    case disconnectRelease => exact h.wake.clearBrowserSettings
  case browserAnswer n r =>
    simp only [Extension.step] at hs
    split at hs
    · split at hs
      · cases hs
        exact h.frame (takeEffect_portView (s := s))
      · cases hs
    · cases hs
  case message p m =>
    simp only [Extension.step] at hs
    split at hs
    · next hp => cases hs; exact h.onMessage hp
    · cases hs
  case death p =>
    simp only [Extension.step] at hs
    split at hs
    · next hp => cases hs; exact h.portDied hp
    · cases hs

/-! ## Losses that the client does not see -/

/-- Credentials held while no port is open betray themselves. -/
theorem TunnelOnItsPort.live_source (h : TunnelOnItsPort s) (ht : s.Took g) :
    s.On g.port ∧ s.live g.port = true := by
  obtain ⟨hs, he, ha⟩ := ht
  have hl : s.forListener g.endpoints.socks5 = some g.auth := by simp [forListener, ha, he]
  obtain ⟨g', hs', -, ho, hlive, -⟩ := h.listener hl
  rw [hs] at hs'
  cases hs'
  exact ⟨ho, hlive⟩

theorem applyProxy_port {endpoints : ExtensionEndpoints} :
    (s.applyProxy api t endpoints split task).port = s.port := by
  unfold State.applyProxy
  split
  · dsimp only
    split <;> rfl
  · split <;> rfl

theorem Took.applyProxy {endpoints : ExtensionEndpoints} (h : Took s g) :
    (s.applyProxy api t endpoints split task).Took g := by
  unfold State.applyProxy
  split
  · dsimp only
    split <;> exact h
  · split <;> exact h

/-- The answer of a port no longer current is taken all the same. -/
theorem connectHardened_unseen (hd : s.portDead = false) (hp : s.port ≠ some g.port) :
    ¬ TunnelOnItsPort (s.connectHardened api t c g (.ok v)) := by
  unfold State.connectHardened
  simp only [hd, Bool.false_eq_true, if_false]
  intro h
  have ho := (h.live_source (Took.applyProxy ⟨rfl, rfl, rfl⟩)).1
  have hport := ho.1
  rw [applyProxy_port] at hport
  exact hp hport

/-- The tunnel comes up over a port no longer current. -/
theorem connectVerified_unseen (hadm : s.Admits (.verifyRouting g n)) (hd : s.portDead = false)
    (hp : s.port ≠ some g.port) (hr : proxyControl [.controlledByThisExtension] r = .ok d) :
    ¬ TunnelOnItsPort (s.connectVerified t c g r) := by
  unfold State.connectVerified
  simp only [hr, hd, Bool.false_eq_true, if_false]
  intro h
  cases hh : c.heldHandler <;> simp only [hh] at h
  all_goals
    obtain ⟨g', ⟨hs, -, ha⟩, -, ho, -⟩ := h.tunnel rfl
    have hauth : s.auth ≠ none := by
      intro hn
      rw [show s.auth = some g'.auth from ha] at hn
      cases hn
    have hg : some g = some g' := (hadm.took rfl (.inr hauth)).1.symm.trans hs
    cases hg
    exact hp ho.1

theorem helloAnswered_refused (hr : helloRefused r = true) :
    ∃ e, s.helloAnswered t r = s.closePort.settle t (.error e) := by
  unfold State.helloAnswered
  split
  · split
    · next hp => simp [helloRefused, hp] at hr
    · exact ⟨_, rfl⟩
  · exact ⟨_, rfl⟩
  · split
    · exact ⟨_, rfl⟩
    · next hc => simp [helloRefused, hc] at hr
  · cases hr

/-- A refused hello closes the port of credentials that stay held. -/
theorem PortInv.helloAnswered_unseen (h : PortInv s) (ha : s.auth ≠ none)
    (hr : helloRefused r = true) : ¬ TunnelOnItsPort (s.helloAnswered t r) := by
  obtain ⟨e, he⟩ := helloAnswered_refused (s := s) (t := t) hr
  obtain ⟨g, ht, -⟩ := h.held ha
  rw [he]
  intro h'
  have ho := (h'.live_source (g := g) ht).1
  cases ho.1

/-- A loss that goes unseen breaks the agreement at once. -/
theorem PortInv.unseen (h : PortInv s) (hc : ¬ s.LossesSeen e)
    (hs : Extension.step api s e = some s') : ¬ TunnelOnItsPort s' := by
  cases e
  case resume t native =>
    obtain ⟨x, ht, hs⟩ := Option.bind_eq_some_iff.mp hs
    rcases not_and_or.mp hc with hc | hc
    · simp only [not_forall, not_or, Bool.not_eq_true] at hc
      obtain ⟨g, hg, hd, hp⟩ := hc
      unfold hostCheck at hg
      split at hg
      · next g' n ht' =>
        cases ht.symm.trans ht'
        obtain ⟨r, hr, rfl⟩ := Option.map_eq_some_iff.mp hs
        have hr' : s.browserResults n = some r := hr
        rw [hr'] at hg
        cases r with
        | error e => cases hg
        | ok v => cases hg; exact connectHardened_unseen (s := s.wake t) hd hp
      · next g' n ht' =>
        cases ht.symm.trans ht'
        obtain ⟨r, hr, rfl⟩ := Option.map_eq_some_iff.mp hs
        have hr' : s.browserResults n = some r := hr
        rw [hr', Option.map_some] at hg
        have hadm : (s.wake t).Admits (.verifyRouting g' n) := { h.admits ht with }
        split at hg
        · next hd' =>
          cases hg
          exact connectVerified_unseen hadm hd hp (Option.some.inj hd')
        · cases hg
      · cases hg
    · simp only [Classical.not_imp] at hc
      obtain ⟨href, ha⟩ := hc
      unfold refusesHello at href
      split at href
      · next m ht' =>
        cases ht.symm.trans ht'
        obtain ⟨r, hr, rfl⟩ := Option.map_eq_some_iff.mp hs
        have hr' : s.answers m = some r := hr
        rw [hr', Option.any_some] at href
        exact h.wake.helloAnswered_unseen ha href
      · cases href
  all_goals exact absurd trivial hc

/-- The tunnel and its port agree throughout exactly in the runs that see every loss. -/
theorem tunnelOnItsPort_iff (api : ChromeLike) (settings : Option ProxyValue)
    (policy : Option String) (prediction : Option Bool) (es : List Event) :
    Always (Extension.step api) TunnelOnItsPort (.initial settings policy prediction) es ↔
      Guarded (Extension.step api) LossesSeen (.initial settings policy prediction) es :=
  always_iff_guarded PortInv.tunnelOnItsPort PortInv.step PortInv.unseen .initial

/-- A Chromium with every optional member. -/
def chromium : ChromeLike where
  platform := .chromium
  channel := .prod
  toLowerCase := Lib.Utf16.asciiLowerCase

/-- The host dies while `connect` hardens the browser, and a `status` opens the next one before
`connect` looks: it goes on with the credentials of the dead host. -/
def hostReplaced : List Event := [
  .connect { mnemonic := "" },
  .browserAnswer 0 (.ok (.details { levelOfControl := some .controllableByThisExtension })),
  .resume 0 true,
  .browserAnswer 1 (.ok (.details {})),
  .resume 0 true,
  .message 0 (some (.response (.ok 1 (.hello 3 none)))),
  .resume 2 true,
  .resume 1 true,
  .message 0 (some (.response (.ok 2 (.connect { socks5 := "a:1", http := some "b:2" }
    (some { username := some "u", password := some "p" }) none)))),
  .resume 1 true,
  .resume 0 true,
  .browserAnswer 2 (.ok .undefined),
  .resume 0 true,
  .browserAnswer 3 (.ok .undefined),
  .death 0,
  .ask .status true,
  .resume 0 true,
  .browserAnswer 4 (.ok .undefined),
  .resume 0 true,
  .browserAnswer 5 (.ok (.details { levelOfControl := some .controlledByThisExtension })),
  .resume 0 true]

/-- The tunnel is up on port 1, with the credentials that port 0 answered. -/
theorem not_tunnelOnItsPort_hostReplaced :
    ¬ Always (Extension.step chromium) TunnelOnItsPort (.initial none none none) hostReplaced := by
  have hrun : ∃ s, exec (Extension.step chromium) (fun _ _ => true) (.initial none none none)
      hostReplaced = some s ∧ s.tunnelUp = true ∧ s.port = some 1 ∧
        s.source.map (·.port) = some 0 := ⟨_, rfl, rfl, rfl, rfl⟩
  obtain ⟨s, hs, hu, hp, hsource⟩ := hrun
  intro h
  obtain ⟨g, ⟨hg, -⟩, -, ho, -⟩ := (h.exec hs).tunnel hu
  rw [hg, Option.map_some] at hsource
  have hport : some (1 : Nat) = some 0 := hp.symm.trans (ho.1.trans hsource)
  cases hport

end State

end WarrenSdk.Extension
