import WarrenSdk.Extension.Client.TunnelPort
import WarrenSdk.Lib.Exchange

/-!
# What the client says to its host

Behind the operations of the client there is an exchange of requests and answers over the ports it
opens: `State.exchange` is that view of a state. `Part` is what any part of an operation does to it,
as the call that runs it: polite moves, no other call's await changed, and, unless the part `cuts`,
the port that is open stays open.
-/

namespace WarrenSdk.Extension
open Lib

/-- What the client makes of its requests to a host: the answers of `onMessage`, the losses of
`closePort` and of a port's death, and `hello`. -/
def exchangeRules (api : ChromeLike) :
    ExchangeRules HostRequest HostResponse (Except Failure (Nat × ResponseBody)) where
  outcome port
    | .ok _ body => .ok (port, body)
    | .error _ code message => .error (.extension { code := .host, message, hostCode := some code })
  lost result := ∃ message, result = .error (.of .hostUnavailable message)
  hello body := body = .hello EXTENSION_PROTOCOL_VERSION api.channel
  accepts port result :=
    ∃ datapath, result = .ok (port, .hello EXTENSION_PROTOCOL_VERSION datapath)

/-- The calls that post nothing but what their own requests do, and count no question. -/
def Task.isPlain : Task → Bool
  | .requestHandshake _ _ | .asking _ _ => false
  | _ => true

namespace State

/-- The exchange of a client with its hosts. -/
def exchange (s : State) :
    Exchange HostRequest HostResponse (Except Failure (Nat × ResponseBody)) where
  current := if s.portOpen then s.port else none
  nextConn := s.nextPort
  nextId := s.nextId
  pending := s.pending
  sent := s.sent
  received := s.received.map fun (port, response) => (port, response.id, response)
  results := s.answers

/-- The hosts that are attached are those of the open port. -/
def LiveOpen (s : State) : Prop := ∀ p, s.live p = true ↔ s.On p

variable (api : ChromeLike)

/-- What was said from `s` to `s'`, a polite run of the exchange. -/
abbrev Says (s s' : State) : Prop :=
  Run (Exchange.step (exchangeRules api)) (Exchange.Polite (exchangeRules api)) s.exchange
    s'.exchange

/-- The call `h` is the hello of port `p`: its message is the first that was posted there, and it
settles as that message is answered. -/
def Shaken (s : State) (p h : Nat) : Prop :=
  ∃ m rest, s.exchange.sentOn p = (m, .hello EXTENSION_PROTOCOL_VERSION api.channel) :: rest ∧
    (s.tasks h = some (.hello m) ∧ s.results h = none ∨
      s.tasks h = none ∧ (∃ r, s.results h = some r) ∧
        ∀ v, s.results h = some (.ok v) →
          ∃ b, s.answers m = some b ∧ (exchangeRules api).accepts p b)

/-- A client that greets its hosts. -/
structure Talking (s : State) : Prop where
  inv : s.exchange.Inv (exchangeRules api)
  greets : s.exchange.Greets (exchangeRules api)
  shaken : ∀ {p}, s.On p → ∃ h, s.handshake = some h ∧ h < s.nextTask ∧ s.Shaken api p h
  numbered : ∀ {u}, s.nextTask ≤ u → s.tasks u = none ∧ s.results u = none

/-- The call `t` of a client that greets its hosts, when it is no hello of the open port. -/
structure Speaks (t : Nat) (s : State) : Prop extends Talking api s where
  lt : t < s.nextTask
  other : ∀ {p}, s.On p → s.handshake ≠ some t

/-- A part of an operation, run as the call `t`, leaves the other questions as they are, and the
open port unless it `cuts`. -/
structure Calm (cuts : Prop) (t : Nat) (s s' : State) : Prop where
  live : s.LiveOpen → s'.LiveOpen
  spares : ¬ cuts → ∀ {p}, s.On p → s'.On p
  questions : s'.questions = s.questions
  asked : ∀ {u q r}, s'.tasks u = some (.asking q r) → s.tasks u = some (.asking q r)
  asking : ∀ {u q r}, u ≠ t → u < s.nextTask → s.tasks u = some (.asking q r) →
    s'.tasks u = some (.asking q r)
  nextTask : s.nextTask ≤ s'.nextTask

/-- A part of an operation, run as the call `t`. -/
structure Part (cuts : Prop) (t : Nat) (s s' : State) : Prop extends Calm cuts t s s' where
  talk : s.Speaks api t → s.Says api s' ∧ s'.Speaks api t

variable {api : ChromeLike} {s s' : State} {cuts : Prop} {t : Nat}

theorem current_exchange {p : Nat} : s.exchange.current = some p ↔ s.On p := by
  unfold exchange On portOpen
  cases s.port <;> cases s.portDead <;> simp

theorem on_exchange (h : s'.exchange = s.exchange) {p : Nat} : s'.On p ↔ s.On p := by
  rw [← current_exchange, ← current_exchange, h]

theorem not_on_of_not_portOpen (h : s.portOpen = false) {p : Nat} : ¬ s.On p := by
  intro ⟨hp, hd⟩
  simp [portOpen, hp, hd] at h

theorem portOpen_of_on {p : Nat} (h : s.On p) : s.portOpen = true := by
  simp [portOpen, h.1, h.2]

theorem on_of_portOpen (h : s.portOpen = true) : ∃ p, s.On p := by
  simp only [portOpen, Bool.and_eq_true, Bool.not_eq_true', Option.isSome_iff_exists] at h
  obtain ⟨⟨p, hp⟩, hd⟩ := h
  exact ⟨p, hp, hd⟩

/-! ## Composition -/

theorem Calm.trans (h : Calm cuts t s u) (h' : Calm cuts t u s') : Calm cuts t s s' where
  live hl := h'.live (h.live hl)
  spares hc {_} hp := h'.spares hc (h.spares hc hp)
  questions := h'.questions.trans h.questions
  asked hu := h.asked (h'.asked hu)
  asking hne hlt hu := h'.asking hne (Nat.lt_of_lt_of_le hlt h.nextTask) (h.asking hne hlt hu)
  nextTask := Nat.le_trans h.nextTask h'.nextTask

theorem Part.trans (h : Part api cuts t s u) (h' : Part api cuts t u s') :
    Part api cuts t s s' where
  toCalm := h.toCalm.trans h'.toCalm
  talk hs := by
    obtain ⟨hrun, hu⟩ := h.talk hs
    obtain ⟨hrun', hs'⟩ := h'.talk hu
    exact ⟨hrun.trans hrun', hs'⟩

/-! ## Parts that say nothing -/

/-- What `Part` speaks of. -/
def talkView (s : State) :=
  (s.exchange, s.handshake, s.live, s.nextTask, s.tasks, s.results, s.questions)

theorem Shaken.frame (h : s.Shaken api p n) (hx : s'.exchange = s.exchange)
    (ht : s'.tasks n = s.tasks n) (hr : s'.results n = s.results n) : s'.Shaken api p n := by
  have ha : s'.answers = s.answers := congrArg Exchange.results hx
  unfold Shaken
  rw [hx, ht, hr, ha]
  exact h

theorem Says.of_eq (h : s'.exchange = s.exchange) : s.Says api s' := by
  unfold Says
  rw [h]
  exact .refl

/-- A change at a call that is no hello of the open port. -/
theorem Speaks.update (h : s.Speaks api t) (hv : s.Speaks api v) (hx : s'.exchange = s.exchange)
    (hh : s'.handshake = s.handshake) (hn : s'.nextTask = s.nextTask)
    (hu : ∀ {u}, u ≠ v → s'.tasks u = s.tasks u ∧ s'.results u = s.results u) :
    s'.Speaks api t where
  inv := hx ▸ h.inv
  greets := hx ▸ h.greets
  shaken {p} hp := by
    have hon : s.On p := (on_exchange hx).mp hp
    obtain ⟨n, hhandshake, hlt, hshaken⟩ := h.shaken hon
    have hne : n ≠ v := by
      intro heq
      exact hv.other hon (heq ▸ hhandshake)
    refine ⟨n, hh.trans hhandshake, hn ▸ hlt, ?_⟩
    exact hshaken.frame hx (hu hne).1 (hu hne).2
  numbered {u} hle := by
    rw [hn] at hle
    have hne : u ≠ v := Nat.ne_of_gt (Nat.lt_of_lt_of_le hv.lt hle)
    rw [(hu hne).1, (hu hne).2]
    exact h.numbered hle
  lt := hn ▸ h.lt
  other {p} hp := by
    rw [hh]
    exact h.other ((on_exchange hx).mp hp)

theorem Calm.update (hx : s'.exchange = s.exchange) (hl : s'.live = s.live)
    (hq : s'.questions = s.questions) (hn : s.nextTask ≤ s'.nextTask)
    (hasked : ∀ {u q r}, s'.tasks u = some (.asking q r) → s.tasks u = some (.asking q r))
    (hasking : ∀ {u q r}, u ≠ t → u < s.nextTask → s.tasks u = some (.asking q r) →
      s'.tasks u = some (.asking q r)) : Calm cuts t s s' where
  live hlive p := by
    rw [hl, on_exchange hx]
    exact hlive p
  spares _ {_} hp := (on_exchange hx).mpr hp
  questions := hq
  asked := hasked
  asking := hasking
  nextTask := hn

theorem Part.frame (h : s'.talkView = s.talkView) : Part api cuts t s s' := by
  simp only [talkView, Prod.mk.injEq] at h
  obtain ⟨hx, hh, hl, hn, ht, hr, hq⟩ := h
  constructor
  · exact .update hx hl hq (Nat.le_of_eq hn.symm) (fun hu => ht ▸ hu) (fun _ _ hu => ht ▸ hu)
  · intro hs
    exact ⟨.of_eq hx, hs.update hs hx hh hn fun _ => ⟨congrFun ht _, congrFun hr _⟩⟩

theorem Calm.settle (r : TaskResult) : Calm cuts t s (s.settle t r) :=
  .update rfl rfl rfl (Nat.le_refl _) id fun _ _ hu => hu

theorem Calm.suspend {x : Task} (hx : ∀ q r, x ≠ .asking q r) :
    Calm cuts t s (s.suspend t x) := by
  refine .update rfl rfl rfl (Nat.le_refl _) (fun {u q r} hu => ?_) fun {u q r} hne _ hu => ?_
  · rcases eq_or_ne u t with rfl | hne
    · have hself : (s.suspend u x).tasks u = some x := Function.update_self ..
      exact absurd (Option.some.inj (hself.symm.trans hu)) (hx q r)
    · exact (Function.update_of_ne hne ..).symm.trans hu
  · exact (Function.update_of_ne hne ..).trans hu

theorem Part.settle (r : TaskResult) : Part api cuts t s (s.settle t r) where
  toCalm := .settle r
  talk hs := by
    refine ⟨.refl, hs.update hs rfl rfl rfl fun hne => ⟨rfl, ?_⟩⟩
    exact Function.update_of_ne hne ..

theorem Part.suspend {x : Task} (hx : ∀ q r, x ≠ .asking q r) :
    Part api cuts t s (s.suspend t x) where
  toCalm := .suspend hx
  talk hs := by
    refine ⟨.refl, hs.update hs rfl rfl rfl fun hne => ⟨?_, rfl⟩⟩
    exact Function.update_of_ne hne ..

theorem Part.awaitCall {task : Nat → Task} (hx : ∀ n q r, task n ≠ .asking q r) :
    Part api cuts t s (s.awaitCall t c task) := by
  have hcalls : Part api cuts t s { s with calls := s.calls ++ [c] } := .frame rfl
  exact hcalls.trans (.suspend (hx s.calls.length))

theorem Part.awaitSettled {task : Nat → Task} (hx : ∀ n q r, task n ≠ .asking q r) :
    Part api cuts t s (s.awaitSettled t r task) := by
  have hcalls : Part api cuts t s { s with
      calls := s.calls ++ [.none]
      browserResults := Function.update s.browserResults s.calls.length (some r) } := .frame rfl
  exact hcalls.trans (.suspend (hx s.calls.length))

theorem Part.awaitOptional {task : Nat → Task} (hx : ∀ n q r, task n ≠ .asking q r) :
    Part api cuts t s (s.awaitOptional has t c task) := by
  unfold State.awaitOptional
  split
  · exact .awaitCall hx
  · exact .awaitSettled hx

/-! ## Ports -/

/-- What is settled as the port goes. -/
def closed (message : String) : Except Failure (Nat × ResponseBody) :=
  .error (.of .hostUnavailable message)

theorem lost_closed (message : String) : (exchangeRules api).lost (closed message) := ⟨message, rfl⟩

/-- A state without an open port, after the requests that were pending are lost. -/
theorem Talking.lose (h : s.Talking api) (message : String)
    (hx : Exchange.step (exchangeRules api) s.exchange (.lose (closed message)) = some s'.exchange)
    (hoff : ∀ p, ¬ s'.On p) (hn : s'.nextTask = s.nextTask)
    (hu : ∀ {u}, s.nextTask ≤ u → s'.tasks u = s.tasks u ∧ s'.results u = s.results u) :
    s.Says api s' ∧ s'.Talking api := by
  have hpolite : s.exchange.Polite (exchangeRules api) (.lose (closed message)) :=
    lost_closed message
  have hrun : s.Says api s' := .single hpolite hx
  obtain ⟨hinv, hgreets⟩ := Exchange.greets_run hrun h.inv h.greets
  refine ⟨hrun, hinv, hgreets, fun hp => absurd hp (hoff _), fun {u} hle => ?_⟩
  rw [hn] at hle
  rw [(hu hle).1, (hu hle).2]
  exact h.numbered hle

theorem exchange_closePort : Exchange.step (exchangeRules api) s.exchange
    (.lose (closed "native messaging host closed")) = some s.closePort.exchange := rfl

theorem closePort_off (p : Nat) : ¬ s.closePort.On p := fun hp => by cases hp.1

theorem liveOpen_closePort (h : s.LiveOpen) : s.closePort.LiveOpen := by
  intro p
  refine ⟨fun hl => ?_, fun hp => absurd hp (closePort_off p)⟩
  simp only [State.closePort, State.rejectPending] at hl
  split at hl
  · simp only [Bool.and_eq_true, Bool.not_eq_true', beq_eq_false_iff_ne] at hl
    exact absurd ((h p).mp hl.1).1 hl.2
  · next hclosed =>
    exact absurd (portOpen_of_on ((h p).mp hl)) hclosed

theorem Part.closePort (hc : cuts) : Part api cuts t s s.closePort where
  live := liveOpen_closePort
  spares hn := absurd hc hn
  questions := rfl
  asked hu := hu
  asking _ _ hu := hu
  nextTask := Nat.le_refl _
  talk hs := by
    obtain ⟨hrun, htalking⟩ := hs.lose _ exchange_closePort closePort_off rfl fun _ => ⟨rfl, rfl⟩
    exact ⟨hrun, htalking, hs.lt, fun hp => absurd hp (closePort_off _)⟩

theorem openPort_of_open (h : s.portOpen = true) (native : Bool) : s.openPort native = .ok s := by
  unfold State.openPort
  rw [if_pos h]

theorem send_of_open (h : s.portOpen = true) (native : Bool) (body : HostRequest) :
    s.send native body = .ok { s with
      nextId := s.nextId + 1
      pending := s.pending ++ [s.nextId]
      sent := s.sent ++ [(s.port.getD 0, s.nextId, body)] } := by
  unfold State.send
  rw [openPort_of_open h]

/-- A message that is posted on the open port. -/
theorem exchange_send (h : s.portOpen = true) (body : HostRequest) :
    Exchange.step (exchangeRules api) s.exchange (.post body) = some (State.exchange { s with
      nextId := s.nextId + 1
      pending := s.pending ++ [s.nextId]
      sent := s.sent ++ [(s.port.getD 0, s.nextId, body)] }) := by
  obtain ⟨p, hp⟩ := on_of_portOpen h
  have hport : s.port.getD 0 = p := by
    rw [hp.1]
    rfl
  rw [hport]
  exact Option.map_eq_some_iff.mpr ⟨p, current_exchange.mpr hp, rfl⟩

/-- A port that `openPort` opened. -/
def opened (s : State) : State :=
  { s with
    port := some s.nextPort
    portDead := false
    handshake := none
    live := Function.update s.live s.nextPort true
    nextPort := s.nextPort + 1 }

/-- A port on which `hello` was just called: call `s.nextTask`, and message `s.nextId`. -/
def greeted (api : ChromeLike) (s : State) : State :=
  { s with
    handshake := some s.nextTask
    nextTask := s.nextTask + 1
    nextId := s.nextId + 1
    pending := s.pending ++ [s.nextId]
    sent := s.sent ++ [(s.port.getD 0, s.nextId, .hello EXTENSION_PROTOCOL_VERSION api.channel)]
    tasks := Function.update s.tasks s.nextTask (some (.hello s.nextId)) }

theorem openPort_of_closed (h : s.portOpen = false) : s.openPort true = .ok s.opened := by
  unfold State.openPort
  simp only [h, Bool.false_eq_true, if_false, if_true]
  rfl

theorem shakeHands_of_none (h : s.handshake = none) (ho : s.portOpen = true) (native : Bool) :
    s.shakeHands api native = (s.nextTask, s.greeted api) := by
  unfold State.shakeHands
  rw [h]
  dsimp only
  rw [send_of_open (s := { s with nextTask := s.nextTask + 1, handshake := some s.nextTask }) ho]
  rfl

theorem shakeHands_of_some (h : s.handshake = some n) (native : Bool) :
    s.shakeHands api native = (n, s) := by
  unfold State.shakeHands
  rw [h]

theorem exchange_opened (h : s.portOpen = false) :
    Exchange.step (exchangeRules api) s.exchange .connect = some s.opened.exchange := by
  unfold Exchange.step
  have hcurrent : s.exchange.current = none := by
    simp [exchange, h]
  rw [if_pos hcurrent]
  rfl

/-- A fresh port is opened with its hello. -/
theorem Speaks.greeted (h : s.Speaks api t) (ho : s.portOpen = false) :
    s.Says api (s.opened.greeted api) ∧ (s.opened.greeted api).Speaks api t := by
  have hconnect : s.exchange.Polite (exchangeRules api) .connect := trivial
  have hopened : s.Says api s.opened := .single hconnect (exchange_opened ho)
  have hempty : s.opened.exchange.sentOn s.nextPort = [] :=
    h.inv.sentOn_eq_nil (Nat.le_refl s.nextPort)
  have hhello : s.opened.exchange.Polite (exchangeRules api)
      (.post (.hello EXTENSION_PROTOCOL_VERSION api.channel)) := by
    intro p hp
    obtain rfl : s.nextPort = p := Option.some.inj hp
    rw [hempty]
    rfl
  have hsend : Exchange.step (exchangeRules api) s.opened.exchange
      (.post (.hello EXTENSION_PROTOCOL_VERSION api.channel)) =
        some (s.opened.greeted api).exchange := exchange_send (s := s.opened) rfl _
  have hrun : s.Says api (s.opened.greeted api) := hopened.tail hhello hsend
  obtain ⟨hinv, hgreets⟩ := Exchange.greets_run hrun h.inv h.greets
  refine ⟨hrun, ⟨⟨hinv, hgreets, fun {p} hp => ?_, fun {u} hle => ?_⟩, ?_, fun {p} _ heq => ?_⟩⟩
  · obtain rfl : s.nextPort = p := Option.some.inj hp.1
    refine ⟨s.nextTask, rfl, Nat.lt_succ_self _, s.nextId, [], ?_, .inl ⟨?_, ?_⟩⟩
    · refine (Exchange.sentOn_append s.opened.exchange s.nextPort s.nextPort s.nextId _).trans ?_
      rw [hempty, if_pos rfl]
      rfl
    · exact Function.update_self ..
    · exact (h.numbered (Nat.le_refl _)).2
  · have hne : u ≠ s.nextTask := Nat.ne_of_gt hle
    obtain ⟨htask, hresult⟩ := h.numbered (Nat.le_of_succ_le hle)
    exact ⟨(Function.update_of_ne hne ..).trans htask, hresult⟩
  · exact Nat.lt_succ_of_lt h.lt
  · exact absurd (Option.some.inj heq) (Nat.ne_of_gt h.lt)

/-- A change that closes no port. -/
structure KeepsPort (s s' : State) : Prop where
  live : s.LiveOpen → s'.LiveOpen
  on : ∀ {p}, s.On p → s'.On p

theorem KeepsPort.trans (h : KeepsPort s u) (h' : KeepsPort u s') : KeepsPort s s' :=
  ⟨fun hl => h'.live (h.live hl), fun hp => h'.on (h.on hp)⟩

theorem KeepsPort.of_eq (hp : s'.port = s.port) (hd : s'.portDead = s.portDead)
    (hl : s'.live = s.live) : KeepsPort s s' := by
  have hon : ∀ p, s'.On p ↔ s.On p := fun p => by rw [On, On, hp, hd]
  refine ⟨fun hlive p => ?_, fun hp => (hon _).mpr hp⟩
  rw [hl, hon]
  exact hlive p

theorem openPort_keeps (h : openPort native s = .ok s') : KeepsPort s s' := by
  unfold openPort at h
  split at h
  · cases h
    exact ⟨id, id⟩
  · next hclosed =>
    have hoff : ∀ {p}, ¬ s.On p := not_on_of_not_portOpen (Bool.eq_false_of_not_eq_true hclosed)
    split at h
    · cases h
      refine ⟨fun hlive p => ?_, fun hp => absurd hp hoff⟩
      rcases eq_or_ne p s.nextPort with rfl | hne
      · exact ⟨fun _ => ⟨rfl, rfl⟩, fun _ => Function.update_self ..⟩
      · constructor
        · intro hl
          exact absurd ((hlive p).mp ((Function.update_of_ne hne ..).symm.trans hl)) hoff
        · intro hp
          exact absurd (Option.some.inj hp.1).symm hne
    · cases h

theorem send_keeps (h : send native body s = .ok s') : KeepsPort s s' := by
  unfold send at h
  split at h
  · cases h
  · next hopen =>
    cases h
    exact (openPort_keeps hopen).trans (.of_eq rfl rfl rfl)

theorem shakeHands_keeps (api : ChromeLike) (native : Bool) :
    KeepsPort s (s.shakeHands api native).2 := by
  unfold shakeHands
  split
  · exact ⟨id, id⟩
  · dsimp only
    split
    · exact .of_eq rfl rfl rfl
    · next hsend =>
      have hbefore : KeepsPort s
          { s with nextTask := s.nextTask + 1, handshake := some s.nextTask } :=
        .of_eq rfl rfl rfl
      exact (hbefore.trans (send_keeps hsend)).trans (.of_eq rfl rfl rfl)

theorem request_keeps (api : ChromeLike) (native : Bool) (body : HostRequest) :
    KeepsPort s (s.request api native body) := by
  have hbefore : KeepsPort s { s with nextTask := s.nextTask + 1 } := .of_eq rfl rfl rfl
  unfold request
  dsimp only
  split
  · exact hbefore.trans (.of_eq rfl rfl rfl)
  · next hopen =>
    have hgreeted := (hbefore.trans (openPort_keeps hopen)).trans
      (shakeHands_keeps api native)
    exact hgreeted.trans (.of_eq rfl rfl rfl)

theorem Calm.of_aside (h : Aside s s') (hk : KeepsPort s s') : Calm cuts t s s' where
  live := hk.live
  spares _ {_} hp := hk.on hp
  questions := h.questions
  asked hu := h.tasks_of hu rfl
  asking _ hlt hu := (h.old hlt).1.trans hu
  nextTask := h.nextTask

/-- A call that is no hello of the open port is suspended, or settled. -/
theorem Speaks.suspend (h : s.Speaks api t) (hv : s.Speaks api v) (x : Task) :
    (s.suspend v x).Speaks api t := by
  refine h.update hv rfl rfl rfl fun hne => ⟨?_, rfl⟩
  exact Function.update_of_ne hne ..

theorem Speaks.settle (h : s.Speaks api t) (hv : s.Speaks api v) (r : TaskResult) :
    (s.settle v r).Speaks api t := by
  refine h.update hv rfl rfl rfl fun hne => ⟨rfl, ?_⟩
  exact Function.update_of_ne hne ..

/-- The open port is greeted, as it is by every request. -/
theorem Speaks.shakeHands (h : s.Speaks api t) (ho : s.openPort native = .ok u) :
    s.Says api (u.shakeHands api native).2 ∧ (u.shakeHands api native).2.Speaks api t := by
  cases hopen : s.portOpen with
  | true =>
    cases (openPort_of_open hopen native).symm.trans ho
    obtain ⟨p, hp⟩ := on_of_portOpen hopen
    obtain ⟨n, hn, -⟩ := h.shaken hp
    rw [shakeHands_of_some hn]
    exact ⟨.refl, h⟩
  | false =>
    cases native with
    | false =>
      unfold State.openPort at ho
      simp [hopen] at ho
    | true =>
      cases (openPort_of_closed hopen).symm.trans ho
      rw [shakeHands_of_none rfl rfl]
      exact h.greeted hopen

/-- The calls that a part starts are no hello of the open port. -/
theorem Talking.fresh (h : s.Talking api) :
    Speaks api s.nextTask { s with nextTask := s.nextTask + 1 } where
  inv := h.inv
  greets := h.greets
  shaken hp := by
    obtain ⟨n, hn, hlt, hshaken⟩ := h.shaken hp
    exact ⟨n, hn, Nat.lt_succ_of_lt hlt, hshaken⟩
  numbered hle := h.numbered (Nat.le_of_succ_le hle)
  lt := Nat.lt_succ_self _
  other {p} hp heq := by
    obtain ⟨n, hn, hlt, -⟩ := h.shaken hp
    cases hn.symm.trans heq
    exact Nat.lt_irrefl _ hlt

theorem Speaks.later (h : s.Speaks api t) : Speaks api t { s with nextTask := s.nextTask + 1 } where
  toTalking := h.fresh.toTalking
  lt := Nat.lt_succ_of_lt h.lt
  other := h.other

theorem Part.request (native : Bool) (body : HostRequest) :
    Part api cuts t s (s.request api native body) where
  toCalm := .of_aside request_aside (request_keeps api native body)
  talk hs := by
    unfold State.request
    dsimp only
    split
    · exact ⟨.refl, hs.later.settle hs.fresh _⟩
    · next hopen =>
      obtain ⟨hrun, hlater⟩ := hs.later.shakeHands hopen
      exact ⟨hrun, hlater.suspend (hs.fresh.shakeHands hopen).2 _⟩

/-! ## Routing -/

theorem Part.removeOnRequestHandler : Part api cuts t s s.removeOnRequestHandler := by
  unfold State.removeOnRequestHandler
  split
  · exact .frame rfl
  · exact .frame rfl

theorem Part.applyProxy {endpoints : ExtensionEndpoints} {task : Nat → Task}
    (hx : ∀ n q r, task n ≠ .asking q r) :
    Part api cuts t s (s.applyProxy api t endpoints split task) := by
  unfold State.applyProxy
  split
  · have hregistered : Part api cuts t s (s.registerFirefoxOnRequest endpoints.socks5 split) :=
      .frame rfl
    dsimp only
    split
    · exact hregistered.trans (.awaitSettled hx)
    · exact hregistered.trans (.awaitCall hx)
  · split
    · exact .awaitSettled hx
    · exact .awaitCall hx

theorem Part.verifyRouting {task : Nat → Task} (hx : ∀ n q r, task n ≠ .asking q r) :
    Part api cuts t s (s.verifyRouting api t split task) := by
  unfold State.verifyRouting
  split
  · exact .awaitSettled hx
  · exact .awaitOptional hx

/-! ## `connect` -/

theorem Part.connectFailed (hc : cuts) : Part api cuts t s (s.connectFailed t c e) := by
  have hheld : Part api cuts t s { s with onRequestHandler := c.heldHandler } := .frame rfl
  let closed := State.closePort { s with onRequestHandler := c.heldHandler }
  have hended : Part api cuts t closed { closed with connecting := false } := .frame rfl
  exact ((hheld.trans (.closePort hc)).trans hended).trans (.settle _)

theorem Part.connectCatch (hc : c.hardened = false → cuts) :
    Part api cuts t s (s.connectCatch t c e) := by
  have hforgot : Part api cuts t s { s with endpoints := none, auth := none, source := none } :=
    .frame rfl
  unfold State.connectCatch
  dsimp only
  split
  · exact (hforgot.trans .removeOnRequestHandler).trans (.awaitCall fun _ _ _ => nofun)
  · next hhardened =>
    exact hforgot.trans (.connectFailed (hc (Bool.eq_false_of_not_eq_true hhardened)))

theorem Part.connectStart : Part api cuts t s (s.connectStart api t options) := by
  unfold State.connectStart
  split
  · exact .settle _
  · split
    · exact .settle _
    · have hbegun : Part api cuts t s { s with connecting := true, onRequestHandler := none } :=
        .frame rfl
      exact hbegun.trans (.awaitOptional fun _ _ _ => nofun)

theorem Part.connectRequest : Part api cuts t s (s.connectRequest api t native c) :=
  (Part.request native _).trans (.suspend fun _ _ => nofun)

/-- Whether the answer to its request lets a `connect` go on. -/
def Grants : TaskResult → Prop
  | .ok (.answer _ (.connect _ rawAuth _)) => ∃ auth, listenerAuth rawAuth = some auth
  | _ => False

/-- A `connect` that goes on from an await gives up there, once its `catch` has restored what it
had changed. -/
def GivesUp (api : ChromeLike) (s : State) (c : ConnectCall) : ConnectAwait → Prop
  | .assertProxyControl n => c.hardened = false ∧ ∃ r e, s.browserResults n = some r ∧
      proxyControl [.controllableByThisExtension, .controlledByThisExtension] r = .error e
  | .holdsLeakHardening n | .hardenPolicy _ n | .hardenPrediction _ n =>
    c.hardened = false ∧ ∃ e, s.browserResults n = some (.error e)
  | .isAllowedIncognitoAccess n => c.hardened = false ∧ ∃ r, s.browserResults n = some r ∧
      ∀ v, r = .ok v → v = .bool false ∨ api.onRequest = false
  | .request u => c.hardened = false ∧ ∃ r, s.results u = some r ∧ ¬ Grants r
  | .applyProxy _ n => c.hardened = false ∧ ∃ r e, s.browserResults n = some r ∧
      proxyApplied api c.split r = .error e
  | .verifyRouting _ n => c.hardened = false ∧ ∃ r, s.browserResults n = some r ∧
      ∀ d, proxyControl [.controlledByThisExtension] r = .ok d → s.portDead = true
  | .restoreSettings _ n => ∃ r, s.browserResults n = some r ∧
      ∀ v, r = .ok v → c.leaksHeld = true ∨ controlled c.before = true
  | .releasePolicy _ n => ∃ e, s.browserResults n = some (.error e)
  | .releasePrediction _ _ => True

theorem Part.connectControlled (hr : s.browserResults n = some r) :
    Part api (s.GivesUp api c (.assertProxyControl n)) t s (s.connectControlled api t c r) := by
  unfold State.connectControlled
  split
  · next e he => exact .connectCatch fun hc => ⟨hc, r, e, hr, he⟩
  · exact .awaitOptional fun _ _ _ => nofun

theorem Part.connectLeaksKnown (hr : s.browserResults n = some r) :
    Part api (s.GivesUp api c (.holdsLeakHardening n)) t s
      (s.connectLeaksKnown api t native c r) := by
  unfold State.connectLeaksKnown
  split
  · exact .connectCatch fun hc => ⟨hc, _, hr⟩
  · dsimp only
    split
    · exact .awaitOptional fun _ _ _ => nofun
    · exact .connectRequest

theorem Part.connectAccessKnown (hr : s.browserResults n = some r) :
    Part api (s.GivesUp api c (.isAllowedIncognitoAccess n)) t s
      (s.connectAccessKnown api t native c r) := by
  unfold State.connectAccessKnown
  split
  · exact .connectCatch fun hc => ⟨hc, _, hr, nofun⟩
  · split
    · next hv =>
      refine .connectCatch fun hc => ⟨hc, _, hr, fun v heq => ?_⟩
      cases heq
      exact .inl hv
    · split
      · exact .connectRequest
      · next hon =>
        refine .connectCatch fun hc => ⟨hc, _, hr, fun v _ => ?_⟩
        exact .inr (Bool.eq_false_of_not_eq_true hon)

theorem Part.connectAnswered (hr : s.results u = some r) :
    Part api (s.GivesUp api c (.request u)) t s (s.connectAnswered t c r) := by
  unfold State.connectAnswered
  split
  · exact .connectCatch fun hc => ⟨hc, _, hr, id⟩
  · split
    · next hnone =>
      refine .connectCatch fun hc => ⟨hc, _, hr, fun hgrants => ?_⟩
      obtain ⟨auth, hauth⟩ := hgrants
      cases hnone.symm.trans hauth
    · exact .awaitCall fun _ _ _ => nofun
  · next hother =>
    refine .connectCatch fun hc => ⟨hc, _, hr, fun hgrants => ?_⟩
    unfold Grants at hgrants
    split at hgrants
    · next port endpoints rawAuth exit heq =>
      exact hother port endpoints rawAuth exit (Except.ok.inj heq)
    · exact hgrants

theorem Part.connectPolicyHardened (hr : s.browserResults n = some r) :
    Part api (s.GivesUp api c (.hardenPolicy g n)) t s
      (s.connectPolicyHardened api t c g r) := by
  unfold State.connectPolicyHardened
  split
  · exact .connectCatch fun hc => ⟨hc, _, hr⟩
  · exact .awaitOptional fun _ _ _ => nofun

theorem Part.connectHardened (hr : s.browserResults n = some r) :
    Part api (s.GivesUp api c (.hardenPrediction g n)) t s (s.connectHardened api t c g r) := by
  unfold State.connectHardened
  split
  · exact .connectCatch fun hc => ⟨hc, _, hr⟩
  · dsimp only
    split
    · exact .connectCatch nofun
    · have htaken : Part api (s.GivesUp api c (.hardenPrediction g n)) t s { s with
          endpoints := some g.endpoints, auth := some g.auth, source := some g } := .frame rfl
      exact htaken.trans (.applyProxy fun _ _ _ => nofun)

theorem Part.connectApplied (hr : s.browserResults n = some r) :
    Part api (s.GivesUp api c (.applyProxy g n)) t s (s.connectApplied api t c g r) := by
  unfold State.connectApplied
  split
  · next e he => exact .connectCatch fun hc => ⟨hc, r, e, hr, he⟩
  · exact .verifyRouting fun _ _ _ => nofun

theorem Part.connectVerified (hr : s.browserResults n = some r) :
    Part api (s.GivesUp api c (.verifyRouting g n)) t s (s.connectVerified t c g r) := by
  unfold State.connectVerified
  split
  · next e he =>
    refine .connectCatch fun hc => ⟨hc, r, hr, fun d hd => ?_⟩
    cases he.symm.trans hd
  · split
    · next hdead => exact .connectCatch fun hc => ⟨hc, r, hr, fun _ _ => hdead⟩
    · refine .trans (.frame ?_) (.settle _)
      cases c.heldHandler <;> rfl

theorem Part.connectRestored (hr : s.browserResults n = some r) :
    Part api (s.GivesUp api c (.restoreSettings e n)) t s (s.connectRestored t c e r) := by
  unfold State.connectRestored
  split
  · exact .connectFailed ⟨_, hr, nofun⟩
  · split
    · exact .awaitCall fun _ _ _ => nofun
    · next hheld =>
      refine .connectFailed ⟨_, hr, fun v _ => ?_⟩
      simpa [imp_iff_not_or] using hheld

theorem Part.connectPolicyReleased (hr : s.browserResults n = some r) :
    Part api (s.GivesUp api c (.releasePolicy e n)) t s
      (s.connectPolicyReleased api t c e r) := by
  unfold State.connectPolicyReleased
  split
  · exact .connectFailed ⟨_, hr⟩
  · exact .awaitOptional fun _ _ _ => nofun

theorem Part.resumeConnect (h : s.resumeConnect api t native c a = some s') :
    Part api (s.GivesUp api c a) t s s' := by
  cases a with
  | assertProxyControl n =>
    obtain ⟨r, hr, rfl⟩ := Option.map_eq_some_iff.mp h
    exact .connectControlled hr
  | holdsLeakHardening n =>
    obtain ⟨r, hr, rfl⟩ := Option.map_eq_some_iff.mp h
    exact .connectLeaksKnown hr
  | isAllowedIncognitoAccess n =>
    obtain ⟨r, hr, rfl⟩ := Option.map_eq_some_iff.mp h
    exact .connectAccessKnown hr
  | request u =>
    obtain ⟨r, hr, rfl⟩ := Option.map_eq_some_iff.mp h
    exact .connectAnswered hr
  | hardenPolicy g n =>
    obtain ⟨r, hr, rfl⟩ := Option.map_eq_some_iff.mp h
    exact .connectPolicyHardened hr
  | hardenPrediction g n =>
    obtain ⟨r, hr, rfl⟩ := Option.map_eq_some_iff.mp h
    exact .connectHardened hr
  | applyProxy g n =>
    obtain ⟨r, hr, rfl⟩ := Option.map_eq_some_iff.mp h
    exact .connectApplied hr
  | verifyRouting g n =>
    obtain ⟨r, hr, rfl⟩ := Option.map_eq_some_iff.mp h
    exact .connectVerified hr
  | restoreSettings e n =>
    obtain ⟨r, hr, rfl⟩ := Option.map_eq_some_iff.mp h
    exact .connectRestored hr
  | releasePolicy e n =>
    obtain ⟨r, hr, rfl⟩ := Option.map_eq_some_iff.mp h
    exact .connectPolicyReleased hr
  | releasePrediction e n =>
    obtain ⟨r, hr, rfl⟩ := Option.map_eq_some_iff.mp h
    exact .connectFailed trivial

/-! ## `reconnect`, `disconnect` and `applySplit` -/

theorem Part.releaseHost (hc : cuts) : Part api cuts t s s.releaseHost := by
  have hforgot : Part api cuts t s { s with
      tunnelUp := false, endpoints := none, auth := none, exit := none, source := none } :=
    .frame rfl
  let closed := State.closePort { s with
      tunnelUp := false, endpoints := none, auth := none, exit := none, source := none }
  have hreleased : Part api cuts t closed { closed with releasing := false } := .frame rfl
  exact (hforgot.trans (.closePort hc)).trans hreleased

theorem Part.reconnectReleased (hc : cuts) :
    Part api cuts t s (s.reconnectReleased api t options) :=
  (Part.releaseHost hc).trans .connectStart

theorem Part.reconnectRelease (hc : cuts) :
    Part api cuts t s (s.reconnectRelease api t native options) := by
  have hreleasing : Part api cuts t s { s with releasing := true } := .frame rfl
  unfold State.reconnectRelease
  dsimp only
  split
  · exact (hreleasing.trans (.request native _)).trans (.suspend fun _ _ => nofun)
  · exact hreleasing.trans (.reconnectReleased hc)

theorem Part.reconnectStart (hc : cuts) :
    Part api cuts t s (s.reconnectStart api t native options) := by
  unfold State.reconnectStart
  split
  · exact .connectStart
  · split
    · exact .settle _
    · split
      · exact .awaitCall fun _ _ _ => nofun
      · exact .reconnectRelease hc

theorem Part.reconnectLocked (hc : cuts) :
    Part api cuts t s (s.reconnectLocked api t native options r) := by
  unfold State.reconnectLocked
  split
  · exact .settle _
  · exact .reconnectRelease hc

theorem Part.disconnectEnd (hc : cuts) : Part api cuts t s (s.disconnectEnd t r) :=
  (Part.releaseHost hc).trans (.settle r)

theorem Part.clearBrowserSettings : Part api cuts t s (s.clearBrowserSettings t) :=
  Part.removeOnRequestHandler.trans (.awaitCall fun _ _ _ => nofun)

theorem Part.disconnectStart : Part api cuts t s (s.disconnectStart api t native) := by
  have hreleasing : Part api cuts t s { s with releasing := true } := .frame rfl
  unfold State.disconnectStart
  dsimp only
  split
  · exact (hreleasing.trans (.request native _)).trans (.suspend fun _ _ => nofun)
  · exact hreleasing.trans .clearBrowserSettings

theorem Part.disconnectSettingsCleared (hc : cuts) :
    Part api cuts t s (s.disconnectSettingsCleared t r) := by
  unfold State.disconnectSettingsCleared
  split
  · exact .disconnectEnd hc
  · exact .awaitCall fun _ _ _ => nofun

theorem Part.disconnectPolicyCleared (hc : cuts) :
    Part api cuts t s (s.disconnectPolicyCleared api t r) := by
  unfold State.disconnectPolicyCleared
  split
  · exact .disconnectEnd hc
  · exact .awaitOptional fun _ _ _ => nofun

theorem Part.disconnectPredictionCleared (hc : cuts) :
    Part api cuts t s (s.disconnectPredictionCleared t r) := by
  have hcleared : Part api cuts t s { s with proxied := false } := .frame rfl
  unfold State.disconnectPredictionCleared
  split
  · exact .disconnectEnd hc
  · exact hcleared.trans (.disconnectEnd hc)

theorem Part.applySplitStart : Part api cuts t s (s.applySplitStart api t split) := by
  have haside : Part api cuts t s { s with onRequestHandler := none } := .frame rfl
  unfold State.applySplitStart
  split
  · exact haside.trans (.applyProxy fun _ _ _ => nofun)
  · exact .settle _

theorem Part.applySplitApplied :
    Part api cuts t s (s.applySplitApplied api t split previous r) := by
  unfold State.applySplitApplied
  split
  · exact .settle _
  · cases previous with
    | none => exact .verifyRouting fun _ _ _ => nofun
    | some handler =>
      have hremoved : Part api cuts t s (s.removeListener handler) := .frame rfl
      exact hremoved.trans (.verifyRouting fun _ _ _ => nofun)

theorem Part.applySplitVerified : Part api cuts t s (s.applySplitVerified t r) := by
  unfold State.applySplitVerified
  split
  · exact .settle _
  · exact .settle _

/-! ## Answers to requests -/

/-- What a hello resolves with that is not refused. -/
theorem helloAnswered_settles (h : helloRefused r = false) :
    ∃ x, s.helloAnswered t r = s.settle t x ∧
      ∀ v, x = .ok v → ∃ p d, r = .ok (p, .hello EXTENSION_PROTOCOL_VERSION d) := by
  unfold State.helloAnswered
  split
  · next p protocol d =>
    split
    · next heq =>
      subst heq
      exact ⟨_, rfl, fun _ _ => ⟨p, d, rfl⟩⟩
    · next hne => exact absurd h (by simp [helloRefused, hne])
  · next hother =>
    exfalso
    unfold helloRefused at h
    split at h
    · next p protocol d heq => exact hother p protocol d (Except.ok.inj heq)
    all_goals simp_all
  · next e =>
    split
    · next he => exact absurd h (by simp [helloRefused, he])
    · exact ⟨_, rfl, fun _ hx => by cases hx⟩
  · exact ⟨_, rfl, fun _ hx => by cases hx⟩

/-- A refused hello closes the port; any other end of it leaves the port alone. -/
theorem Part.helloAnswered (hc : helloRefused r = true → cuts) :
    Part api cuts t s (s.helloAnswered t r) := by
  cases href : helloRefused r with
  | true =>
    obtain ⟨e, he⟩ := helloAnswered_refused (s := s) (t := t) href
    rw [he]
    exact (Part.closePort (hc href)).trans (.settle _)
  | false =>
    obtain ⟨x, hx, -⟩ := helloAnswered_settles (s := s) (t := t) href
    rw [hx]
    exact .settle x

theorem Part.wake : Part api cuts t s (s.wake t) where
  toCalm := by
    refine .update rfl rfl rfl (Nat.le_refl _) (fun {u q r} hu => ?_) fun {u q r} hne _ hu => ?_
    · rcases eq_or_ne u t with rfl | hne
      · have hself : (s.wake u).tasks u = none := Function.update_self ..
        cases hself.symm.trans hu
      · exact (Function.update_of_ne hne ..).symm.trans hu
    · exact (Function.update_of_ne hne ..).trans hu
  talk hs := by
    refine ⟨.refl, hs.update hs rfl rfl rfl fun hne => ⟨?_, rfl⟩⟩
    exact Function.update_of_ne hne ..

/-- The answer that settled a request came in on the port it was posted on. -/
theorem Talking.answered_on (h : s.Talking api) (hsent : (p, m, body) ∈ s.sent)
    (hm : s.answers m = some (.ok (q, b))) : q = p := by
  obtain ⟨c, body', hsent', hown⟩ := h.inv.own hm
  obtain ⟨rfl, -⟩ := h.inv.eq_of_mem hsent hsent'
  rcases hown with ⟨response, -, heq⟩ | ⟨⟨message, heq⟩, -⟩
  · cases response with
    | ok id body => exact (Prod.mk.inj (Except.ok.inj heq)).1
    | error id code message => cases heq
  · cases heq

/-- The hello of the open port is answered. -/
theorem Talking.helloAnswered (h : s.Talking api) (ht : s.tasks t = some (.hello m))
    (hr : s.answers m = some r) :
    s.Says api ((s.wake t).helloAnswered t r) ∧ ((s.wake t).helloAnswered t r).Talking api := by
  have hlt : t < s.nextTask := by
    by_contra hle
    rw [(h.numbered (Nat.le_of_not_lt hle)).1] at ht
    cases ht
  by_cases hopen : ∃ p, s.On p ∧ s.handshake = some t
  · obtain ⟨p, hp, hhandshake⟩ := hopen
    cases href : helloRefused r with
    | true =>
      obtain ⟨e, he⟩ := helloAnswered_refused (s := s.wake t) (t := t) href
      rw [he]
      refine h.lose _ exchange_closePort (closePort_off (s := s.wake t)) rfl fun {u} hle => ?_
      have hne : u ≠ t := Nat.ne_of_gt (Nat.lt_of_lt_of_le hlt hle)
      exact ⟨Function.update_of_ne hne .., Function.update_of_ne hne ..⟩
    | false =>
      obtain ⟨x, hx, haccepted⟩ := helloAnswered_settles (s := s.wake t) (t := t) href
      rw [hx]
      refine ⟨.refl, h.inv, h.greets, fun {q} hq => ?_, fun {u} hle => ?_⟩
      · obtain ⟨n, hn, hnlt, k, rest, hsent, hstate⟩ := h.shaken hq
        cases hhandshake.symm.trans hn
        obtain rfl : k = m := by
          rcases hstate with ⟨htask, -⟩ | ⟨htask, -⟩
          · cases htask.symm.trans ht
            rfl
          · cases htask.symm.trans ht
        refine ⟨t, hn, hlt, k, rest, hsent, .inr ⟨?_, ⟨x, ?_⟩, fun v hv => ?_⟩⟩
        · exact Function.update_self ..
        · exact Function.update_self ..
        · have hself : ((s.wake t).settle t x).results t = some x := Function.update_self ..
          obtain ⟨q', d, rfl⟩ := haccepted v (Option.some.inj (hself.symm.trans hv))
          have hmem : (q, k, _) ∈ s.exchange.sent :=
            Exchange.mem_of_sentOn (hsent ▸ List.mem_cons_self)
          obtain rfl := h.answered_on hmem hr
          exact ⟨_, hr, d, rfl⟩
      · have hne : u ≠ t := Nat.ne_of_gt (Nat.lt_of_lt_of_le hlt hle)
        obtain ⟨htask, hresult⟩ := h.numbered hle
        exact ⟨(Function.update_of_ne hne ..).trans htask,
          (Function.update_of_ne hne ..).trans hresult⟩
  · have hspeaks : s.Speaks api t := ⟨h, hlt, fun {p} hp heq => hopen ⟨p, hp, heq⟩⟩
    have hpart : Part api True t s ((s.wake t).helloAnswered t r) :=
      Part.wake.trans (.helloAnswered fun _ => trivial)
    obtain ⟨hrun, hs⟩ := hpart.talk hspeaks
    exact ⟨hrun, hs.toTalking⟩

/-! ## Calls that go on -/

/-- Whether a call that goes on may close the port: a `connect` that gives up, the release of a host
by `reconnect` or `disconnect`, and a hello that is refused. -/
def MayCut (api : ChromeLike) (s : State) : Task → Prop
  | .connect c a => s.GivesUp api c a
  | .hello m => ∃ r, s.answers m = some r ∧ helloRefused r = true
  | .reconnectLockdown _ _ | .reconnectRelease _ _ | .disconnectRelease _ | .disconnectSettings _
  | .disconnectPolicy _ | .disconnectPrediction _ => True
  | _ => False

theorem Part.resume (hx : x.isPlain = true) (hs : s.resume api t native x = some s') :
    Part api (s.MayCut api x) t s s' := by
  cases x with
  | requestHandshake | asking => cases hx
  | connect c a => exact .resumeConnect hs
  | hello m =>
    obtain ⟨r, hr, rfl⟩ := Option.map_eq_some_iff.mp hs
    exact .helloAnswered fun href => ⟨r, hr, href⟩
  | requestAnswer m =>
    obtain ⟨r, -, rfl⟩ := Option.map_eq_some_iff.mp hs
    exact .settle _
  | reconnectLockdown options n =>
    obtain ⟨r, -, rfl⟩ := Option.map_eq_some_iff.mp hs
    exact .reconnectLocked trivial
  | reconnectRelease options r =>
    obtain ⟨r, -, rfl⟩ := Option.map_eq_some_iff.mp hs
    exact .reconnectReleased trivial
  | disconnectRelease r =>
    obtain ⟨r, -, rfl⟩ := Option.map_eq_some_iff.mp hs
    exact .clearBrowserSettings
  | disconnectSettings n =>
    obtain ⟨r, -, rfl⟩ := Option.map_eq_some_iff.mp hs
    exact .disconnectSettingsCleared trivial
  | disconnectPolicy n =>
    obtain ⟨r, -, rfl⟩ := Option.map_eq_some_iff.mp hs
    exact .disconnectPolicyCleared trivial
  | disconnectPrediction n =>
    obtain ⟨r, -, rfl⟩ := Option.map_eq_some_iff.mp hs
    exact .disconnectPredictionCleared trivial
  | applySplitProxy split previous n =>
    obtain ⟨r, -, rfl⟩ := Option.map_eq_some_iff.mp hs
    exact .applySplitApplied
  | applySplitVerify n =>
    obtain ⟨r, -, rfl⟩ := Option.map_eq_some_iff.mp hs
    exact .applySplitVerified

theorem Part.timeout (hs : s.timeout api t x = some s') : Part api (s.MayCut api x) t s s' := by
  cases x with
  | reconnectRelease options r =>
    cases hs
    exact .reconnectReleased trivial
  | disconnectRelease r =>
    cases hs
    exact .clearBrowserSettings
  | _ => cases hs

/-- A request that goes on from its handshake closes no port. -/
theorem Calm.requestHandshakeDone :
    Calm cuts t s (s.requestHandshakeDone t native body r) := by
  unfold State.requestHandshakeDone
  split
  · exact .settle _
  · split
    · exact .settle _
    · next u hsent =>
      have hsaid : Calm cuts t s u := .of_aside (send_aside hsent) (send_keeps hsent)
      exact hsaid.trans (.suspend fun _ _ => nofun)

theorem Speaks.questions (h : s.Speaks api t) (n : Nat) :
    Speaks api t { s with questions := n } where
  inv := h.inv
  greets := h.greets
  shaken := h.shaken
  numbered := h.numbered
  lt := h.lt
  other := h.other

theorem Speaks.finishAsking (h : s.Speaks api t) (q : Question) (r : TaskResult) :
    s.Says api (s.finishAsking t q r) ∧ (s.finishAsking t q r).Speaks api t := by
  have hasked : Speaks api t { s with questions := s.questions - 1 } := h.questions _
  unfold State.finishAsking
  dsimp only
  split
  · have hpart : Part api True t { s with questions := s.questions - 1 }
        (State.closePort { s with questions := s.questions - 1 }) := .closePort trivial
    obtain ⟨hrun, hclosed⟩ := hpart.talk hasked
    exact ⟨hrun, hclosed.settle hclosed _⟩
  · exact ⟨.refl, hasked.settle hasked _⟩

theorem Speaks.askStart (h : s.Speaks api t) (native : Bool) (q : Question) :
    s.Says api (s.askStart api t native q) ∧ (s.askStart api t native q).Speaks api t := by
  have hasked : Speaks api t { s with questions := s.questions + 1 } := h.questions _
  unfold State.askStart
  dsimp only
  split
  · split
    · exact hasked.finishAsking q _
    · next hopen =>
      obtain ⟨hrun, hgreeted⟩ := hasked.shakeHands hopen
      exact ⟨hrun, hgreeted.suspend hgreeted _⟩
  · next body _ =>
    have hpart : Part api True t { s with questions := s.questions + 1 }
        (State.request api native body { s with questions := s.questions + 1 }) :=
      .request native body
    obtain ⟨hrun, hrequested⟩ := hpart.talk hasked
    exact ⟨hrun, hrequested.suspend hrequested _⟩

/-- A message that is posted on the open port, once its own hello has gone through. -/
theorem Speaks.send (h : s.Speaks api t) (ho : s.portOpen = true) (hn : s.handshake = some n)
    (hr : s.results n = some (.ok v)) (hsent : s.send native body = .ok s') :
    s.Says api s' ∧ s'.Speaks api t := by
  obtain ⟨p, hp⟩ := on_of_portOpen ho
  obtain ⟨n', hn', hlt, m, rest, hfirst, hstate⟩ := h.shaken hp
  cases hn.symm.trans hn'
  cases (send_of_open ho native body).symm.trans hsent
  have haccepted : ∃ b, s.answers m = some b ∧ (exchangeRules api).accepts p b := by
    rcases hstate with ⟨-, hnone⟩ | ⟨-, -, haccepted⟩
    · cases hnone.symm.trans hr
    · exact haccepted v hr
  have hpolite : s.exchange.Polite (exchangeRules api) (.post body) := by
    intro c hc
    cases (current_exchange.mpr hp).symm.trans hc
    rw [hfirst]
    exact haccepted
  have hrun : s.Says api { s with
      nextId := s.nextId + 1
      pending := s.pending ++ [s.nextId]
      sent := s.sent ++ [(s.port.getD 0, s.nextId, body)] } :=
    .single hpolite (exchange_send ho body)
  obtain ⟨hinv, hgreets⟩ := Exchange.greets_run hrun h.inv h.greets
  refine ⟨hrun, ⟨hinv, hgreets, fun {q} hq => ?_, h.numbered⟩, h.lt, h.other⟩
  obtain ⟨n', hn', hlt', m', rest', hfirst', hstate'⟩ := h.shaken hq
  refine ⟨n', hn', hlt', m', rest' ++ if s.port.getD 0 = q then [(s.nextId, body)] else [], ?_,
    hstate'⟩
  refine (Exchange.sentOn_append s.exchange q (s.port.getD 0) s.nextId body).trans ?_
  rw [hfirst']
  rfl

/-- A request goes on from its handshake: the open port has its own hello gone through, or no host
attaches to another. -/
theorem Speaks.requestHandshakeDone (h : s.Speaks api t)
    (hopen : s.portOpen = true → ∃ n v, s.handshake = some n ∧ s.results n = some (.ok v))
    (hclosed : s.portOpen = false → native = false) (body : HostRequest) (v : TaskValue) :
    s.Says api (s.requestHandshakeDone t native body (.ok v)) ∧
      (s.requestHandshakeDone t native body (.ok v)).Speaks api t := by
  unfold State.requestHandshakeDone
  dsimp only
  cases ho : s.portOpen with
  | true =>
    obtain ⟨n, v, hn, hr⟩ := hopen ho
    obtain ⟨hrun, hs⟩ := h.send ho hn hr (send_of_open ho native body)
    rw [send_of_open ho]
    exact ⟨hrun, hs.suspend hs _⟩
  | false =>
    have hfails : ∃ e, s.send native body = .error e := by
      unfold State.send State.openPort
      simp [ho, hclosed ho]
    obtain ⟨e, he⟩ := hfails
    rw [he]
    exact ⟨.refl, h.settle h _⟩

end State

end WarrenSdk.Extension
