import WarrenSdk.Extension.Client.HostExchange

/-!
# The request protocol of a client

A client begins every port with its hello, says nothing else there before that hello has gone
through, and settles every request once. The one way to break it is a request that goes on after its
handshake when the port it shook hands on is gone: `send` opens another, and what it posts there is
the first thing that host hears. `HandshakeHolds` says that this does not happen.
-/

namespace WarrenSdk.Extension
open Lib

namespace State

/-- Where a request goes on after its handshake, the open port has its own hello gone through; when
none is open, no host attaches to another. -/
def HandshakeHolds (s : State) : Event → Prop
  | .resume t native => ∀ body h v, s.tasks t = some (.requestHandshake body h) →
    s.results h = some (.ok v) →
      (s.portOpen = true → ∃ n v, s.handshake = some n ∧ s.results n = some (.ok v)) ∧
        (s.portOpen = false → native = false)
  | _ => True

variable {api : ChromeLike} {s s' : State}

/-! ## What happens to the client -/

/-- A change that is not seen by the exchange, nor by the calls in flight. -/
theorem Talking.frame (h : s.Talking api) (hv : s'.talkView = s.talkView) : s'.Talking api := by
  simp only [talkView, Prod.mk.injEq] at hv
  obtain ⟨hx, hh, -, hn, ht, hr, -⟩ := hv
  refine ⟨hx ▸ h.inv, hx ▸ h.greets, fun hp => ?_, fun hle => ?_⟩
  · obtain ⟨n, hn', hlt, hshaken⟩ := h.shaken ((on_exchange hx).mp hp)
    exact ⟨n, hh.trans hn', hn ▸ hlt, hshaken.frame hx (congrFun ht n) (congrFun hr n)⟩
  · rw [ht, hr]
    exact h.numbered (hn ▸ hle)

theorem exchange_onMessage (api : ChromeLike) (hp : s.On p) (response : HostResponse) :
    Exchange.step (exchangeRules api) s.exchange (.deliver response.id response) =
      some (s.onMessage p (some (.response response))).exchange := by
  refine Option.map_eq_some_iff.mpr ⟨p, current_exchange.mpr hp, ?_⟩
  by_cases hid : response.id ∈ s.pending
  · have hid' : response.id ∈ s.exchange.pending := hid
    unfold Exchange.settle onMessage
    dsimp only
    rw [if_pos hid', if_pos hid]
    unfold exchange
    dsimp only
    rw [List.map_append]
    cases response <;> rfl
  · have hid' : response.id ∉ s.exchange.pending := hid
    unfold Exchange.settle onMessage
    dsimp only
    rw [if_neg hid', if_neg hid]
    unfold exchange
    dsimp only
    rw [List.map_append]
    rfl

/-- What is said by a host changes no call in flight. -/
theorem Talking.said (h : s.Talking api) (hsaid : s.Says api s')
    (hon : ∀ {p}, s'.On p → s.On p) (hsent : s'.sent = s.sent) (hh : s'.handshake = s.handshake)
    (hn : s'.nextTask = s.nextTask) (ht : s'.tasks = s.tasks) (hr : s'.results = s.results)
    (ha : ∀ {m b}, s.answers m = some b → s'.answers m = some b) : s'.Talking api := by
  obtain ⟨hinv, hgreets⟩ := Exchange.greets_run hsaid h.inv h.greets
  refine ⟨hinv, hgreets, fun {p} hp => ?_, fun hle => ?_⟩
  · obtain ⟨n, hn', hlt, m, rest, hfirst, hstate⟩ := h.shaken (hon hp)
    refine ⟨n, hh.trans hn', hn ▸ hlt, m, rest, ?_, ?_⟩
    · have hsentOn : s'.exchange.sentOn p = s.exchange.sentOn p :=
        congrArg (fun sent => (sent.filter (·.1 = p)).map (·.2)) hsent
      exact hsentOn.trans hfirst
    · rw [ht, hr]
      refine hstate.imp_right fun ⟨htask, hresult, haccepted⟩ => ⟨htask, hresult, fun v hv => ?_⟩
      obtain ⟨b, hb, haccepts⟩ := haccepted v hv
      exact ⟨b, ha hb, haccepts⟩
  · rw [ht, hr]
    exact h.numbered (hn ▸ hle)

theorem onMessage_eq (p : Nat) (message : Option HostMessage) :
    ∃ received pending answers,
      s.onMessage p message = { s with received, pending, answers } := by
  unfold onMessage
  split
  · dsimp only
    split
    · exact ⟨_, _, _, rfl⟩
    · exact ⟨_, s.pending, s.answers, rfl⟩
  · exact ⟨s.received, s.pending, s.answers, rfl⟩

/-- A host answers. -/
theorem Talking.onMessage (h : s.Talking api) (hp : s.On p) (message : Option HostMessage) :
    s.Says api (s.onMessage p message) ∧ (s.onMessage p message).Talking api := by
  cases message with
  | none => exact ⟨.refl, h⟩
  | some message =>
    cases message with
    | state => exact ⟨.refl, h⟩
    | response response =>
      have hstep := exchange_onMessage api hp response
      have hpolite : s.exchange.Polite (exchangeRules api) (.deliver response.id response) :=
        trivial
      have hsaid : s.Says api (s.onMessage p (some (.response response))) := .single hpolite hstep
      have ha : ∀ {m b}, s.answers m = some b →
          (s.onMessage p (some (.response response))).answers m = some b :=
        fun hb => Exchange.results_step h.inv hstep hb
      obtain ⟨received, pending, answers, heq⟩ := s.onMessage_eq p (some (.response response))
      rw [heq] at hsaid ha ⊢
      exact ⟨hsaid, h.said hsaid id rfl rfl rfl rfl rfl ha⟩

/-- The client once it knows the port `p` dead, but for the block of its listener. -/
def dead (p : Nat) (s : State) : State :=
  rejectPending "native messaging host disconnected" { s with
    live := Function.update s.live p false
    portDead := true
    tunnelUp := false
    auth := none
    exit := none }

theorem portDied_eq (api : ChromeLike) (p : Nat) :
    ∃ calls, s.portDied api p = { s.dead p with calls } := by
  unfold portDied
  dsimp only
  split
  · unfold blockReleasedListener
    split
    · exact ⟨_, rfl⟩
    · exact ⟨s.calls, rfl⟩
  · exact ⟨s.calls, rfl⟩

theorem exchange_dead (p : Nat) : Exchange.step (exchangeRules api) s.exchange
    (.lose (closed "native messaging host disconnected")) = some (s.dead p).exchange := by
  unfold exchange portOpen
  simp [Exchange.step, dead, rejectPending, closed]

theorem portDied_off (api : ChromeLike) (p q : Nat) : ¬ (s.portDied api p).On q := by
  obtain ⟨calls, heq⟩ := s.portDied_eq api p
  rw [heq]
  intro hq
  cases hq.2

/-- The host of a port dies. -/
theorem Talking.portDied (h : s.Talking api) (p : Nat) :
    s.Says api (s.portDied api p) ∧ (s.portDied api p).Talking api := by
  have hoff := s.portDied_off api p
  obtain ⟨calls, heq⟩ := s.portDied_eq api p
  rw [heq] at hoff ⊢
  exact h.lose _ (exchange_dead p) hoff rfl fun _ => ⟨rfl, rfl⟩

theorem liveOpen_portDied (h : s.LiveOpen) (hp : s.live p = true) :
    (s.portDied api p).LiveOpen := by
  intro q
  refine ⟨fun hlive => ?_, fun hq => absurd hq (portDied_off api p q)⟩
  obtain ⟨calls, heq⟩ := s.portDied_eq api p
  rw [heq] at hlive
  have hq : Function.update s.live p false q = true := hlive
  rcases eq_or_ne q p with rfl | hne
  · rw [Function.update_self] at hq
    cases hq
  · rw [Function.update_of_ne hne] at hq
    have hport := ((h q).mp hq).1.symm.trans ((h p).mp hp).1
    exact absurd (Option.some.inj hport) hne

theorem liveOpen_onMessage (h : s.LiveOpen) (p : Nat) (message : Option HostMessage) :
    (s.onMessage p message).LiveOpen := by
  obtain ⟨received, pending, answers, heq⟩ := s.onMessage_eq p message
  rw [heq]
  exact h

/-! ## Runs -/

theorem talking_initial (api : ChromeLike) (settings : Option ProxyValue) (policy : Option String)
    (prediction : Option Bool) : (initial settings policy prediction).Talking api where
  inv := Exchange.inv_start 1
  greets := Exchange.greets_start 1
  shaken hp := by cases hp.1
  numbered _ := ⟨rfl, rfl⟩

theorem liveOpen_initial (settings : Option ProxyValue) (policy : Option String)
    (prediction : Option Bool) : (initial settings policy prediction).LiveOpen := by
  intro p
  constructor
  · nofun
  · intro hp
    cases hp.1

/-- A call that is no hello is none of the open port's. -/
theorem Talking.speaks (h : s.Talking api) (ht : s.tasks t = some x)
    (hx : ∀ m, x ≠ .hello m) : s.Speaks api t where
  toTalking := h
  lt := by
    by_contra hle
    rw [(h.numbered (Nat.le_of_not_lt hle)).1] at ht
    cases ht
  other {p} hp heq := by
    obtain ⟨n, hn, -, m, rest, -, hstate⟩ := h.shaken hp
    cases heq.symm.trans hn
    rcases hstate with ⟨htask, -⟩ | ⟨htask, -⟩
    · exact hx m (Option.some.inj (ht.symm.trans htask))
    · cases ht.symm.trans htask

/-- A call goes on. -/
theorem Talking.resume (h : s.Talking api) (ht : s.tasks t = some x)
    (hg : s.HandshakeHolds (.resume t native))
    (hs : (s.wake t).resume api t native x = some s') : s.Says api s' ∧ s'.Talking api := by
  cases x with
  | hello m =>
    obtain ⟨r, hr, rfl⟩ := Option.map_eq_some_iff.mp hs
    exact h.helloAnswered ht hr
  | requestHandshake body n =>
    have hwake : Part api True t s (s.wake t) := .wake
    obtain ⟨-, hwoken⟩ := hwake.talk (h.speaks ht nofun)
    obtain ⟨r, hr, rfl⟩ := Option.map_eq_some_iff.mp hs
    cases r with
    | error e => exact ⟨.refl, (hwoken.settle hwoken _).toTalking⟩
    | ok v =>
      obtain ⟨hopen, hclosed⟩ := hg body n v ht hr
      obtain ⟨hsaid, hu⟩ := hwoken.requestHandshakeDone hopen hclosed body v
      exact ⟨hsaid, hu.toTalking⟩
  | asking q n =>
    have hwake : Part api True t s (s.wake t) := .wake
    obtain ⟨-, hwoken⟩ := hwake.talk (h.speaks ht nofun)
    obtain ⟨r, hr, rfl⟩ := Option.map_eq_some_iff.mp hs
    obtain ⟨hsaid, hu⟩ := hwoken.finishAsking q r
    exact ⟨hsaid, hu.toTalking⟩
  | _ =>
    obtain ⟨hsaid, hu⟩ := (Part.wake.trans (.resume rfl hs)).talk (h.speaks ht nofun)
    exact ⟨hsaid, hu.toTalking⟩

/-- One event, where the handshake holds. -/
theorem Talking.step (h : s.Talking api) (hl : s.LiveOpen) (hg : s.HandshakeHolds e)
    (hs : Extension.step api s e = some s') : s.Says api s' ∧ s'.Talking api := by
  have hstart {u : State} (hpart : Part api True s.nextTask
    { s with nextTask := s.nextTask + 1 } u) :
      s.Says api u ∧ u.Talking api := by
    obtain ⟨hsaid, hu⟩ := hpart.talk h.fresh
    exact ⟨hsaid, hu.toTalking⟩
  cases e with
  | connect options =>
    cases hs
    exact hstart .connectStart
  | reconnect options native =>
    cases hs
    exact hstart (.reconnectStart trivial)
  | disconnect native =>
    cases hs
    exact hstart .disconnectStart
  | applySplit split =>
    cases hs
    exact hstart .applySplitStart
  | ask q native =>
    cases hs
    obtain ⟨hsaid, hu⟩ := h.fresh.askStart native q
    exact ⟨hsaid, hu.toTalking⟩
  | resume t native =>
    obtain ⟨x, ht, hs⟩ := Option.bind_eq_some_iff.mp hs
    exact h.resume ht hg hs
  | timeout t =>
    obtain ⟨x, ht, hs⟩ := Option.bind_eq_some_iff.mp hs
    cases x with
    | reconnectRelease | disconnectRelease =>
      obtain ⟨hsaid, hu⟩ := (Part.wake.trans (.timeout hs)).talk (h.speaks ht nofun)
      exact ⟨hsaid, hu.toTalking⟩
    | _ => cases hs
  | browserAnswer n r =>
    simp only [Extension.step] at hs
    split at hs
    · next c _ =>
      split at hs
      · cases hs
        rw [takeEffect_eq]
        exact ⟨.refl, h.frame rfl⟩
      · cases hs
    · cases hs
  | message p m =>
    simp only [Extension.step] at hs
    split at hs
    · next hp =>
      cases hs
      exact h.onMessage ((hl p).mp hp) m
    · cases hs
  | death p =>
    simp only [Extension.step] at hs
    split at hs
    · next hp =>
      cases hs
      exact h.portDied p
    · cases hs

theorem liveOpen_finishAsking (h : s.LiveOpen) (q : Question) (r : TaskResult) :
    (s.finishAsking t q r).LiveOpen := by
  unfold finishAsking
  dsimp only
  split
  · exact liveOpen_closePort (s := { s with questions := s.questions - 1 }) h
  · exact h

theorem liveOpen_askStart (h : s.LiveOpen) (native : Bool) (q : Question) :
    (s.askStart api t native q).LiveOpen := by
  have hasked : LiveOpen { s with questions := s.questions + 1 } := h
  unfold askStart
  dsimp only
  split
  · split
    · exact liveOpen_finishAsking hasked q _
    · next u hopen =>
      exact (shakeHands_keeps api native).live ((openPort_keeps hopen).live hasked)
  · exact (request_keeps api native _).live hasked

/-- The ports a client holds open are those of the hosts that are attached. -/
theorem liveOpen_step (h : s.LiveOpen) (hs : Extension.step api s e = some s') : s'.LiveOpen := by
  have hstart {u : State} (hpart : Part api True s.nextTask
    { s with nextTask := s.nextTask + 1 } u) :
      u.LiveOpen := hpart.live h
  cases e with
  | connect options =>
    cases hs
    exact hstart .connectStart
  | reconnect options native =>
    cases hs
    exact hstart (.reconnectStart trivial)
  | disconnect native =>
    cases hs
    exact hstart .disconnectStart
  | applySplit split =>
    cases hs
    exact hstart .applySplitStart
  | ask q native =>
    cases hs
    exact liveOpen_askStart (s := { s with nextTask := s.nextTask + 1 }) h native q
  | resume t native =>
    obtain ⟨x, -, hs⟩ := Option.bind_eq_some_iff.mp hs
    have hwoken : (s.wake t).LiveOpen := h
    cases x with
    | requestHandshake body n =>
      obtain ⟨r, -, rfl⟩ := Option.map_eq_some_iff.mp hs
      have hcalm : Calm True t (s.wake t) ((s.wake t).requestHandshakeDone t native body r) :=
        .requestHandshakeDone
      exact hcalm.live hwoken
    | asking q n =>
      obtain ⟨r, -, rfl⟩ := Option.map_eq_some_iff.mp hs
      exact liveOpen_finishAsking hwoken q r
    | _ => exact (Part.resume rfl hs).live hwoken
  | timeout t =>
    obtain ⟨x, -, hs⟩ := Option.bind_eq_some_iff.mp hs
    exact (Part.timeout (s := s.wake t) hs).live h
  | browserAnswer n r =>
    simp only [Extension.step] at hs
    split at hs
    · split at hs
      · cases hs
        rw [takeEffect_eq]
        exact h
      · cases hs
    · cases hs
  | message p m =>
    simp only [Extension.step] at hs
    split at hs
    · cases hs
      exact liveOpen_onMessage h p m
    · cases hs
  | death p =>
    simp only [Extension.step] at hs
    split at hs
    · next hp =>
      cases hs
      exact liveOpen_portDied h hp
    · cases hs

/-- What the protocol promises of a state: every port begins with its own hello, with nothing more
before that was accepted; what is pending was posted on the port that is open; and no answer is
delivered to a request posted on another port. -/
structure KeepsProtocol (api : ChromeLike) (s : State) : Prop where
  greets : s.exchange.Greets (exchangeRules api)
  pending : ∀ m ∈ s.pending, ∃ p body, (p, m, body) ∈ s.sent ∧ s.On p ∧ s.live p = true
  own : ∀ m p b, s.answers m = some (.ok (p, b)) → ∃ body, (p, m, body) ∈ s.sent

theorem Talking.keepsProtocol (h : s.Talking api) (hl : s.LiveOpen) : s.KeepsProtocol api where
  greets := h.greets
  pending m hm := by
    obtain ⟨p, body, hcurrent, hsent⟩ := h.inv.posted hm
    have hp := current_exchange.mp hcurrent
    exact ⟨p, body, hsent, hp, (hl p).mpr hp⟩
  own m p b hm := by
    obtain ⟨c, body, hsent, -⟩ := h.inv.own hm
    obtain rfl := h.answered_on hsent hm
    exact ⟨body, hsent⟩

/-- Runs in which the handshakes hold. -/
theorem Talking.run (h : s.Talking api) (hl : s.LiveOpen)
    (hs : Run (Extension.step api) HandshakeHolds s s') :
    s.Says api s' ∧ s'.Talking api ∧ s'.LiveOpen := by
  refine hs.invariant (I := fun u => s.Says api u ∧ u.Talking api ∧ u.LiveOpen) ?_ ⟨.refl, h, hl⟩
  intro u e v hu hg hstep
  obtain ⟨hsaid, htalking, hlive⟩ := hu
  obtain ⟨hsaid', htalking'⟩ := htalking.step hlive hg hstep
  exact ⟨hsaid.trans hsaid', htalking', liveOpen_step hlive hstep⟩

/-- Wherever the handshakes hold, the protocol is kept: in every state, and between any two of a
run, every request is settled once, with the first answer that carries its number or with the loss
of its port. -/
theorem protocol_kept {settings : Option ProxyValue} {policy : Option String}
    {prediction : Option Bool}
    (h : Run (Extension.step api) HandshakeHolds (.initial settings policy prediction) s)
    (h' : Run (Extension.step api) HandshakeHolds s s') :
    s'.KeepsProtocol api ∧
      Exchange.Settles (exchangeRules api) s.exchange s'.exchange := by
  obtain ⟨-, htalking, hlive⟩ := (talking_initial api settings policy prediction).run
    (liveOpen_initial settings policy prediction) h
  obtain ⟨hsaid, htalking', hlive'⟩ := htalking.run hlive h'
  exact ⟨htalking'.keepsProtocol hlive', Exchange.settles_run hsaid htalking.inv⟩

/-- A question and a `disconnect` wait for one hello; the question, `datapath`, is done with it and
closes the port. -/
def portTakenAway : List Event := [
  .ask .datapath true,
  .disconnect true,
  .message 0 (some (.response (.ok 1 (.hello 3 none)))),
  .resume 1 true,
  .resume 0 true,
  .resume 3 true]

/-- A `status` shakes hands and posts its question. -/
theorem protocol_kept_status : ∃ s, Run (Extension.step chromium) HandshakeHolds
    (.initial none none none) s ∧ s.exchange.sentOn 0 = [(1, .hello 3 .prod), (2, .status)] ∧
      s.KeepsProtocol chromium := by
  have hrun : ∃ s, Run (Extension.step chromium) HandshakeHolds (.initial none none none) s ∧
      s.exchange.sentOn 0 = [(1, .hello 3 .prod), (2, .status)] := by
    have h₁ : Run (Extension.step chromium) HandshakeHolds (.initial none none none) _ :=
      .single (e := Event.ask .status true) trivial rfl
    have h₂ := h₁.tail (e := Event.message 0 (some (.response (.ok 1 (.hello 3 none)))))
      trivial rfl
    have h₃ := h₂.tail (e := Event.resume 2 true) (by rintro _ _ _ ⟨⟩) rfl
    have h₄ := h₃.tail (e := Event.resume 1 true)
      (by exact fun _ _ _ _ _ => ⟨fun _ => ⟨2, _, rfl, rfl⟩, nofun⟩) rfl
    exact ⟨_, h₄, rfl⟩
  obtain ⟨s, h, hsent⟩ := hrun
  exact ⟨s, h, hsent, (protocol_kept h .refl).1⟩

/-- The `disconnect` is the first thing that its new host hears. -/
theorem not_keepsProtocol_portTakenAway : ¬ Always (Extension.step chromium)
    (KeepsProtocol chromium) (.initial none none none) portTakenAway := by
  have hrun : ∃ s, exec (Extension.step chromium) (fun _ _ => true) (.initial none none none)
      portTakenAway = some s ∧ s.exchange.sentOn 1 = [(2, .disconnect)] := ⟨_, rfl, rfl⟩
  obtain ⟨s, hs, hsent⟩ := hrun
  intro h
  have hbegins := (h.exec hs).greets 1
  rw [hsent] at hbegins
  cases hbegins.1

end State

end WarrenSdk.Extension
