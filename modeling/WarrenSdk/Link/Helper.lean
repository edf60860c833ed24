import WarrenSdk.Link.Answers
import WarrenSdk.Link.Requests
import WarrenSdk.NativeHost.ServeSteps

/-!
# What a helper owes the requests of its port

Each call of the helper's session stands to the request it was begun for (`Serves`), so what it
sends is an answer to that request (`Serving.answers`). The tunnel that a `connect` was answered
with is stored, with its endpoints, until the helper is asked to disconnect or its session is closed
(`Serving.holds`).
-/

namespace WarrenSdk.Link
open Lib Extension
open NativeHost.HostSession (OwnInv Apart)
open NativeHost (HostSession Inner Call Message BackendCall Listeners HostError)

/-- The requests that a helper has begun to handle, with their calls and their ids. -/
abbrev Begun := List (Nat × Nat × HostRequest)

/-- The engine binds an HTTP listener where one is asked for. -/
def Binds (s : HostSession) : NativeHost.Event → Prop
  | .dialed t (.ok l) => ∀ id g n options, s.calls t = some (.dialing id g n) →
    .connect n options ∈ s.backend → options.httpProxy = some true →
      l.endpoints.http.isSome = true
  | _ => True

/-- How a suspended call stands to its request. -/
inductive Serves (backend : List BackendCall) (id : Nat) : HostRequest → Call → Prop
  | creating {options : NativeHost.ConnectOptions} (h : options.httpProxy = httpProxy) :
    Serves backend id (.connect mnemonic selector entrySelector httpProxy daita device)
      (.creating (.number id) g options)
  | dialing {options : NativeHost.ConnectOptions} (h : options.httpProxy = httpProxy)
      (hb : .connect n options ∈ backend) :
    Serves backend id (.connect mnemonic selector entrySelector httpProxy daita device)
      (.dialing (.number id) g n)
  | discarding (code message : String) :
    Serves backend id (.connect mnemonic selector entrySelector httpProxy daita device)
      (.discarding (.error (.number id) code message))
  | disconnecting : Serves backend id .disconnect (.disconnecting (.number id))
  | listing : Serves backend id .exits (.listing (.number id))
  | expiring (mnemonic : String) : Serves backend id (.account mnemonic) (.expiring (.number id))

/-- The endpoints that a message hands over. -/
def endpoints? : Message → Option NativeHost.Endpoints
  | .connect _ endpoints _ _ _ => some endpoints
  | _ => none

/-- What becomes of the stored tunnel where a part of a call hands over the endpoints given. -/
inductive Stores (body : HostRequest) (inner inner' : Inner) : Option NativeHost.Endpoints → Prop
  | kept (tunnel : inner'.tunnel = inner.tunnel) (endpoints : inner'.endpoints = inner.endpoints)
      (closed : inner'.closed = inner.closed) : Stores body inner inner' none
  | stored (empty : inner.tunnel = none) (tunnel : inner'.tunnel = some n)
      (endpoints : inner'.endpoints = some e) (closed : inner'.closed = inner.closed) :
    Stores body inner inner' (some e)
  | torn (h : body = .disconnect) (closed : inner'.closed = inner.closed) :
    Stores body inner inner' none

/-- What a part of the call `t` comes to: it is suspended again, or it has answered. -/
inductive Goes (id : Nat) (body : HostRequest) (t : Nat) (s s' : HostSession) : Prop
  | suspended (c : Call) (hc : s'.calls t = some c) (h : Serves s'.backend id body c)
      (hq : s'.outbox = s.outbox) (hi : Stores body s.inner s'.inner none)
  | answered (m : Message) (hc : s'.calls t = none) (h : Answers id body m)
      (hq : s'.outbox = s.outbox ++ [(some t, m)])
      (hi : Stores body s.inner s'.inner (endpoints? m))

variable {s s' u : HostSession} {id t : Nat} {body : HostRequest} {begun : Begun}
  {inner inner' : Inner}

/-! ## Parts of a call -/

theorem Serves.mono {backend backend' : List BackendCall} {c : Call} (h : Serves backend id body c)
    (hb : backend ⊆ backend') : Serves backend' id body c := by
  cases h with
  | creating h => exact .creating h
  | dialing h hmem => exact .dialing h (hb hmem)
  | discarding code message => exact .discarding code message
  | disconnecting => exact .disconnecting
  | listing => exact .listing
  | expiring mnemonic => exact .expiring mnemonic

theorem Goes.of_part (h : Goes id body t u s') (hq : u.outbox = s.outbox)
    (hi : u.inner = s.inner) : Goes id body t s s' := by
  cases h with
  | suspended c hc h hq' hi' => exact .suspended c hc h (hq'.trans hq) (hi ▸ hi')
  | answered m hc h hq' hi' => exact .answered m hc h (hq ▸ hq') (hi ▸ hi')

theorem Stores.refl : Stores body inner inner none := .kept rfl rfl rfl

theorem Goes.send {m : Message} (hf : s.calls t = none) (h : Answers id body m)
    (hm : endpoints? m = none) : Goes id body t s (s.send t m) :=
  .answered m hf h rfl (hm ▸ .refl)

theorem Goes.fail (hf : s.calls t = none) (hne : body.type ≠ "hello") (code : NativeHost.ErrorCode)
    (message : String) : Goes id body t s (s.fail t (.number id) code message) :=
  .send hf (.error hne _ _) rfl

section
variable {mnemonic : String} {selector : Option ExtensionExitQuery}
  {entrySelector : Option ExtensionEntryQuery} {httpProxy daita : Option Bool}
  {device : Option ExtensionDevice}

/-- A `connect` that fails shuts its tunnel down before it says so. -/
theorem Goes.discard {discard : Option Nat} (hf : s.calls t = none) (e : HostError)
    (ht : inner.tunnel = s.inner.tunnel) (he : inner.endpoints = s.inner.endpoints)
    (hcl : inner.closed = s.inner.closed) :
    Goes id (.connect mnemonic selector entrySelector httpProxy daita device) t s
      ({ s with inner }.answerConnect t discard (NativeHost.errorAnswer (.number id) e)) := by
  cases discard with
  | none =>
    refine .answered (.error (.number id) e.code.asStr e.message) hf (.error ?_ _ _) rfl
      (.kept ht he hcl)
    simp [HostRequest.type]
  | some n =>
    exact .suspended _ (Function.update_self ..) (.discarding e.code.asStr e.message) rfl
      (.kept ht he hcl)

/-- A dial that comes to its end answers its `connect`. -/
theorem Goes.settle {outcome : Except (Option Nat × HostError) (Nat × Listeners)}
    (hf : s.calls t = none) (hempty : s.inner.tunnel = none)
    (hok : ∀ n l, outcome = .ok (n, l) → l.username ≠ "" ∧ l.password ≠ "" ∧
      (httpProxy = some true → l.endpoints.http.isSome = true)) :
    Goes id (.connect mnemonic selector entrySelector httpProxy daita device) t s
      (s.settle t (.number id) g outcome) := by
  unfold HostSession.settle
  dsimp only
  split
  · next n l =>
    obtain ⟨hname, hpassword, hhttp⟩ := hok n l rfl
    split
    · exact .answered _ hf (.connect hname hpassword hhttp _) rfl (.stored hempty rfl rfl rfl)
    · exact .discard hf _ rfl rfl rfl
  · split
    · exact .discard hf _ rfl rfl rfl
    · exact .discard hf _ rfl rfl rfl

/-- Listeners without credentials are none. -/
theorem Goes.dialed {result : Except HostError Listeners} (hf : s.calls t = none)
    (hempty : s.inner.tunnel = none)
    (hhttp : ∀ l, result = .ok l → httpProxy = some true → l.endpoints.http.isSome = true) :
    Goes id (.connect mnemonic selector entrySelector httpProxy daita device) t s
      (s.dialed t (.number id) g n result) := by
  apply Goes.settle hf hempty
  intro m l hout
  cases result with
  | error e => cases hout
  | ok l' =>
    dsimp only at hout
    split at hout
    · cases hout
    · next hcredentials =>
      cases hout
      exact ⟨fun h => hcredentials (.inl h), fun h => hcredentials (.inr h), hhttp l rfl⟩

theorem Goes.tunnelCreated {options : NativeHost.ConnectOptions}
    {result : Except HostError Unit} (hf : s.calls t = none) (hempty : s.inner.tunnel = none)
    (hopt : options.httpProxy = httpProxy) :
    Goes id (.connect mnemonic selector entrySelector httpProxy daita device) t s
      (s.tunnelCreated t (.number id) g options result) := by
  unfold HostSession.tunnelCreated
  split
  · exact .settle hf hempty fun n l h => by cases h
  · refine .suspended _ (Function.update_self ..) (.dialing hopt ?_) rfl .refl
    exact List.mem_append_right _ (List.mem_singleton_self _)

end

theorem parseChannel_asStr (channel : ProductChannel) :
    ∃ c, NativeHost.parseChannel channel.asStr = some c := by
  cases channel with
  | prod => exact ⟨.prod, rfl⟩
  | beta => exact ⟨.beta, rfl⟩

/-- A request of the client's is handled as what it is. -/
theorem Goes.handle {request : NativeHost.Request} {route : NativeHost.TunnelRoute}
    (hr : Renders body request) (hversion : ∀ protocol channel,
      body = .hello protocol channel → protocol = EXTENSION_PROTOCOL_VERSION)
    (hf : s.calls t = none) :
    Goes id body t s (s.handle t { id := .number id, request } route) := by
  unfold HostSession.handle
  cases hr with
  | hello protocol channel =>
    obtain rfl := hversion protocol channel rfl
    obtain ⟨c, hc⟩ := parseChannel_asStr channel
    have hsame : some (NativeHost.Value.number EXTENSION_PROTOCOL_VERSION) =
        some (.number NativeHost.PROTOCOL_VERSION) := rfl
    unfold HostSession.hello
    dsimp only
    rw [if_pos hsame, hc]
    exact .answered _ hf (.hello channel) rfl (.kept rfl rfl rfl)
  | status =>
    dsimp only
    cases s.inner.tunnel with
    | none => exact .send hf (.status _ _ _ _) rfl
    | some n => cases route <;> exact .send hf (.status _ _ _ _) rfl
  | connect mnemonic selector entrySelector httpProxy daita device handoff =>
    dsimp only
    unfold HostSession.connect
    split
    · exact .fail hf (by simp [HostRequest.type]) _ _
    · split
      · exact .fail hf (by simp [HostRequest.type]) _ _
      · exact .suspended _ (Function.update_self ..) (.creating rfl) rfl (.kept rfl rfl rfl)
  | refused mnemonic selector entrySelector httpProxy daita device reason =>
    exact .fail hf (by simp [HostRequest.type]) _ _
  | disconnect =>
    dsimp only
    unfold HostSession.disconnect HostSession.teardown
    dsimp only
    cases s.inner.tunnel with
    | none => exact .answered _ hf .disconnect rfl (.torn rfl rfl)
    | some n => exact .suspended _ (Function.update_self ..) .disconnecting rfl (.torn rfl rfl)
  | exits => exact .suspended _ (Function.update_self ..) .listing rfl .refl
  | account mnemonic => exact .suspended _ (Function.update_self ..) (.expiring mnemonic) rfl .refl

/-- A call that goes on stands to its request as before, or answers it. -/
theorem Goes.step {e : NativeHost.Event} {c : Call} (ho : OwnInv none s)
    (hs : NativeHost.step s e = some s') (hact : s.actor e = some t) (hc : s.calls t = some c)
    (hserves : Serves s.backend id body c) (hbinds : Binds s e) : Goes id body t s s' := by
  have hf : (s.wake t).calls t = none := Function.update_self ..
  have hnew : s.nextCall ≠ t := Nat.ne_of_gt (ho.call_lt (by rw [hc]; exact Option.some_ne_none c))
  have hempty {g : Nat} (hg : c.generation? = some g) : (s.wake t).inner.tunnel = none :=
    ho.empty (ho.connecting hc hg).1
  cases e with
  | handle envelope route => exact absurd (Option.some.inj hact) hnew
  | close => exact absurd (Option.some.inj hact) hnew
  | state generation state => cases hact
  | created t' result =>
    cases hact
    unfold NativeHost.step at hs
    dsimp only at hs
    rw [hc] at hs
    cases hserves with
    | creating h =>
      cases hs
      exact (Goes.tunnelCreated hf (hempty rfl) h).of_part rfl rfl
    | _ => cases hs
  | dialed t' result =>
    cases hact
    unfold NativeHost.step at hs
    dsimp only at hs
    rw [hc] at hs
    cases hserves with
    | dialing h hb =>
      cases hs
      refine (Goes.dialed hf (hempty rfl) fun l hl hhttp => ?_).of_part rfl rfl
      subst hl
      exact hbinds _ _ _ _ hc hb (h.trans hhttp)
    | _ => cases hs
  | shutDown t' =>
    cases hact
    unfold NativeHost.step at hs
    dsimp only at hs
    rw [hc] at hs
    cases hserves with
    | discarding code message =>
      cases hs
      exact .answered _ hf (.error (by simp [HostRequest.type]) code message) rfl .refl
    | disconnecting =>
      cases hs
      exact .answered _ hf .disconnect rfl .refl
    | _ => cases hs
  | listed t' result =>
    cases hact
    unfold NativeHost.step at hs
    dsimp only at hs
    rw [hc] at hs
    cases hserves with
    | listing =>
      cases hs
      cases result with
      | ok locations => exact .answered _ hf (.exits locations) rfl .refl
      | error e => exact .answered _ hf (.error (by simp [HostRequest.type]) _ _) rfl .refl
    | _ => cases hs
  | expiry t' result =>
    cases hact
    unfold NativeHost.step at hs
    dsimp only at hs
    rw [hc] at hs
    cases hserves with
    | expiring mnemonic =>
      cases hs
      cases result with
      | ok expiresAt => exact .answered _ hf (.account mnemonic expiresAt) rfl .refl
      | error e => exact .answered _ hf (.error (by simp [HostRequest.type]) _ _) rfl .refl
    | _ => cases hs

/-! ## Every part -/

/-- The helper was asked to let its tunnel go, or its session is closed. -/
def Torn (begun : Begun) (s : HostSession) : Prop :=
  s.inner.closed = true ∨ ∃ t id, (t, id, .disconnect) ∈ begun

/-- A session whose calls are those begun for requests, and the ones that close it. -/
structure Serving (begun : Begun) (s : HostSession) : Prop where
  own : OwnInv none s
  suspended : ∀ {t c}, s.calls t = some c →
    c = .closing ∨ ∃ id body, (t, id, body) ∈ begun ∧ Serves s.backend id body c
  answers : ∀ {t m}, (some t, m) ∈ s.outbox →
    ∃ id body, (t, id, body) ∈ begun ∧ Answers id body m
  reports : ∀ {m}, (none, m) ∈ s.outbox → ∃ state, m = .state state
  /-- What a `connect` was answered with is held. -/
  holds : ∀ {t m e}, (some t, m) ∈ s.outbox → endpoints? m = some e →
    Torn begun s ∨ (∃ n, s.inner.tunnel = some n) ∧ s.inner.endpoints = some e

theorem Serving.new : Serving [] {} where
  own := .new
  suspended h := by cases h
  answers h := (List.not_mem_nil h).elim
  reports h := (List.not_mem_nil h).elim
  holds h := (List.not_mem_nil h).elim

theorem Torn.mono {begun' : Begun} (h : Torn begun s) (hb : begun ⊆ begun')
    (hc : s.inner.closed = true → s'.inner.closed = true) : Torn begun' s' := by
  rcases h with h | ⟨t, id, h⟩
  · exact .inl (hc h)
  · exact .inr ⟨t, id, hb h⟩

theorem backend_answerConnect {discard : Option Nat} {m : Message} :
    (s.answerConnect t discard m).backend = s.backend := by
  cases discard <;> rfl

theorem backend_settle {id : NativeHost.Value}
    {outcome : Except (Option Nat × HostError) (Nat × Listeners)} :
    (s.settle t id g outcome).backend = s.backend := by
  unfold HostSession.settle
  dsimp only
  split
  · split
    · rfl
    · exact backend_answerConnect
  · exact backend_answerConnect

theorem backend_handle {envelope : NativeHost.Envelope} {route : NativeHost.TunnelRoute} :
    s.backend ⊆ (s.handle t envelope route).backend := by
  obtain ⟨id, request⟩ := envelope
  unfold HostSession.handle
  cases request with
  | hello protocol channel =>
    dsimp only
    unfold HostSession.hello
    split
    · split
      · exact List.Subset.refl _
      · split <;> exact List.Subset.refl _
      · exact List.Subset.refl _
    · exact List.Subset.refl _
  | connect request =>
    dsimp only
    unfold HostSession.connect
    split
    · exact List.Subset.refl _
    · split
      · exact List.Subset.refl _
      · exact List.subset_append_left ..
  | disconnect =>
    dsimp only
    unfold HostSession.disconnect HostSession.teardown
    dsimp only
    cases s.inner.tunnel <;> exact List.Subset.refl _
  | status | refused => exact List.Subset.refl _
  | exits | account => exact List.subset_append_left ..

/-- What the backend was asked stays on record. -/
theorem backend_step {e : NativeHost.Event} (hs : NativeHost.step s e = some s') :
    s.backend ⊆ s'.backend := by
  rcases NativeHost.step_cases hs with ⟨envelope, route, rfl, rfl⟩ | ⟨rfl, rfl⟩ |
    ⟨g, state, rfl, rfl⟩ | ⟨t, c, hact, hc, hr⟩
  · exact backend_handle (s := { s with nextCall := s.nextCall + 1 })
  · unfold HostSession.close HostSession.teardown
    dsimp only
    cases s.inner.tunnel <;> exact List.Subset.refl _
  · unfold HostSession.stateSink
    split <;> exact List.Subset.refl _
  · cases hr with
    | created =>
      unfold HostSession.tunnelCreated
      split
      · rw [backend_settle]
        exact List.Subset.refl _
      · exact List.subset_append_left ..
    | dialed =>
      unfold HostSession.dialed
      rw [backend_settle]
      exact List.Subset.refl _
    | _ => exact List.Subset.refl _

/-- A part of a call that was begun for a request. -/
theorem Serving.goes {begun' : Begun} {e : NativeHost.Event} (h : Serving begun s)
    (hs : NativeHost.step s e = some s') (hact : s.actor e = some t) (hb : begun ⊆ begun')
    (hmem : (t, id, body) ∈ begun') (hgoes : Goes id body t s s') : Serving begun' s' := by
  have hbackend := backend_step hs
  have hcalls {u : Nat} {c : Call} (hne : u ≠ t) (hc : s'.calls u = some c) :
      c = .closing ∨ ∃ id body, (u, id, body) ∈ begun' ∧ Serves s'.backend id body c := by
    have hactor : s.actor e ≠ some u := fun heq => hne (Option.some.inj (heq.symm.trans hact))
    rw [(Apart.step h.own hs hactor).calls] at hc
    rcases h.suspended hc with hclosing | ⟨id, body, hbegun, hserves⟩
    · exact .inl hclosing
    · exact .inr ⟨id, body, hb hbegun, hserves.mono hbackend⟩
  have hanswers {u : Nat} {m : Message} (hm : (some u, m) ∈ s.outbox) :
      ∃ id body, (u, id, body) ∈ begun' ∧ Answers id body m := by
    obtain ⟨id, body, hbegun, hm⟩ := h.answers hm
    exact ⟨id, body, hb hbegun, hm⟩
  have hholds {u : Nat} {m : Message} {e : NativeHost.Endpoints}
    {sent : Option NativeHost.Endpoints}
      (hi : Stores body s.inner s'.inner sent) (hm : (some u, m) ∈ s.outbox)
      (he : endpoints? m = some e) :
      Torn begun' s' ∨ (∃ n, s'.inner.tunnel = some n) ∧ s'.inner.endpoints = some e := by
    rcases h.holds hm he with htorn | ⟨⟨n, hn⟩, hendpoints⟩
    · cases hi with
      | kept _ _ closed => exact .inl (htorn.mono hb fun hc => closed.trans hc)
      | stored _ _ _ closed => exact .inl (htorn.mono hb fun hc => closed.trans hc)
      | torn _ closed => exact .inl (htorn.mono hb fun hc => closed.trans hc)
    · cases hi with
      | kept tunnel endpoints _ => exact .inr ⟨⟨n, tunnel.trans hn⟩, endpoints.trans hendpoints⟩
      | stored empty => cases empty.symm.trans hn
      | torn hbody =>
        subst hbody
        exact .inl (.inr ⟨t, id, hmem⟩)
  cases hgoes with
  | suspended c hc hserves hq hi =>
    refine ⟨h.own.step hs, fun {u c'} hu => ?_, ?_, ?_, ?_⟩
    · rcases eq_or_ne u t with rfl | hne
      · cases hc.symm.trans hu
        exact .inr ⟨id, body, hmem, hserves⟩
      · exact hcalls hne hu
    · rw [hq]
      exact hanswers
    · rw [hq]
      exact h.reports
    · rw [hq]
      exact hholds hi
  | answered m hc hm hq hi =>
    refine ⟨h.own.step hs, fun {u c'} hu => ?_, fun {u m'} hu => ?_, fun {m'} hu => ?_,
      fun {u m' e'} hu he => ?_⟩
    · rcases eq_or_ne u t with rfl | hne
      · cases hc.symm.trans hu
      · exact hcalls hne hu
    · rw [hq] at hu
      rcases List.mem_append.mp hu with hu | hu
      · exact hanswers hu
      · cases List.mem_singleton.mp hu
        exact ⟨id, body, hmem, hm⟩
    · rw [hq] at hu
      rcases List.mem_append.mp hu with hu | hu
      · exact h.reports hu
      · cases List.mem_singleton.mp hu
    · rw [hq] at hu
      rcases List.mem_append.mp hu with hu | hu
      · exact hholds hi hu he
      · cases List.mem_singleton.mp hu
        rw [he] at hi
        cases hi with
        | stored _ tunnel endpoints _ => exact .inr ⟨⟨_, tunnel⟩, endpoints⟩

/-- A request is begun. -/
theorem Serving.handle {request : NativeHost.Request} {route : NativeHost.TunnelRoute}
    (h : Serving begun s) (hr : Renders body request) (hversion : ∀ protocol channel,
      body = .hello protocol channel → protocol = EXTENSION_PROTOCOL_VERSION)
    (hs : NativeHost.step s (.handle { id := .number id, request } route) = some s') :
    Serving (begun ++ [(s.nextCall, id, body)]) s' := by
  have hfree : s.calls s.nextCall = none := by
    by_contra hc
    exact Nat.lt_irrefl _ (h.own.call_lt hc)
  refine h.goes hs rfl (List.subset_append_left ..)
    (List.mem_append_right _ (List.mem_singleton_self _)) ?_
  cases hs
  have hgoes : Goes id body s.nextCall { s with nextCall := s.nextCall + 1 }
      ({ s with nextCall := s.nextCall + 1 }.handle s.nextCall
        { id := .number id, request } route) := .handle hr hversion hfree
  exact hgoes.of_part rfl rfl

theorem Serving.close (h : Serving begun s) (hs : NativeHost.step s .close = some s') :
    Serving begun s' := by
  have hbackend := backend_step hs
  have hclosed : s'.inner.closed = true := by
    cases hs
    exact HostSession.closed_close _ _
  have hout : s'.outbox = s.outbox := by
    cases hs
    exact HostSession.Calls.outbox_close
  have hfree : s.calls s.nextCall = none := by
    by_contra hc
    exact Nat.lt_irrefl _ (h.own.call_lt hc)
  refine ⟨h.own.step hs, fun {t c} hc => ?_, ?_, ?_, fun _ _ => .inl (.inl hclosed)⟩
  · rcases eq_or_ne t s.nextCall with rfl | hne
    · have hself : s'.calls s.nextCall = none ∨ s'.calls s.nextCall = some .closing := by
        cases hs
        exact HostSession.Calls.calls_close hfree
      exact .inl (Option.some.inj (hc.symm.trans (hself.resolve_left (by rw [hc]; simp))))
    · have hactor : s.actor .close ≠ some t := fun heq => hne (Option.some.inj heq).symm
      rw [(Apart.step h.own hs hactor).calls] at hc
      rcases h.suspended hc with hclosing | ⟨id, body, hbegun, hserves⟩
      · exact .inl hclosing
      · exact .inr ⟨id, body, hbegun, hserves.mono hbackend⟩
  · rw [hout]
    exact h.answers
  · rw [hout]
    exact h.reports

theorem Serving.stateSink {g : Nat} {state : NativeHost.HostState} (h : Serving begun s)
    (hs : NativeHost.step s (.state g state) = some s') : Serving begun s' := by
  have hown := h.own.step hs
  cases hs
  unfold HostSession.stateSink at hown ⊢
  split
  · exact h
  · next hcurrent =>
    rw [if_neg hcurrent] at hown
    refine ⟨hown, h.suspended, fun {t m} hm => ?_, fun {m} hm => ?_, fun {t m e} hm => ?_⟩
    · rcases List.mem_append.mp hm with hm | hm
      · exact h.answers hm
      · cases List.mem_singleton.mp hm
    · rcases List.mem_append.mp hm with hm | hm
      · exact h.reports hm
      · cases List.mem_singleton.mp hm
        exact ⟨state, rfl⟩
    · rcases List.mem_append.mp hm with hm | hm
      · exact h.holds hm
      · cases List.mem_singleton.mp hm

/-- The session is closed for good. -/
theorem Serving.wake {e : NativeHost.Event} (h : Serving begun s)
    (hs : NativeHost.step s e = some (s.wake t)) : Serving begun (s.wake t) where
  own := h.own.step hs
  suspended {u c} hc := by
    rcases eq_or_ne u t with rfl | hne
    · have hself : (s.wake u).calls u = none := Function.update_self ..
      cases hself.symm.trans hc
    · have hsame : (s.wake t).calls u = s.calls u := Function.update_of_ne hne ..
      exact h.suspended (hsame.symm.trans hc)
  answers := h.answers
  reports := h.reports
  holds := h.holds

/-- The session goes on by itself. -/
theorem Serving.step {e : NativeHost.Event} (h : Serving begun s)
    (hhandle : ∀ envelope route, e ≠ .handle envelope route) (hbinds : Binds s e)
    (hs : NativeHost.step s e = some s') : Serving begun s' := by
  rcases NativeHost.step_cases hs with ⟨envelope, route, rfl, -⟩ | ⟨rfl, -⟩ |
    ⟨g, state, rfl, rfl⟩ | ⟨t, c, hact, hc, hr⟩
  · exact absurd rfl (hhandle envelope route)
  · exact h.close hs
  · exact h.stateSink hs
  · rcases h.suspended hc with rfl | ⟨id, body, hbegun, hserves⟩
    · cases hr
      exact h.wake hs
    · exact h.goes hs hact (List.Subset.refl _) hbegun (.step h.own hs hact hc hserves hbinds)

end WarrenSdk.Link
