import Mathlib.Logic.Function.Basic
import Mathlib.Data.Rat.Defs

/-!
# The session of the native host (`session.rs`)

One browser connection. `serve` polls every `handle` on one task, so a handle runs undisturbed from
one of its awaits to the next; between two awaits of a `connect` anything else may be handled. A
handle that is suspended is a `Call`, and `step` runs one event: a request handled or the session
closed, an await of a call completed by the backend, or a state event of some tunnel's reporter. The
backend's tunnels are numbered in the order it creates them.
-/

namespace WarrenSdk.NativeHost

inductive ErrorCode
  | protocol
  | alreadyConnected
  | tunnel
  | api
  | discovery
  | config
  | unsupported
  | identity
  | server
  | transport
  | allHostsBlocked
  | response
  | badClock
  | deviceRevoked
  | deviceLimit
deriving DecidableEq, Repr

def ErrorCode.asStr : ErrorCode → String
  | .protocol => "protocol"
  | .alreadyConnected => "already_connected"
  | .tunnel => "tunnel"
  | .api => "api"
  | .discovery => "discovery"
  | .config => "config"
  | .unsupported => "unsupported"
  | .identity => "identity"
  | .server => "server"
  | .transport => "transport"
  | .allHostsBlocked => "all_hosts_blocked"
  | .response => "response"
  | .badClock => "bad_clock"
  | .deviceRevoked => "device_revoked"
  | .deviceLimit => "device_limit"

structure HostError where
  code : ErrorCode
  message : String
deriving DecidableEq, Repr

/-- A JSON value, as far as a request's `id`, `protocol` and `channel` are looked at. -/
inductive Value
  | number (value : Rat)
  | string (value : String)
  | other
deriving DecidableEq

inductive Channel
  | prod
  | beta
deriving DecidableEq, Repr

def PROTOCOL_VERSION : Nat := 3

def parseChannel (name : String) : Option Channel :=
  if name = "prod" then some .prod else if name = "beta" then some .beta else none

inductive HostState
  | connecting
  | connected
  | reconnecting
  | draining
  | failed
  | disconnected
deriving DecidableEq, Repr

structure ExitQuery where
  exitPubkeyHex : Option String := none
  country : Option String := none
  city : Option String := none
deriving DecidableEq, Repr

structure EntryQuery where
  country : Option String := none
  city : Option String := none
deriving DecidableEq, Repr

structure DeviceHandoff where
  id : String
  name : String
  appVersion : String
deriving DecidableEq, Repr

structure ConnectRequest where
  mnemonic : String
  selector : Option ExitQuery := none
  entrySelector : Option EntryQuery := none
  httpProxy : Option Bool := none
  daita : Option Bool := none
  device : Option DeviceHandoff := none
deriving DecidableEq, Repr

inductive Request
  | hello (protocol channel : Option Value)
  | status
  | connect (request : ConnectRequest)
  | disconnect
  | exits
  | account (mnemonic : String)
  | refused (reason : String)
deriving DecidableEq

/-- A request and the id its answer must echo. -/
structure Envelope where
  id : Value
  request : Request
deriving DecidableEq

structure Endpoints where
  socks5 : String
  http : Option String := none
deriving DecidableEq, Repr

structure TunnelExit where
  country : String
  city : String
deriving DecidableEq, Repr

structure ExitLocation where
  country : String
  city : String
  active : Bool
deriving DecidableEq, Repr

/-- Tunnel options that cannot wait for connect. -/
structure TunnelInit where
  daita : Option Bool
  channel : Option Channel
  device : Option DeviceHandoff
deriving DecidableEq, Repr

structure ConnectOptions where
  selector : Option ExitQuery
  entrySelector : Option EntryQuery
  httpProxy : Option Bool
deriving DecidableEq, Repr

/-- What a connected tunnel hands back: its listeners and the credentials they demand. -/
structure Listeners where
  endpoints : Endpoints
  username : String
  password : String
  exit : Option TunnelExit
deriving DecidableEq, Repr

/-- Whose tunnel carries the clients of a connected tunnel's listeners. -/
inductive TunnelRoute
  | own
  | system (exit : Option TunnelExit)
deriving DecidableEq, Repr

/-- What the session sends: answers, and state events. -/
inductive Message
  | hello (id : Value)
  | status (id : Value) (state : HostState) (endpoints : Option Endpoints)
      (exit : Option TunnelExit) (viaSystem : Bool)
  | connect (id : Value) (endpoints : Endpoints) (username password : String)
      (exit : Option TunnelExit)
  | disconnect (id : Value)
  | exits (id : Value) (locations : List ExitLocation)
  | account (id : Value) (expiresAt : Nat)
  | error (id : Value) (code message : String)
  | state (state : HostState)
deriving DecidableEq

def Message.isError : Message → Bool
  | .error _ _ _ => true
  | _ => false

/-- While the helper stands aside behind the system tunnel, its own exit carries no traffic. -/
def statusAnswer (id : Value) (state : HostState) (endpoints : Option Endpoints)
    (ownExit : Option TunnelExit) : TunnelRoute → Message
  | .own => .status id state endpoints ownExit false
  | .system systemExit => .status id state endpoints systemExit true

def errorAnswer (id : Value) (e : HostError) : Message := .error id e.code.asStr e.message

/-- What the mutex guards. `generation` is a `u64` in the source, which a connection does not live
long enough to exhaust. -/
structure Inner where
  state : HostState := .disconnected
  endpoints : Option Endpoints := none
  exit : Option TunnelExit := none
  tunnel : Option Nat := none
  connecting : Bool := false
  closed : Bool := false
  channel : Option Channel := none
  generation : Nat := 0

/-- A handle in flight, by the await it is suspended at. -/
inductive Call
  /-- A `connect` at `create_tunnel`. -/
  | creating (id : Value) (generation : Nat) (options : ConnectOptions)
  /-- A `connect` at the dial of its tunnel. -/
  | dialing (id : Value) (generation tunnel : Nat)
  /-- A `connect` at the shutdown of a tunnel that must not live, with the answer it then sends. -/
  | discarding (answer : Message)
  | disconnecting (id : Value)
  | closing
  | listing (id : Value)
  | expiring (id : Value)
deriving DecidableEq

/-- What the session asks of its backend. -/
inductive BackendCall
  | createTunnel (mnemonic : String) (generation : Nat) (init : TunnelInit)
  | connect (tunnel : Nat) (options : ConnectOptions)
  | listExits (channel : Option Channel)
  | accountExpiry (mnemonic : String) (channel : Option Channel)
deriving DecidableEq

structure HostSession where
  inner : Inner := {}
  calls : Nat → Option Call := fun _ => none
  nextCall : Nat := 0
  /-- Tunnel `n` was created for the call `created[n]`. -/
  created : List Nat := []
  /-- The tunnels handed to `shutdown`, in order. -/
  shutdowns : List Nat := []
  backend : List BackendCall := []
  /-- What was sent, each answer with the call that sent it. -/
  outbox : List (Option Nat × Message) := []

namespace HostSession

def send (t : Nat) (m : Message) (s : HostSession) : HostSession :=
  { s with outbox := s.outbox ++ [(some t, m)] }

def fail (t : Nat) (id : Value) (code : ErrorCode) (message : String) (s : HostSession) :
    HostSession :=
  s.send t (errorAnswer id { code, message })

def suspend (t : Nat) (c : Call) (s : HostSession) : HostSession :=
  { s with calls := Function.update s.calls t (some c) }

/-- Takes the call `t` off the suspended ones, to run it. -/
def wake (t : Nat) (s : HostSession) : HostSession :=
  { s with calls := Function.update s.calls t none }

/-- `shutdown` of the tunnel `n`, on which `t` is then suspended. -/
def shutdown (t n : Nat) (c : Call) (s : HostSession) : HostSession :=
  { s with shutdowns := s.shutdowns ++ [n] }.suspend t c

def hello (t : Nat) (id : Value) (protocol channel : Option Value) (s : HostSession) :
    HostSession :=
  if protocol = some (.number PROTOCOL_VERSION) then
    match channel with
    | none => { s with inner := { s.inner with channel := none } }.send t (.hello id)
    | some (.string name) =>
      match parseChannel name with
      | some channel =>
        { s with inner := { s.inner with channel := some channel } }.send t (.hello id)
      | none => s.fail t id .protocol "unknown release channel"
    | some _ => s.fail t id .protocol "unknown release channel"
  else s.fail t id .protocol "unsupported protocol version"

/-- `connect` up to `create_tunnel`. -/
def connect (t : Nat) (id : Value) (request : ConnectRequest) (s : HostSession) : HostSession :=
  if s.inner.closed then s.fail t id .tunnel "the helper is shutting down"
  else if s.inner.connecting || s.inner.tunnel.isSome then
    s.fail t id .alreadyConnected "a session is already up"
  else
    let generation := s.inner.generation + 1
    let init : TunnelInit :=
      { daita := request.daita, channel := s.inner.channel, device := request.device }
    let options : ConnectOptions :=
      { selector := request.selector, entrySelector := request.entrySelector,
        httpProxy := request.httpProxy }
    { s with
      inner := { s.inner with connecting := true, generation }
      backend := s.backend ++ [BackendCall.createTunnel request.mnemonic generation init]
      }.suspend t (.creating id generation options)

/-- The end of a `connect`: a tunnel that must not live is shut down before the answer. -/
def answerConnect (t : Nat) (discard : Option Nat) (answer : Message) (s : HostSession) :
    HostSession :=
  match discard with
  | some n => s.shutdown t n (.discarding answer)
  | none => s.send t answer

/-- `connect` from the outcome of its dial on. -/
def settle (t : Nat) (id : Value) (generation : Nat)
    (outcome : Except (Option Nat × HostError) (Nat × Listeners)) (s : HostSession) :
    HostSession :=
  let inner := { s.inner with connecting := false }
  let current := inner.generation = generation
  match outcome with
  | .ok (tunnel, listeners) =>
    if current then
      { s with inner := { inner with
        tunnel := some tunnel
        endpoints := some listeners.endpoints
        exit := listeners.exit
        state := .connected } }.answerConnect t none <|
          .connect id listeners.endpoints listeners.username listeners.password listeners.exit
    else
      { s with inner }.answerConnect t (some tunnel) <|
        errorAnswer id { code := .tunnel, message := "disconnected while connecting" }
  | .error (tunnel, error) =>
    let inner :=
      -- The failed tunnel's reporter is silenced.
      if current then
        { inner with generation := inner.generation + 1, state := .disconnected }
      else inner
    { s with inner }.answerConnect t tunnel (errorAnswer id error)

/-- `connect` from the end of `create_tunnel` on. -/
def tunnelCreated (t : Nat) (id : Value) (generation : Nat) (options : ConnectOptions)
    (result : Except HostError Unit) (s : HostSession) : HostSession :=
  match result with
  | .error e => s.settle t id generation (.error (none, e))
  | .ok () =>
    let n := s.created.length
    { s with
      created := s.created ++ [t]
      backend := s.backend ++ [BackendCall.connect n options] }.suspend t (.dialing id generation n)

/-- `connect` from the end of the dial on: listeners without credentials are a failure. -/
def dialed (t : Nat) (id : Value) (generation n : Nat) (result : Except HostError Listeners)
    (s : HostSession) : HostSession :=
  s.settle t id generation <|
    match result with
    | .error e => .error (some n, e)
    | .ok l =>
      if l.username = "" ∨ l.password = "" then
        .error (some n, { code := .protocol
                          message := "the tunnel reported no listener credentials" })
      else .ok (n, l)

/-- `teardown` up to the shutdown of the tunnel it took, which is then the caller's to await. -/
def teardown (s : HostSession) : Option Nat × HostSession :=
  (s.inner.tunnel, { s with inner := { s.inner with
    generation := s.inner.generation + 1
    endpoints := none
    exit := none
    state := .disconnected
    tunnel := none } })

def disconnect (t : Nat) (id : Value) (s : HostSession) : HostSession :=
  match s.teardown with
  | (some n, s) => s.shutdown t n (.disconnecting id)
  | (none, s) => s.send t (.disconnect id)

def close (t : Nat) (s : HostSession) : HostSession :=
  match { s with inner := { s.inner with closed := true } }.teardown with
  | (some n, s) => s.shutdown t n .closing
  | (none, s) => s

/-- `handle` up to its first await; `route` is what the stored tunnel reports, if there is one. -/
def handle (t : Nat) (envelope : Envelope) (route : TunnelRoute) (s : HostSession) :
    HostSession :=
  let id := envelope.id
  match envelope.request with
  | .hello protocol channel => s.hello t id protocol channel
  | .status =>
    let route := if s.inner.tunnel.isSome then route else .own
    s.send t (statusAnswer id s.inner.state s.inner.endpoints s.inner.exit route)
  | .connect request => s.connect t id request
  | .disconnect => s.disconnect t id
  | .exits =>
    { s with backend := s.backend ++ [BackendCall.listExits s.inner.channel] }.suspend t
      (.listing id)
  | .account mnemonic =>
    { s with backend :=
        s.backend ++ [BackendCall.accountExpiry mnemonic s.inner.channel] }.suspend t
      (.expiring id)
  | .refused reason => s.fail t id .protocol reason

/-- The `StateSink` of the tunnel created under `generation`. -/
def stateSink (generation : Nat) (state : HostState) (s : HostSession) : HostSession :=
  if s.inner.generation ≠ generation then s
  else
    { s with
      inner := { s.inner with state }
      outbox := s.outbox ++ [(none, .state state)] }

end HostSession

/-- What can happen next: a request, the end of the connection, an await of the call `call` that
ends, or a transition that a tunnel reports. -/
inductive Event
  | handle (envelope : Envelope) (route : TunnelRoute)
  | close
  | created (call : Nat) (result : Except HostError Unit)
  | dialed (call : Nat) (result : Except HostError Listeners)
  | shutDown (call : Nat)
  | listed (call : Nat) (result : Except HostError (List ExitLocation))
  | expiry (call : Nat) (result : Except HostError Nat)
  | state (generation : Nat) (state : HostState)

/-- One event in state `s`, `none` when no call waits for it. -/
def step (s : HostSession) : Event → Option HostSession
  | .handle envelope route =>
    some ({ s with nextCall := s.nextCall + 1 }.handle s.nextCall envelope route)
  | .close => some ({ s with nextCall := s.nextCall + 1 }.close s.nextCall)
  | .created t result =>
    match s.calls t with
    | some (.creating id generation options) =>
      some ((s.wake t).tunnelCreated t id generation options result)
    | _ => none
  | .dialed t result =>
    match s.calls t with
    | some (.dialing id generation n) => some ((s.wake t).dialed t id generation n result)
    | _ => none
  | .shutDown t =>
    match s.calls t with
    | some (.discarding answer) => some ((s.wake t).send t answer)
    | some (.disconnecting id) => some ((s.wake t).send t (.disconnect id))
    | some .closing => some (s.wake t)
    | _ => none
  | .listed t result =>
    match s.calls t with
    | some (.listing id) =>
      some <| match result with
        | .ok locations => (s.wake t).send t (.exits id locations)
        | .error e => (s.wake t).fail t id e.code e.message
    | _ => none
  | .expiry t result =>
    match s.calls t with
    | some (.expiring id) =>
      some <| match result with
        | .ok expiresAt => (s.wake t).send t (.account id expiresAt)
        | .error e => (s.wake t).fail t id e.code e.message
    | _ => none
  | .state generation state => some (s.stateSink generation state)

namespace HostSession

/-- The call an event is a part of. -/
def actor (s : HostSession) : Event → Option Nat
  | .handle _ _ | .close => some s.nextCall
  | .created t _ | .dialed t _ | .shutDown t | .listed t _ | .expiry t _ => some t
  | .state _ _ => none

/-- What the call `t`, suspended as the call given, does once its await ends. -/
inductive Resumes (s : HostSession) (t : Nat) : Call → HostSession → Prop
  | created {id : Value} {options : ConnectOptions} :
    Resumes s t (.creating id g options) ((s.wake t).tunnelCreated t id g options r)
  | dialed {id : Value} : Resumes s t (.dialing id g n) ((s.wake t).dialed t id g n r)
  | discarded : Resumes s t (.discarding m) ((s.wake t).send t m)
  | disconnected {id : Value} :
    Resumes s t (.disconnecting id) ((s.wake t).send t (.disconnect id))
  | closed : Resumes s t .closing (s.wake t)
  | listed {id : Value} : Resumes s t (.listing id) ((s.wake t).send t m)
  | expiry {id : Value} : Resumes s t (.expiring id) ((s.wake t).send t m)

end HostSession

/-- What one event does. -/
theorem step_cases {s s' : HostSession} (h : step s e = some s') :
    (∃ envelope route, e = .handle envelope route ∧
      s' = { s with nextCall := s.nextCall + 1 }.handle s.nextCall envelope route) ∨
    (e = .close ∧ s' = { s with nextCall := s.nextCall + 1 }.close s.nextCall) ∨
    (∃ g state, e = .state g state ∧ s' = s.stateSink g state) ∨
    ∃ t c, s.actor e = some t ∧ s.calls t = some c ∧ s.Resumes t c s' := by
  cases e with
  | handle envelope route => exact .inl ⟨envelope, route, rfl, (Option.some.inj h).symm⟩
  | close => exact .inr (.inl ⟨rfl, (Option.some.inj h).symm⟩)
  | state g state => exact .inr (.inr (.inl ⟨g, state, rfl, (Option.some.inj h).symm⟩))
  | created t r =>
    unfold step at h
    simp only at h
    split at h
    · next hc => cases h; exact .inr (.inr (.inr ⟨t, _, rfl, hc, .created⟩))
    · cases h
  | dialed t r =>
    unfold step at h
    simp only at h
    split at h
    · next hc => cases h; exact .inr (.inr (.inr ⟨t, _, rfl, hc, .dialed⟩))
    · cases h
  | shutDown t =>
    unfold step at h
    simp only at h
    split at h
    · next hc => cases h; exact .inr (.inr (.inr ⟨t, _, rfl, hc, .discarded⟩))
    · next hc => cases h; exact .inr (.inr (.inr ⟨t, _, rfl, hc, .disconnected⟩))
    · next hc => cases h; exact .inr (.inr (.inr ⟨t, _, rfl, hc, .closed⟩))
    · cases h
  | listed t r =>
    unfold step at h
    simp only at h
    split at h
    · next hc => cases h; cases r <;> exact .inr (.inr (.inr ⟨t, _, rfl, hc, .listed⟩))
    · cases h
  | expiry t r =>
    unfold step at h
    simp only at h
    split at h
    · next hc => cases h; cases r <;> exact .inr (.inr (.inr ⟨t, _, rfl, hc, .expiry⟩))
    · cases h

end WarrenSdk.NativeHost
