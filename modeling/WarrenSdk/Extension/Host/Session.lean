import Mathlib.Data.Rat.Defs
import Mathlib.Logic.Function.Basic
import WarrenSdk.Core.Errors
import WarrenSdk.Extension.Protocol

/-!
# The session of the script host (`host/session.ts`)

One extension connection, in JavaScript. A `handle` runs undisturbed from one of its awaits to the
next; a handle that is suspended is a `Call`, and `step` runs one event: a request, the end of the
connection, an await of a call that is over, or a state that a tunnel reports. The tunnels are
numbered in the order the factory makes them, the calls in the order they come in.
-/

namespace WarrenSdk.Extension.Host
open WarrenSdk.Lib WarrenSdk.Core

/-- The `id` a request carries. -/
abbrev RequestId := Rat

/-- A field of unknown type, of which only a string is looked at. -/
inductive Value
  | string (value : Utf16)
  | other
deriving DecidableEq

/-- A `device` field: what `String` makes of its `id`, and its other parts where they are strings.
What is no object has no `name`. -/
structure DeviceClaim where
  id : Utf16
  name : Option Utf16
  appVersion : Option Utf16
deriving DecidableEq

structure ConnectRequest where
  mnemonic : String
  selector : Option ExtensionExitQuery := none
  entrySelector : Option ExtensionEntryQuery := none
  httpProxy : Option Bool := none
  daita : Option Bool := none
  device : Option DeviceClaim := none
deriving DecidableEq

inductive Request
  /-- No object, or without a number as its `id`. -/
  | malformed
  | hello (id : RequestId) (protocol : Option Nat) (channel : Option Value)
  | status (id : RequestId)
  | connect (id : RequestId) (request : ConnectRequest)
  | disconnect (id : RequestId)
  | exits (id : RequestId)
  | account (id : RequestId) (mnemonic : String)
  | other (id : RequestId)
deriving DecidableEq

inductive Message
  | hello (id : RequestId) (datapath : Option HostDatapath)
  | status (id : RequestId) (state : String) (endpoints : Option ExtensionEndpoints)
      (exit : Option ExtensionTunnelExit)
  | connect (id : RequestId) (endpoints : ExtensionEndpoints) (auth : ExtensionProxyAuth)
      (exit : Option ExtensionTunnelExit)
  | disconnect (id : RequestId)
  | exits (id : RequestId) (locations : List ExtensionExitLocation)
  | account (id : RequestId) (expiresAt : Nat)
  | error (id : RequestId) (code message : String)
  | state (state : String)
deriving DecidableEq

/-- A thrown value: its `code`, and its message where it is an `Error`. -/
structure Thrown where
  code : Option String := none
  message : Option String := none
deriving DecidableEq

def errorCode (error : Thrown) (fallback : String := "host") : String := error.code.getD fallback

def errorMessage (error : Thrown) (fallback : String) : String := error.message.getD fallback

/-- What `connect` of a tunnel resolves to. -/
structure Reported where
  socks5 : String
  http : Option String := none
  username : Option String := none
  password : Option String := none
  exit : Option RawExit := none
deriving DecidableEq

structure TunnelInit where
  daita : Option Bool
  channel : Option ProductChannel
  device : Option DeviceClaim
deriving DecidableEq

structure ConnectOptions where
  selector : Option ExtensionExitQuery
  entrySelector : Option ExtensionEntryQuery
  httpProxy : Option Bool
deriving DecidableEq

/-- The sources a host is constructed with. -/
structure HostSessionOptions where
  listExits : Bool
  accountStatus : Bool
deriving DecidableEq

/-! ## Checks of a request -/

def isChannel : Value → Option ProductChannel
  | .string name =>
    if name = .ofString "prod" then some .prod
    else if name = .ofString "beta" then some .beta
    else none
  | .other => none

/-- What `trim` drops. -/
def isWhiteSpace (c : UInt16) : Bool :=
  [0x9, 0xa, 0xb, 0xc, 0xd, 0x20, 0xa0, 0x1680, 0x2028, 0x2029, 0x202f, 0x205f, 0x3000,
    0xfeff].contains c || (0x2000 ≤ c && c ≤ 0x200a)

def trim (s : Utf16) : Utf16 := ((s.dropWhile isWhiteSpace).reverse.dropWhile isWhiteSpace).reverse

def DEVICE_ID_LEN : Nat := 16

/-- Whether `parseDeviceId` takes an id. -/
def isDeviceId (E : Encodings) (value : Utf16) : Bool :=
  match E.unbase64 value with
  | some bytes => bytes.length = DEVICE_ID_LEN
  | none => false

def isDevice (E : Encodings) (value : DeviceClaim) : Bool :=
  match value.name, value.appVersion with
  | some name, some appVersion =>
    !(trim name).length = 0 && !(trim appVersion).length = 0 && isDeviceId E value.id
  | _, _ => false

def isCredential : Option String → Option String
  | some value => if 0 < value.length then some value else none
  | none => none

/-! ## The session -/

/-- A handle in flight, by the await it is suspended at. -/
inductive Call
  /-- A `connect` at `createTunnel`. -/
  | creating (id : RequestId) (options : ConnectOptions)
  /-- A `connect` at the dial of its tunnel. -/
  | dialing (id : RequestId) (tunnel : Nat)
  /-- A `connect` that failed, at the shutdown of its tunnel if it has one. -/
  | failing (id : RequestId) (error : Thrown)
  | disconnecting (id : RequestId)
  | closing
  | listing (id : RequestId)
  | expiring (id : RequestId)
deriving DecidableEq

def Call.isConnect : Call → Bool
  | .creating .. | .dialing .. | .failing .. => true
  | _ => false

/-- What the session asks of what it is constructed with. -/
inductive Asked
  | createTunnel (call : Nat) (mnemonic : String) (init : TunnelInit)
  | connect (tunnel : Nat) (options : ConnectOptions)
  | listExits (channel : Option ProductChannel)
  | accountStatus (mnemonic : String) (channel : Option ProductChannel)
deriving DecidableEq

structure HostSession where
  tunnel : Option Nat := none
  endpoints : Option ExtensionEndpoints := none
  exit : Option ExtensionTunnelExit := none
  state : String := "disconnected"
  connecting : Bool := false
  channel : Option ProductChannel := none
  calls : Nat → Option Call := fun _ => none
  nextCall : Nat := 0
  /-- How many tunnels the factory made. -/
  created : Nat := 0
  /-- The tunnels `shutdown` was called on. -/
  shutdowns : List Nat := []
  /-- The calls whose state callback the factory was given. -/
  callbacks : List Nat := []
  asked : List Asked := []
  sent : List Message := []
  /-- The last `connect` request that came in. -/
  lastConnect : Option Nat := none
  /-- The `disconnect` requests that were answered and the `close` calls that resolved. -/
  ended : List Nat := []

namespace HostSession

def send (message : Message) (s : HostSession) : HostSession :=
  { s with sent := s.sent ++ [message] }

def fail (id : RequestId) (code message : String) (s : HostSession) : HostSession :=
  s.send (.error id code message)

def suspend (t : Nat) (c : Call) (s : HostSession) : HostSession :=
  { s with calls := Function.update s.calls t (some c) }

/-- Takes the call `t` off the suspended ones, to run it. -/
def wake (t : Nat) (s : HostSession) : HostSession :=
  { s with calls := Function.update s.calls t none }

def ask (asked : Asked) (s : HostSession) : HostSession := { s with asked := s.asked ++ [asked] }

/-- `tunnel?.shutdown()` -/
def shutdown (tunnel : Option Nat) (s : HostSession) : HostSession :=
  { s with shutdowns := s.shutdowns ++ tunnel.toList }

def hello (id : RequestId) (protocol : Option Nat) (channel : Option Value)
    (datapath : Option HostDatapath) (s : HostSession) : HostSession :=
  if protocol ≠ some EXTENSION_PROTOCOL_VERSION then
    s.fail id "protocol" "unsupported protocol version"
  else
    match channel with
    | none => { s with channel := none }.send (.hello id datapath)
    | some value =>
      match isChannel value with
      | none => s.fail id "protocol" "unknown release channel"
      | some channel => { s with channel := some channel }.send (.hello id datapath)

/-- `connect` up to the await of `createTunnel`. -/
def connect (E : Encodings) (t : Nat) (id : RequestId) (request : ConnectRequest)
    (s : HostSession) : HostSession :=
  if s.connecting || s.tunnel.isSome then
    s.fail id "already_connected" "a session is already up"
  else if request.device.any (!isDevice E ·) then s.fail id "protocol" "malformed device"
  else
    let init : TunnelInit :=
      { daita := request.daita, channel := s.channel, device := request.device }
    let options : ConnectOptions :=
      { selector := request.selector
        entrySelector := request.entrySelector
        httpProxy := request.httpProxy }
    suspend t (.creating id options) <|
      { s with connecting := true, callbacks := s.callbacks ++ [t] }.ask
        (.createTunnel t request.mnemonic init)

/-- The `catch` of `connect`, up to its await. -/
def failConnect (t : Nat) (id : RequestId) (tunnel : Option Nat) (error : Thrown)
    (s : HostSession) : HostSession :=
  (s.shutdown tunnel).suspend t (.failing id error)

/-- The rest of the `catch`, and the `finally`. -/
def connectFailed (id : RequestId) (error : Thrown) (s : HostSession) : HostSession :=
  { { s with state := "disconnected" }.fail id (errorCode error "tunnel")
      (errorMessage error "connect failed") with connecting := false }

/-- `connect` from the end of `createTunnel` to the await of the dial. -/
def tunnelCreated (t : Nat) (id : RequestId) (options : ConnectOptions)
    (result : Except Thrown Unit) (s : HostSession) : HostSession :=
  match result with
  | .error error => s.failConnect t id none error
  | .ok () =>
    suspend t (.dialing id s.created) <|
      { s with created := s.created + 1 }.ask (.connect s.created options)

/-- `connect` from the end of a dial that succeeded. -/
def tunnelConnected (id : RequestId) (tunnel : Nat) (reported : Reported)
    (auth : ExtensionProxyAuth) (s : HostSession) : HostSession :=
  let endpoints : ExtensionEndpoints :=
    { socks5 := reported.socks5, http := reported.http.filter (· ≠ "") }
  let exit := parseTunnelExit reported.exit
  send (.connect id endpoints auth exit)
    { s with
      tunnel := some tunnel
      endpoints := some endpoints
      exit
      state := "connected"
      connecting := false }

/-- The credentials of a dial that succeeded. -/
def credentials (reported : Reported) : Option ExtensionProxyAuth := do
  let username ← isCredential reported.username
  let password ← isCredential reported.password
  return { username, password }

/-- `connect` from the end of the dial on. -/
def dialed (t : Nat) (id : RequestId) (tunnel : Nat) (result : Except Thrown Reported)
    (s : HostSession) : HostSession :=
  match result with
  | .error error => s.failConnect t id (some tunnel) error
  | .ok reported =>
    match credentials reported with
    | none =>
      s.failConnect t id (some tunnel)
        { code := some "protocol"
          message := some "the tunnel reported no listener credentials" }
    | some auth => s.tunnelConnected id tunnel reported auth

/-- `teardown` up to its await. -/
def teardown (s : HostSession) : HostSession :=
  { s with tunnel := none, endpoints := none, exit := none, state := "disconnected" }.shutdown
    s.tunnel

/-- `handle` up to its first await; `datapath` is what `datapathStatus` reads, if there is one. -/
def handle (E : Encodings) (options : HostSessionOptions) (t : Nat)
    (datapath : Option HostDatapath) (request : Request) (s : HostSession) : HostSession :=
  match request with
  | .malformed => s
  | .hello id protocol channel => s.hello id protocol channel datapath
  | .status id => s.send (.status id s.state s.endpoints s.exit)
  | .connect id request => { s with lastConnect := some t }.connect E t id request
  | .disconnect id => s.teardown.suspend t (.disconnecting id)
  | .exits id =>
    if options.listExits then (s.ask (.listExits s.channel)).suspend t (.listing id)
    else s.fail id "protocol" "host has no discovery source"
  | .account id mnemonic =>
    if options.accountStatus then
      (s.ask (.accountStatus mnemonic s.channel)).suspend t (.expiring id)
    else s.fail id "protocol" "host has no account source"
  | .other id => s.fail id "protocol" "unknown request type"

end HostSession

/-- What can happen next: a request, the end of the connection, an await of the call `call` that
ends, or a state reported to the callback that the factory was given in `call`. -/
inductive Event
  | handle (request : Request) (datapath : Option HostDatapath)
  | close
  | created (call : Nat) (result : Except Thrown Unit)
  | dialed (call : Nat) (result : Except Thrown Reported)
  | shutDown (call : Nat)
  | listed (call : Nat) (result : Except Thrown (List ExtensionExitLocation))
  | expiry (call : Nat) (result : Except Thrown Nat)
  | state (call : Nat) (state : String)

/-- One event in state `s`, `none` when no call waits for it. -/
def HostSession.step (E : Encodings) (options : HostSessionOptions) (s : HostSession) :
    Event → Option HostSession
  | .handle request datapath =>
    some ({ s with nextCall := s.nextCall + 1 }.handle E options s.nextCall datapath request)
  | .close =>
    some ({ s with nextCall := s.nextCall + 1 }.teardown.suspend s.nextCall .closing)
  | .created t result =>
    match s.calls t with
    | some (.creating id options) => some ((s.wake t).tunnelCreated t id options result)
    | _ => none
  | .dialed t result =>
    match s.calls t with
    | some (.dialing id n) => some ((s.wake t).dialed t id n result)
    | _ => none
  | .shutDown t =>
    match s.calls t with
    | some (.failing id error) => some ((s.wake t).connectFailed id error)
    | some (.disconnecting id) =>
      some ({ s.wake t with ended := s.ended ++ [t] }.send (.disconnect id))
    | some .closing => some { s.wake t with ended := s.ended ++ [t] }
    | _ => none
  | .listed t result =>
    match s.calls t with
    | some (.listing id) =>
      some <| match result with
        | .ok locations => (s.wake t).send (.exits id locations)
        | .error e => (s.wake t).fail id (errorCode e) (errorMessage e "exits failed")
    | _ => none
  | .expiry t result =>
    match s.calls t with
    | some (.expiring id) =>
      some <| match result with
        | .ok expiresAt => (s.wake t).send (.account id expiresAt)
        | .error e => (s.wake t).fail id (errorCode e) (errorMessage e "account failed")
    | _ => none
  | .state t state =>
    if t ∈ s.callbacks then some ({ s with state }.send (.state state)) else none

end WarrenSdk.Extension.Host
