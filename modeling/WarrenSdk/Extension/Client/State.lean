import Mathlib.Logic.Function.Basic
import WarrenSdk.Extension.Split

/-!
# The state of a browser VPN client (`WarrenBrowserVpn` in `client.ts`)

`State` is the object together with what it runs in: the native ports the browser opened for it,
its asynchronous calls in flight, the browser settings and the browser calls made on them. A call in
flight is a `Task`, named by the await it is suspended at, with the locals it still needs; it stays
suspended for as long as the scheduler likes after its await is settled. Three tables hold what is
awaited: the answers to messages posted to a host, the results of browser calls and the results of
the client's own calls.
-/

namespace WarrenSdk.Extension

inductive WarrenExtensionErrorCode
  | hostUnavailable
  | protocol
  | host
  | alreadyConnected
  | notConnected
  | proxyUncontrollable
  | privateBrowsingRequired
deriving DecidableEq, Repr

structure WarrenExtensionError where
  code : WarrenExtensionErrorCode
  message : String
  hostCode : Option String := none
deriving DecidableEq, Repr

/-- What a promise rejects with: an error of the client's, or whatever a browser call threw. -/
inductive Failure
  | extension (error : WarrenExtensionError)
  | thrown
deriving DecidableEq, Repr

def Failure.of (code : WarrenExtensionErrorCode) (message : String) : Failure :=
  .extension { code, message }

inductive ExtensionPlatform
  | chromium
  | firefox
deriving DecidableEq, Repr

/-- The browser a client is built over: its family, and which optional members it has. -/
structure ChromeLike where
  platform : ExtensionPlatform
  channel : ProductChannel
  /-- `proxy.settings.get` -/
  settingsGet : Bool := true
  /-- `privacy.network.webRTCIPHandlingPolicy.get` -/
  policyGet : Bool := true
  /-- `privacy.network.networkPredictionEnabled` -/
  prediction : Bool := true
  /-- `extension.isAllowedIncognitoAccess` -/
  incognito : Bool := true
  /-- `proxy.onRequest` -/
  onRequest : Bool := true
  toLowerCase : Lib.Utf16 → Lib.Utf16

inductive LevelOfControl
  | notControllable
  | controlledByOtherExtensions
  | controllableByThisExtension
  | controlledByThisExtension
deriving DecidableEq, Repr

/-- What `get` answers of a setting: the effective value and who controls it. -/
structure ProxySettingDetails where
  value : Option ProxyValue := none
  levelOfControl : Option LevelOfControl := none
deriving DecidableEq, Repr

/-- A call on the browser. `none` stands for an optional member the browser lacks, and for a part of
the client that returns before it reaches the browser: nothing is called, the await still ends. -/
inductive BrowserCall
  | none
  | settingsGet
  | settingsSet (value : Option ProxyValue)
  | settingsClear
  | policyGet
  | policySet (value : String)
  | policyClear
  | predictionSet (value : Bool)
  | predictionClear
  | isAllowedIncognitoAccess
deriving DecidableEq, Repr

inductive BrowserValue
  | undefined
  | bool (value : Bool)
  | details (details : ProxySettingDetails)
deriving DecidableEq, Repr

abbrev BrowserResult := Except Failure BrowserValue

def BrowserValue.details? : BrowserValue → Option ProxySettingDetails
  | .details d => some d
  | _ => .none

/-- A `proxy.onRequest` handler: the listener and the split it was registered for. -/
structure OnRequestHandler where
  id : Nat
  socks5 : String
  split : SplitTunnelConfig
deriving DecidableEq, Repr

structure BrowserVpnConnectOptions where
  mnemonic : String
  selector : Option ExtensionExitQuery := none
  entrySelector : Option ExtensionEntryQuery := none
  httpProxy : Option Bool := none
  split : Option SplitTunnelConfig := none
  daita : Option Bool := none
  device : Option ExtensionDevice := none
deriving DecidableEq, Repr

/-- The questions that are asked through `asking`. -/
inductive Question
  | status
  | datapath
  | listExits
  | account (mnemonic : String)
deriving DecidableEq, Repr

/-- A connect answer that carries credentials, with the port it came in on. -/
structure Granted where
  port : Nat
  endpoints : ExtensionEndpoints
  auth : ExtensionProxyAuth
  exit : Option RawExit
deriving DecidableEq, Repr

/-- The locals of a `connect` in flight. -/
structure ConnectCall where
  options : BrowserVpnConnectOptions
  heldHandler : Option OnRequestHandler
  before : Option ProxySettingDetails := none
  leaksHeld : Bool := false
  hardened : Bool := false
deriving DecidableEq, Repr

def ConnectCall.split (c : ConnectCall) : SplitTunnelConfig := c.options.split.getD DEFAULT_SPLIT

/-- Where a `connect` is suspended; the last three are in its failure path. -/
inductive ConnectAwait
  | assertProxyControl (call : Nat)
  | holdsLeakHardening (call : Nat)
  | isAllowedIncognitoAccess (call : Nat)
  | request (task : Nat)
  | hardenPolicy (granted : Granted) (call : Nat)
  | hardenPrediction (granted : Granted) (call : Nat)
  | applyProxy (granted : Granted) (call : Nat)
  | verifyRouting (granted : Granted) (call : Nat)
  | restoreSettings (error : Failure) (call : Nat)
  | releasePolicy (error : Failure) (call : Nat)
  | releasePrediction (error : Failure) (call : Nat)
deriving DecidableEq, Repr

/-- An asynchronous call in flight, by the await it is suspended at. Numbers of messages, browser
calls and tasks name what is awaited. -/
inductive Task
  | hello (message : Nat)
  | requestHandshake (body : HostRequest) (hello : Nat)
  | requestAnswer (message : Nat)
  | asking (question : Question) (task : Nat)
  | connect (call : ConnectCall) (await : ConnectAwait)
  | reconnectLockdown (options : BrowserVpnConnectOptions) (call : Nat)
  | reconnectRelease (options : BrowserVpnConnectOptions) (request : Nat)
  | disconnectRelease (request : Nat)
  | disconnectSettings (call : Nat)
  | disconnectPolicy (call : Nat)
  | disconnectPrediction (call : Nat)
  | applySplitProxy (split : SplitTunnelConfig) (previous : Option OnRequestHandler) (call : Nat)
  | applySplitVerify (call : Nat)
deriving DecidableEq, Repr

/-- What a call of the client resolves with. -/
inductive TaskValue
  | undefined
  | datapath (datapath : Option HostDatapath)
  | answer (port : Nat) (body : ResponseBody)
  | endpoints (endpoints : ExtensionEndpoints)
  | status (state : ExtensionVpnState) (endpoints : Option ExtensionEndpoints) (viaSystem : Bool)
      (exit : Option ExtensionTunnelExit)
  | exits (locations : List ExtensionExitLocation)
  | account (expiresAt : Nat)
deriving DecidableEq, Repr

abbrev TaskResult := Except Failure TaskValue

structure State where
  port : Option Nat := none
  portDead : Bool := false
  /-- The `hello` task of the current port. -/
  handshake : Option Nat := none
  proxied : Bool := false
  tunnelUp : Bool := false
  endpoints : Option ExtensionEndpoints := none
  auth : Option ExtensionProxyAuth := none
  exit : Option ExtensionTunnelExit := none
  connecting : Bool := false
  questions : Nat := 0
  releasing : Bool := false
  nextId : Nat := 1
  onRequestHandler : Option OnRequestHandler := none
  /-- The message ids the `pending` map has a waiter for. -/
  pending : List Nat := []
  /-- The ports whose host is attached, and the number of the next port opened. -/
  live : Nat → Bool := fun _ => false
  nextPort : Nat := 0
  /-- What was posted on each port, and what each port's host answered. -/
  sent : List (Nat × Nat × HostRequest) := []
  received : List (Nat × HostResponse) := []
  answers : Nat → Option (Except Failure (Nat × ResponseBody)) := fun _ => none
  tasks : Nat → Option Task := fun _ => none
  nextTask : Nat := 0
  results : Nat → Option TaskResult := fun _ => none
  /-- Every browser call made, the `n`-th with result `browserResults n` once it has one. -/
  calls : List BrowserCall := []
  browserResults : Nat → Option BrowserResult := fun _ => none
  /-- What the extension holds of each browser setting, `none` for the browser's own value. -/
  settings : Option ProxyValue := none
  policy : Option String := none
  predictionSetting : Option Bool := none
  /-- The handlers registered with `proxy.onRequest`. -/
  handlers : List OnRequestHandler := []
  nextHandler : Nat := 0
  /-- The connect answer that `endpoints` and `auth` were last taken from. No step reads it. -/
  source : Option Granted := none

namespace State

/-- The client as it is built, over whatever the extension holds of the browser settings. -/
def initial (settings : Option ProxyValue) (policy : Option String)
    (predictionSetting : Option Bool) : State := { settings, policy, predictionSetting }

/-- The credentials of the live tunnel's listener at `listener`. -/
def forListener (listener : String) (s : State) : Option ExtensionProxyAuth :=
  match s.auth, s.endpoints with
  | some auth, some endpoints =>
    if endpoints.http = some listener ∨ listener = endpoints.socks5 then some auth else none
  | _, _ => none

/-- `this.port && !this.portDead` -/
def portOpen (s : State) : Bool := s.port.isSome && !s.portDead

/-! ## Tasks and awaits -/

/-- Takes the call `t` off the suspended ones, to run it. -/
def wake (t : Nat) (s : State) : State :=
  { s with tasks := Function.update s.tasks t none }

/-- Settles the call `t` with `r`. -/
def settle (t : Nat) (r : TaskResult) (s : State) : State :=
  { s with results := Function.update s.results t (some r) }

/-- Suspends the call `t` as `task`. -/
def suspend (t : Nat) (task : Task) (s : State) : State :=
  { s with tasks := Function.update s.tasks t (some task) }

/-- Makes the browser call `c` and suspends `t` on it. -/
def awaitCall (t : Nat) (c : BrowserCall) (task : Nat → Task) (s : State) : State :=
  { s with calls := s.calls ++ [c]
           tasks := Function.update s.tasks t (some (task s.calls.length)) }

/-- Suspends `t` on a promise that is settled already. -/
def awaitSettled (t : Nat) (r : BrowserResult) (task : Nat → Task) (s : State) : State :=
  { s with calls := s.calls ++ [.none]
           browserResults := Function.update s.browserResults s.calls.length (some r)
           tasks := Function.update s.tasks t (some (task s.calls.length)) }

/-- Makes the browser call `c` if the browser has the member, and suspends `t` on it. -/
def awaitOptional (has : Bool) (t : Nat) (c : BrowserCall) (task : Nat → Task) (s : State) :
    State :=
  if has then s.awaitCall t c task else s.awaitSettled t (.ok .undefined) task

/-! ## Ports -/

/-- `openPort`: `native` is whether `connectNative` finds a host to attach. -/
def openPort (native : Bool) (s : State) : Except Failure State :=
  if s.portOpen then .ok s
  else if native then
    .ok { s with
      port := some s.nextPort
      portDead := false
      handshake := none
      live := Function.update s.live s.nextPort true
      nextPort := s.nextPort + 1 }
  else
    .error (.of .hostUnavailable "native messaging host is not installed or refused the connection")

/-- Rejects every pending waiter. -/
def rejectPending (message : String) (s : State) : State :=
  { s with
    answers := fun m =>
      if m ∈ s.pending then some (.error (.of .hostUnavailable message)) else s.answers m
    pending := [] }

def closePort (s : State) : State :=
  rejectPending "native messaging host closed"
    { s with
      live := if s.portOpen then fun p => s.live p && !(s.port == some p) else s.live
      port := none
      portDead := false }

/-- `send`: the message posted is number `s.nextId`. -/
def send (native : Bool) (body : HostRequest) (s : State) : Except Failure State :=
  match s.openPort native with
  | .error e => .error e
  | .ok s => .ok { s with
      nextId := s.nextId + 1
      pending := s.pending ++ [s.nextId]
      sent := s.sent ++ [(s.port.getD 0, s.nextId, body)] }

/-! ## Browser handlers -/

/-- `proxy.onRequest.removeListener` -/
def removeListener (h : OnRequestHandler) (s : State) : State :=
  { s with handlers := s.handlers.filter (·.id != h.id) }

def removeOnRequestHandler (s : State) : State :=
  match s.onRequestHandler with
  | some h => { s.removeListener h with onRequestHandler := none }
  | none => s

def registerFirefoxOnRequest (socks5 : String) (split : SplitTunnelConfig) (s : State) : State :=
  let handler := { id := s.nextHandler, socks5, split }
  { s with
    onRequestHandler := some handler
    handlers := s.handlers ++ [handler]
    nextHandler := s.nextHandler + 1 }

end State

/-- What a handler answers the browser. -/
inductive ProxyAnswer
  | direct
  /-- The listener a host serves, with its credentials. -/
  | socks (listener : ParsedAddress) (proxyDNS : Bool) (auth : ExtensionProxyAuth)
  /-- `FAIL_CLOSED_PROXY`: loopback port 1, which nothing listens on. -/
  | failClosed
deriving DecidableEq, Repr

/-- The body of the handler `registerFirefoxOnRequest` registers. -/
def OnRequestHandler.answer (toLowerCase : Lib.Utf16 → Lib.Utf16) (h : OnRequestHandler)
    (request : BrowserRequest) (s : State) : ProxyAnswer :=
  if shouldTunnelRequest toLowerCase request h.split then
    match s.forListener h.socks5 with
    | some auth => .socks (parseAddress h.socks5) true auth
    | none => .failClosed
  else .direct

end WarrenSdk.Extension
