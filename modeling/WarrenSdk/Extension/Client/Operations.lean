import WarrenSdk.Extension.Client.State

/-!
# The operations of a browser VPN client

Each public method of `WarrenBrowserVpn` is cut at its awaits: `…Start` runs from the call to the
first await, and `resume` runs a suspended task from the await it is at to the next one. What a call
throws in one of its parts is what its task is settled with. `step` runs one event: a call of the
client, a task resumed, a browser call answered, a host message or the death of a host.
-/

namespace WarrenSdk.Extension

/-- The request a question makes; `datapath` only shakes hands. -/
def Question.body : Question → Option HostRequest
  | .status => some .status
  | .datapath => none
  | .listExits => some .exits
  | .account mnemonic => some (.account mnemonic)

/-- What a question resolves with, given how what it awaited settled. -/
def Question.result (q : Question) (r : TaskResult) : TaskResult :=
  match r with
  | .error e => .error e
  | .ok v =>
    match q, v with
    | .datapath, v => .ok v
    | .status, .answer _ (.status state endpoints viaSystem exit) =>
      .ok (.status state endpoints viaSystem (parseTunnelExit exit))
    | .status, _ => .error (.of .protocol "unexpected host response to status")
    | .listExits, .answer _ (.exits locations) => .ok (.exits locations)
    | .listExits, _ => .error (.of .protocol "unexpected host response to exits")
    | .account _, .answer _ (.account expiresAt) => .ok (.account expiresAt)
    | .account _, _ => .error (.of .protocol "unexpected host response to account")

/-- What only a question itself resolves with. -/
def TaskValue.isReport : TaskValue → Bool
  | .status _ _ _ _ | .exits _ | .account _ => true
  | _ => false

/-- A question resolves with its report, or with what it awaited. -/
theorem Question.result_ok {q : Question} (h : q.result r = .ok v) :
    r = .ok v ∨ v.isReport = true := by
  unfold Question.result at h
  split at h
  · cases h
  · split at h <;> cases h
    · exact .inl rfl
    all_goals exact .inr rfl

namespace State
variable (api : ChromeLike)

/-! ## Requests to the host -/

/-- `this.handshake ??= this.hello()`: the number of the port's `hello` task. -/
def shakeHands (native : Bool) (s : State) : Nat × State :=
  match s.handshake with
  | some h => (h, s)
  | none =>
    let h := s.nextTask
    let s := { s with nextTask := h + 1, handshake := some h }
    match s.send native (.hello EXTENSION_PROTOCOL_VERSION api.channel) with
    | .error e => (h, s.settle h (.error e))
    | .ok s' => (h, s'.suspend h (.hello s.nextId))

/-- `request`, as task `s.nextTask`. -/
def request (native : Bool) (body : HostRequest) (s : State) : State :=
  let r := s.nextTask
  let s := { s with nextTask := r + 1 }
  match s.openPort native with
  | .error e => s.settle r (.error e)
  | .ok s =>
    let (h, s) := s.shakeHands api native
    s.suspend r (.requestHandshake body h)

/-- The rest of `request` once the handshake `h` of its port is settled. -/
def requestHandshakeDone (t : Nat) (native : Bool) (body : HostRequest) (h : TaskResult)
    (s : State) : State :=
  match h with
  | .error e => s.settle t (.error e)
  | .ok _ =>
    match s.send native body with
    | .error e => s.settle t (.error e)
    | .ok s' => s'.suspend t (.requestAnswer s.nextId)

/-- The rest of `hello` once its message is answered. -/
def helloAnswered (t : Nat) (r : Except Failure (Nat × ResponseBody)) (s : State) : State :=
  let refused := s.closePort.settle t <|
    .error (.of .protocol "host speaks an unsupported protocol version")
  match r with
  | .ok (_, .hello protocol datapath) =>
    if protocol = EXTENSION_PROTOCOL_VERSION then s.settle t (.ok (.datapath datapath))
    else refused
  | .ok _ => refused
  | .error (.extension e) => if e.code = .host then refused else s.settle t (.error (.extension e))
  | .error .thrown => s.settle t (.error .thrown)

/-! ## Questions -/

/-- The `finally` of `asking`: the last question to finish closes a port nothing else needs. -/
def finishAsking (t : Nat) (q : Question) (r : TaskResult) (s : State) : State :=
  let s := { s with questions := s.questions - 1 }
  let s := if s.questions = 0 ∧ s.tunnelUp = false ∧ s.connecting = false then s.closePort else s
  s.settle t (q.result r)

def askStart (t : Nat) (native : Bool) (q : Question) (s : State) : State :=
  let s := { s with questions := s.questions + 1 }
  match q.body with
  | none =>
    match s.openPort native with
    | .error e => s.finishAsking t q (.error e)
    | .ok s =>
      let (h, s) := s.shakeHands api native
      s.suspend t (.asking q h)
  | some body => (s.request api native body).suspend t (.asking q s.nextTask)

/-! ## Routing -/

/-- `applyProxy`, on which `t` is then suspended. -/
def applyProxy (t : Nat) (endpoints : ExtensionEndpoints) (split : SplitTunnelConfig)
    (task : Nat → Task) (s : State) : State :=
  match api.platform with
  | .firefox =>
    let s := s.registerFirefoxOnRequest endpoints.socks5 split
    if split.mode = .only then s.awaitSettled t (.ok .undefined) task
    else s.awaitCall t (.settingsSet (some (buildFirefoxProxyValue endpoints.socks5 split))) task
  | .chromium =>
    match endpoints.http with
    | none => s.awaitSettled t (.error (.of .protocol "the host serves no HTTP listener")) task
    | some http =>
      s.awaitCall t (.settingsSet (some (buildChromiumProxyValue api.toLowerCase http split))) task

def uncontrollable : Failure :=
  .of .proxyUncontrollable
    "proxy settings are controlled elsewhere (another extension or enterprise policy)"

/-- How `applyProxy` ends: on Firefox a `set` that resolves `false` was not applied. -/
def proxyApplied (split : SplitTunnelConfig) (r : BrowserResult) : Except Failure Unit :=
  match r with
  | .error e => .error e
  | .ok v =>
    if api.platform = .firefox ∧ split.mode ≠ .only ∧ v = .bool false then .error uncontrollable
    else .ok ()

/-- `assertProxyControl`, on whose `get` `t` is then suspended. -/
def assertProxyControl (t : Nat) (task : Nat → Task) (s : State) : State :=
  s.awaitOptional api.settingsGet t .settingsGet task

/-- How `assertProxyControl` ends. -/
def proxyControl (acceptable : List LevelOfControl) (r : BrowserResult) :
    Except Failure (Option ProxySettingDetails) :=
  match r with
  | .error e => .error e
  | .ok v =>
    match v.details?.bind (·.levelOfControl) with
    | some level => if level ∈ acceptable then .ok v.details? else .error uncontrollable
    | none => .ok v.details?

/-- `verifyRouting`: Firefox's only mode sets nothing to verify. -/
def verifyRouting (t : Nat) (split : SplitTunnelConfig) (task : Nat → Task) (s : State) : State :=
  if api.platform = .firefox ∧ split.mode = .only ∧ s.onRequestHandler.isSome then
    s.awaitSettled t (.ok .undefined) task
  else s.assertProxyControl api t task

def controlled (d : Option ProxySettingDetails) : Bool :=
  d.bind (·.levelOfControl) = some .controlledByThisExtension

/-! ## `connect` -/

/-- The end of a failed `connect`. -/
def connectFailed (t : Nat) (c : ConnectCall) (e : Failure) (s : State) : State :=
  { { s with onRequestHandler := c.heldHandler }.closePort with connecting := false }.settle t
    (.error e)

/-- The `catch` of `connect`, up to the first await of `restoreBrowserSettings`. -/
def connectCatch (t : Nat) (c : ConnectCall) (e : Failure) (s : State) : State :=
  let s := { s with endpoints := none, auth := none, source := none }
  if c.hardened then
    let s := s.removeOnRequestHandler
    s.awaitCall t
      (if controlled c.before then .settingsSet (c.before.bind (·.value)) else .settingsClear)
      fun n => .connect c (.restoreSettings e n)
  else s.connectFailed t c e

/-- `restoreBrowserSettings` past the proxy settings; what it throws is swallowed. -/
def connectRestored (t : Nat) (c : ConnectCall) (e : Failure) (r : BrowserResult) (s : State) :
    State :=
  match r with
  | .error _ => s.connectFailed t c e
  | .ok _ =>
    if c.leaksHeld = false ∧ controlled c.before = false then
      s.awaitCall t .policyClear fun n => .connect c (.releasePolicy e n)
    else s.connectFailed t c e

def connectPolicyReleased (t : Nat) (c : ConnectCall) (e : Failure) (r : BrowserResult)
    (s : State) : State :=
  match r with
  | .error _ => s.connectFailed t c e
  | .ok _ =>
    s.awaitOptional api.prediction t .predictionClear fun n => .connect c (.releasePrediction e n)

def connectStart (t : Nat) (options : BrowserVpnConnectOptions) (s : State) : State :=
  if s.connecting then s.settle t (.error (.of .alreadyConnected "connect in flight"))
  else if s.tunnelUp then s.settle t (.error (.of .alreadyConnected "already connected"))
  else
    let c := { options, heldHandler := s.onRequestHandler }
    { s with connecting := true, onRequestHandler := none }.assertProxyControl api t
      fun n => .connect c (.assertProxyControl n)

def connectControlled (t : Nat) (c : ConnectCall) (r : BrowserResult) (s : State) : State :=
  match proxyControl [.controllableByThisExtension, .controlledByThisExtension] r with
  | .error e => s.connectCatch t c e
  | .ok before =>
    s.awaitOptional api.policyGet t .policyGet
      fun n => .connect { c with before } (.holdsLeakHardening n)

/-- `connect` from its request on. -/
def connectRequest (t : Nat) (native : Bool) (c : ConnectCall) (s : State) : State :=
  let httpProxy := if api.platform = .chromium then some true else c.options.httpProxy
  let body := .connect c.options.mnemonic c.options.selector c.options.entrySelector httpProxy
    c.options.daita c.options.device
  (s.request api native body).suspend t (.connect c (.request s.nextTask))

def connectLeaksKnown (t : Nat) (native : Bool) (c : ConnectCall) (r : BrowserResult)
    (s : State) : State :=
  match r with
  | .error e => s.connectCatch t c e
  | .ok v =>
    let c := { c with leaksHeld := controlled v.details? }
    match api.platform with
    | .firefox =>
      s.awaitOptional api.incognito t .isAllowedIncognitoAccess
        fun n => .connect c (.isAllowedIncognitoAccess n)
    | .chromium => s.connectRequest api t native c

def connectAccessKnown (t : Nat) (native : Bool) (c : ConnectCall) (r : BrowserResult)
    (s : State) : State :=
  match r with
  | .error e => s.connectCatch t c e
  | .ok v =>
    if v = .bool false then
      s.connectCatch t c (.of .privateBrowsingRequired
        "Firefox requires private-browsing access to control proxy settings")
    else if api.onRequest then s.connectRequest api t native c
    else
      s.connectCatch t c (.of .proxyUncontrollable "this browser cannot route requests one by one")

/-- `connect` once its request is settled: the answer must carry credentials. -/
def connectAnswered (t : Nat) (c : ConnectCall) (r : TaskResult) (s : State) : State :=
  match r with
  | .error e => s.connectCatch t c e
  | .ok (.answer port (.connect endpoints rawAuth exit)) =>
    match listenerAuth rawAuth with
    | none =>
      s.connectCatch t c (.of .protocol
        "the host did not hand over the credentials its listeners demand")
    | some auth =>
      s.awaitCall t (.policySet "disable_non_proxied_udp")
        fun n => .connect c (.hardenPolicy { port, endpoints, auth, exit } n)
  | .ok _ => s.connectCatch t c (.of .protocol "unexpected host response to connect")

def connectPolicyHardened (t : Nat) (c : ConnectCall) (g : Granted) (r : BrowserResult)
    (s : State) : State :=
  match r with
  | .error e => s.connectCatch t c e
  | .ok _ =>
    s.awaitOptional api.prediction t (.predictionSet false)
      fun n => .connect c (.hardenPrediction g n)

/-- What `assertHostAlive` throws when it sees the port dead. -/
def hostGone : Failure := .of .hostUnavailable "native messaging host disconnected"

/-- `connect` from the end of `hardenBrowserLeaks`: the endpoints and credentials are held before
the browser is pointed at the listener. -/
def connectHardened (t : Nat) (c : ConnectCall) (g : Granted) (r : BrowserResult) (s : State) :
    State :=
  match r with
  | .error e => s.connectCatch t c e
  | .ok _ =>
    let c := { c with hardened := true }
    if s.portDead then s.connectCatch t c hostGone
    else
      { s with endpoints := some g.endpoints, auth := some g.auth, source := some g }.applyProxy
        api t g.endpoints c.split fun n => .connect c (.applyProxy g n)

def connectApplied (t : Nat) (c : ConnectCall) (g : Granted) (r : BrowserResult) (s : State) :
    State :=
  match proxyApplied api c.split r with
  | .error e => s.connectCatch t c e
  | .ok _ => s.verifyRouting api t c.split fun n => .connect c (.verifyRouting g n)

/-- `connect` once its routing is verified. -/
def connectVerified (t : Nat) (c : ConnectCall) (g : Granted) (r : BrowserResult) (s : State) :
    State :=
  match proxyControl [.controlledByThisExtension] r with
  | .error e => s.connectCatch t c e
  | .ok _ =>
    if s.portDead then s.connectCatch t c hostGone
    else
      let s := { s with proxied := true, tunnelUp := true, exit := parseTunnelExit g.exit }
      let s := match c.heldHandler with
        | some h => s.removeListener h
        | none => s
      { s with connecting := false }.settle t (.ok (.endpoints g.endpoints))

def resumeConnect (t : Nat) (native : Bool) (c : ConnectCall) (s : State) :
    ConnectAwait → Option State
  | .assertProxyControl n => (s.browserResults n).map (s.connectControlled api t c ·)
  | .holdsLeakHardening n => (s.browserResults n).map (s.connectLeaksKnown api t native c ·)
  | .isAllowedIncognitoAccess n => (s.browserResults n).map (s.connectAccessKnown api t native c ·)
  | .request r => (s.results r).map (s.connectAnswered t c ·)
  | .hardenPolicy g n => (s.browserResults n).map (s.connectPolicyHardened api t c g ·)
  | .hardenPrediction g n => (s.browserResults n).map (s.connectHardened api t c g ·)
  | .applyProxy g n => (s.browserResults n).map (s.connectApplied api t c g ·)
  | .verifyRouting g n => (s.browserResults n).map (s.connectVerified t c g ·)
  | .restoreSettings e n => (s.browserResults n).map (s.connectRestored t c e ·)
  | .releasePolicy e n => (s.browserResults n).map (s.connectPolicyReleased api t c e ·)
  | .releasePrediction e n => (s.browserResults n).map fun _ => s.connectFailed t c e

/-! ## `reconnect`, `disconnect` and `applySplit` -/

/-- The `finally` both `reconnect` and `disconnect` release the host in. -/
def releaseHost (s : State) : State :=
  { { s with tunnelUp := false, endpoints := none, auth := none, exit := none,
             source := none }.closePort with releasing := false }

def reconnectReleased (t : Nat) (options : BrowserVpnConnectOptions) (s : State) : State :=
  s.releaseHost.connectStart api t options

/-- `reconnect` from the release of the old host on. -/
def reconnectRelease (t : Nat) (native : Bool) (options : BrowserVpnConnectOptions) (s : State) :
    State :=
  let s := { s with releasing := true }
  if s.portOpen then
    (s.request api native .disconnect).suspend t (.reconnectRelease options s.nextTask)
  else s.reconnectReleased api t options

def reconnectStart (t : Nat) (native : Bool) (options : BrowserVpnConnectOptions) (s : State) :
    State :=
  if s.tunnelUp = false then s.connectStart api t options
  else if s.connecting then s.settle t (.error (.of .alreadyConnected "connect in flight"))
  else
    match api.platform with
    | .chromium =>
      s.awaitCall t (.settingsSet (some (buildChromiumLockdownValue [])))
        (.reconnectLockdown options)
    | .firefox => s.reconnectRelease api t native options

def reconnectLocked (t : Nat) (native : Bool) (options : BrowserVpnConnectOptions)
    (r : BrowserResult) (s : State) : State :=
  match r with
  | .error e => s.settle t (.error e)
  | .ok _ => s.reconnectRelease api t native options

/-- The `finally` of `disconnect`. -/
def disconnectEnd (t : Nat) (r : TaskResult) (s : State) : State :=
  s.releaseHost.settle t r

def clearBrowserSettings (t : Nat) (s : State) : State :=
  s.removeOnRequestHandler.awaitCall t .settingsClear .disconnectSettings

def disconnectStart (t : Nat) (native : Bool) (s : State) : State :=
  let s := { s with releasing := true }
  if s.portOpen then
    (s.request api native .disconnect).suspend t (.disconnectRelease s.nextTask)
  else s.clearBrowserSettings t

def disconnectSettingsCleared (t : Nat) (r : BrowserResult) (s : State) : State :=
  match r with
  | .error e => s.disconnectEnd t (.error e)
  | .ok _ => s.awaitCall t .policyClear .disconnectPolicy

def disconnectPolicyCleared (t : Nat) (r : BrowserResult) (s : State) : State :=
  match r with
  | .error e => s.disconnectEnd t (.error e)
  | .ok _ => s.awaitOptional api.prediction t .predictionClear .disconnectPrediction

def disconnectPredictionCleared (t : Nat) (r : BrowserResult) (s : State) : State :=
  match r with
  | .error e => s.disconnectEnd t (.error e)
  | .ok _ => { s with proxied := false }.disconnectEnd t (.ok .undefined)

def applySplitStart (t : Nat) (split : SplitTunnelConfig) (s : State) : State :=
  match s.tunnelUp, s.endpoints with
  | true, some endpoints =>
    { s with onRequestHandler := none }.applyProxy api t endpoints split
      (.applySplitProxy split s.onRequestHandler)
  | _, _ => s.settle t (.error (.of .notConnected "no live tunnel to route through"))

def applySplitApplied (t : Nat) (split : SplitTunnelConfig) (previous : Option OnRequestHandler)
    (r : BrowserResult) (s : State) : State :=
  match proxyApplied api split r with
  | .error e => s.settle t (.error e)
  | .ok _ =>
    let s := match previous with
      | some h => s.removeListener h
      | none => s
    s.verifyRouting api t split .applySplitVerify

def applySplitVerified (t : Nat) (r : BrowserResult) (s : State) : State :=
  match proxyControl [.controlledByThisExtension] r with
  | .error e => s.settle t (.error e)
  | .ok _ => s.settle t (.ok .undefined)

/-! ## Events -/

/-- `blockReleasedListener`: nobody awaits the call. -/
def blockReleasedListener (s : State) : State :=
  match api.platform with
  | .chromium =>
    { s with calls := s.calls ++ [.settingsSet (some (buildChromiumLockdownValue []))] }
  | .firefox => s

/-- The `onDisconnect` listener of port `p`. -/
def portDied (p : Nat) (s : State) : State :=
  let lost := s.tunnelUp && !s.releasing
  let s := { s with live := Function.update s.live p false, portDead := true, tunnelUp := false,
                    auth := none, exit := none }
  let s := s.rejectPending "native messaging host disconnected"
  if lost then s.blockReleasedListener api else s

/-- The `onMessage` listener of port `p`. -/
def onMessage (p : Nat) (m : Option HostMessage) (s : State) : State :=
  match m with
  | some (.response response) =>
    let s := { s with received := s.received ++ [(p, response)] }
    if response.id ∈ s.pending then
      { s with
        pending := s.pending.filter (· ≠ response.id)
        answers := Function.update s.answers response.id <| some <|
          match response with
          | .ok _ body => .ok (p, body)
          | .error _ code message =>
            .error (.extension { code := .host, message, hostCode := some code }) }
    else s
  | _ => s

/-- What the extension holds of the settings after `c` was answered `r`: a call that rejects, or
resolves `false`, took no effect. -/
def takeEffect (c : BrowserCall) (r : BrowserResult) (s : State) : State :=
  match r with
  | .error _ | .ok (.bool false) => s
  | .ok _ =>
    match c with
    | .settingsSet (some value) => { s with settings := some value }
    | .settingsClear => { s with settings := none }
    | .policySet value => { s with policy := some value }
    | .policyClear => { s with policy := none }
    | .predictionSet value => { s with predictionSetting := some value }
    | .predictionClear => { s with predictionSetting := none }
    | _ => s

def resume (t : Nat) (native : Bool) (s : State) : Task → Option State
  | .hello m => (s.answers m).map (s.helloAnswered t ·)
  | .requestHandshake body h => (s.results h).map (s.requestHandshakeDone t native body ·)
  | .requestAnswer m =>
    (s.answers m).map fun r => s.settle t (r.map fun (port, body) => .answer port body)
  | .asking q r => (s.results r).map (s.finishAsking t q ·)
  | .connect c a => s.resumeConnect api t native c a
  | .reconnectLockdown options n =>
    (s.browserResults n).map (s.reconnectLocked api t native options ·)
  | .reconnectRelease options r => (s.results r).map fun _ => s.reconnectReleased api t options
  | .disconnectRelease r => (s.results r).map fun _ => s.clearBrowserSettings t
  | .disconnectSettings n => (s.browserResults n).map (s.disconnectSettingsCleared t ·)
  | .disconnectPolicy n => (s.browserResults n).map (s.disconnectPolicyCleared api t ·)
  | .disconnectPrediction n => (s.browserResults n).map (s.disconnectPredictionCleared t ·)
  | .applySplitProxy split previous n =>
    (s.browserResults n).map (s.applySplitApplied api t split previous ·)
  | .applySplitVerify n => (s.browserResults n).map (s.applySplitVerified t ·)

/-- The timer of `withTimeout` fires: the release stops waiting for its request. -/
def timeout (t : Nat) (s : State) : Task → Option State
  | .reconnectRelease options _ => some (s.reconnectReleased api t options)
  | .disconnectRelease _ => some (s.clearBrowserSettings t)
  | _ => none

end State

/-- What can happen next. `native` tells whether a host would attach to a port opened now. -/
inductive Event
  | connect (options : BrowserVpnConnectOptions)
  | reconnect (options : BrowserVpnConnectOptions) (native : Bool)
  | disconnect (native : Bool)
  | applySplit (split : SplitTunnelConfig)
  | ask (question : Question) (native : Bool)
  | resume (task : Nat) (native : Bool)
  | timeout (task : Nat)
  | browserAnswer (call : Nat) (result : BrowserResult)
  | message (port : Nat) (message : Option HostMessage)
  | death (port : Nat)

/-- One event in state `s`, `none` when it is not possible there. -/
def step (api : ChromeLike) (s : State) : Event → Option State
  | .connect options =>
    some ({ s with nextTask := s.nextTask + 1 }.connectStart api s.nextTask options)
  | .reconnect options native =>
    some ({ s with nextTask := s.nextTask + 1 }.reconnectStart api s.nextTask native options)
  | .disconnect native =>
    some ({ s with nextTask := s.nextTask + 1 }.disconnectStart api s.nextTask native)
  | .applySplit split =>
    some ({ s with nextTask := s.nextTask + 1 }.applySplitStart api s.nextTask split)
  | .ask question native =>
    some ({ s with nextTask := s.nextTask + 1 }.askStart api s.nextTask native question)
  | .resume t native => (s.tasks t).bind ((s.wake t).resume api t native)
  | .timeout t => (s.tasks t).bind ((s.wake t).timeout api t)
  | .browserAnswer n r =>
    match s.calls[n]? with
    | some c =>
      if s.browserResults n = none then
        some { s.takeEffect c r with browserResults := Function.update s.browserResults n (some r) }
      else none
    | none => none
  | .message p m => if s.live p then some (s.onMessage p m) else none
  | .death p => if s.live p then some (s.portDied api p) else none

end WarrenSdk.Extension
