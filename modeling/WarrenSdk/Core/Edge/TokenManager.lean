import WarrenSdk.Core.Edge.TokenAcquire
import WarrenSdk.Lib.Json
import WarrenSdk.Lib.OrderedMap

/-!
# The token manager (`edge/token-manager.ts`)

One manager over its persistence, and the refreshes in flight. A refresh runs undisturbed from one
of its awaits to the next; a `Refresh` is one that is suspended, and `step` runs one event: a method
called, an answer of the transport, or a suspended refresh that goes on. What the manager saves is
JSON text; it is kept as the value the text denotes.
-/

namespace WarrenSdk.Core
open Lib

def REJECT_ALREADY_ISSUED : Utf16 := Utf16.ofString "already_issued"

def BUNDLE_VERSION : Nat := 1

structure DeviceRegistration where
  deviceId : Utf16
  name : Utf16
  platform : Utf16
  appVersion : Utf16
deriving DecidableEq

/-- The name a registration is answered with. -/
structure DeviceView where
  name : Utf16
deriving DecidableEq

/-- The wallet a manager is constructed for, and its options. -/
structure TokenManagerOptions where
  blindingKey : Option Bytes := none
  rotation : Nat := 0
  device : Option DeviceRegistration := none
deriving DecidableEq

/-- A token as it is stored and presented. -/
abbrev TokenBytes := Octets TOKEN_LEN

structure TokenManager where
  store : OrderedMap Nat (List TokenBytes) := .empty
  /-- Epochs minted, or definitively `already_issued`, by this manager. -/
  settled : List Nat := []
  epochSecs : Option Nat := none
  /-- The serials that live sessions hold. -/
  held : List Utf16 := []
  rotation : Nat
  blindingKey : Option Bytes
  device : Option DeviceRegistration
  revoked : Bool := false

variable (H : Hashes) (E : Encodings)

namespace TokenManager

/-! ## The persisted bundle -/

/-- A key of the bundle's `epochs`, read as `Number` reads decimal digits; any other spelling of a
number is never written. -/
def epochOfKey (key : Utf16) : Option Nat :=
  let cs := Utf16.codePoints key
  if cs.all Char.isDigit then if cs = [] then some 0 else (String.ofList cs).toNat? else none

def keyOfEpoch (epoch : Nat) : Utf16 := Utf16.ofString (toString epoch)

/-- The text `persist` saves. The order of the members is not that of the text, which nothing
reads. -/
def bundle (m : TokenManager) : Json :=
  .object [
    (.ofString "v", .number BUNDLE_VERSION),
    (.ofString "epochSecs", .number (m.epochSecs.getD 0 : Nat)),
    (.ofString "epochs", .object <| m.store.entries.map fun (epoch, tokens) =>
      (keyOfEpoch epoch, .array (tokens.map fun t => .string (E.base64 t.1))))]

/-- One entry of a bundle's tokens: what is no token is skipped. -/
def loadToken : Json → Option TokenBytes
  | .string b64 =>
    match E.unbase64 b64 with
    | none => none
    | some bytes => if h : bytes.length = TOKEN_LEN then some ⟨bytes, h⟩ else none
  | _ => none

/-- One epoch of a bundle. -/
def loadEpoch (store : OrderedMap Nat (List TokenBytes)) :
    Utf16 × Json → OrderedMap Nat (List TokenBytes)
  | (key, .array encoded) =>
    match epochOfKey key with
    | some epoch =>
      let tokens := encoded.filterMap (loadToken E)
      if 0 < tokens.length then store.set epoch tokens else store
    | none => store
  | _ => store

/-- `Object.entries` -/
def objectEntries : Json → List (Utf16 × Json)
  | .object members => members
  | .array items => items.zipIdx.map fun (item, i) => (Utf16.ofString (toString i), item)
  | _ => []

def loadEpochSecs (bundle : List (Utf16 × Json)) (m : TokenManager) : TokenManager :=
  match (Json.member bundle (.ofString "epochSecs")).bind Json.nat? with
  | some secs => if 0 < secs then { m with epochSecs := some secs } else m
  | none => m

/-- `raw` is the parsed text, `none` when there is none or it is no JSON. -/
def loadPersisted (raw : Option Json) (m : TokenManager) : TokenManager :=
  match raw with
  | some (.object bundle) =>
    if (Json.member bundle (.ofString "v")).bind Json.nat? = some BUNDLE_VERSION then
      let m := loadEpochSecs bundle m
      match Json.member bundle (.ofString "epochs") with
      | some epochs => { m with store := (objectEntries epochs).foldl (loadEpoch E) m.store }
      | none => m
    else m
  | _ => m

/-- The constructor. -/
def new (options : TokenManagerOptions) (raw : Option Json) : TokenManager :=
  loadPersisted E raw
    { rotation := options.rotation, blindingKey := options.blindingKey, device := options.device }

/-! ## Reading the stock -/

def epochAt (nowUnixSecs : Nat) (m : TokenManager) : Option Nat :=
  match m.epochSecs with
  | none => none
  | some epochSecs => if epochSecs ≤ 0 then none else some (nowUnixSecs / epochSecs)

def available (epoch : Nat) (m : TokenManager) : Nat := ((m.store.get epoch).getD []).length

def epochs (m : TokenManager) : List Nat := m.store.keys.mergeSort

/-- The serial of a token as the manager holds it. -/
def heldKey (token : Bytes) : Option Utf16 := (tokenSerial H token).map fun s => E.bytesToHex s.1

def sessionStack (nowUnixSecs : Nat) (m : TokenManager) : List TokenBytes :=
  match m.epochAt nowUnixSecs with
  | none => []
  | some epoch =>
    let tokens := (m.store.get epoch).getD []
    if tokens.length = 0 then []
    else
      let start := m.rotation % tokens.length
      (tokens.drop start ++ tokens.take start).filter fun token =>
        match heldKey H E token.1 with
        | none => false
        | some key => key ∉ m.held

/-- Holds a serial; `none` when a live session holds it, or for what is no token. -/
def claim (token : Bytes) (m : TokenManager) : Option (Utf16 × TokenManager) :=
  match heldKey H E token with
  | none => none
  | some key => if key ∈ m.held then none else some (key, { m with held := m.held ++ [key] })

/-- The first `release` of a lease on `key`. -/
def release (key : Utf16) (m : TokenManager) : TokenManager :=
  { m with held := m.held.filter (· ≠ key) }

/-- `takeCurrentStack` up to saving, which it does when a token was taken. -/
def popCurrent (nowUnixSecs : Nat) (m : TokenManager) : Option (TokenBytes × TokenManager) :=
  match m.epochAt nowUnixSecs with
  | none => none
  | some epoch =>
    match m.store.get epoch with
    | none => none
    | some tokens =>
      match tokens.getLast? with
      | none => none
      | some token =>
        some (token,
          { m with store :=
            if tokens.dropLast.length = 0 then m.store.delete epoch
            else m.store.set epoch tokens.dropLast })

/-! ## Writing the stock -/

def pruneBefore (minEpoch : Nat) (m : TokenManager) : TokenManager :=
  { m with store := m.store.filterKeys fun epoch => !(epoch < minEpoch) }

/-- What a refresh does with the directory it fetched. -/
def adoptDirectory (directory : TokenIssuerDirectory) (current : Nat) (m : TokenManager) :
    TokenManager :=
  let m := m.pruneBefore current
  { m with
    settled := m.settled.filter fun epoch => !(epoch < current)
    epochSecs := some directory.epochSecs }

def targets (directory : TokenIssuerDirectory) (current : Nat) (m : TokenManager) : List Nat :=
  (directory.keys.map (·.epoch)).filter fun epoch => current ≤ epoch ∧ epoch ∉ m.settled

def settle (epoch : Nat) (m : TokenManager) : TokenManager :=
  if epoch ∈ m.settled then m else { m with settled := m.settled ++ [epoch] }

/-- Stocks the tokens minted for an epoch. -/
def stock (epoch : Nat) (tokens : List Token) (m : TokenManager) : TokenManager :=
  let m := m.settle epoch
  let serialized := tokens.map (·.serialize)
  match m.store.get epoch with
  | some existing => { m with store := m.store.set epoch (existing ++ serialized) }
  | none => { m with store := m.store.set epoch serialized }

/-- `revoke` up to saving. -/
def dropStock (m : TokenManager) : TokenManager := { m with revoked := true, store := .empty }

end TokenManager

def revokedError : Failure :=
  .api { code := .deviceRevoked
         message := "this device was disconnected from another device of the account"
         status := some 403 }

/-- The device refusals that every epoch of a pass would answer alike. -/
def answersEveryEpoch (e : WarrenApiError) : Bool :=
  e.code = .deviceUnregistered || e.code = .deviceLimitReached

/-! ## Refreshes in flight -/

/-- What the rest of a pass needs: its directory, its key, the epochs still to come, and whether it
registered its device once more. -/
structure Pass where
  directory : TokenIssuerDirectory
  blindingKey : Bytes
  rest : List Nat
  registered : Bool := false

/-- A refresh, by the await it is suspended at. -/
inductive Refresh
  /-- At `registerDevice` at the start. -/
  | registering (now : Nat) (blindingKey : Bytes)
  /-- After `registerAtStart`. -/
  | registered (now : Nat) (blindingKey : Bytes)
  /-- At `getDirectory`. -/
  | fetching (now : Nat) (blindingKey : Bytes)
  /-- At `issue`, for the epoch. -/
  | minting (pass : Pass) (epoch : Nat) (device : Option DeviceRegistration) (minting : Minting)
  /-- With the tokens of the epoch on their way to `refresh`. -/
  | minted (pass : Pass) (epoch : Nat) (tokens : List Token)
  /-- With an error of `mint` on its way to `mintAsDevice`. -/
  | mintFailed (pass : Pass) (epoch : Nat) (device : Option DeviceRegistration) (error : Failure)
  /-- At `registerDevice`, before asking once more. -/
  | reregistering (pass : Pass) (epoch : Nat) (device : DeviceRegistration)
  /-- With an error on its way to `refresh`. -/
  | failed (pass : Pass) (epoch : Nat) (error : Failure)

/-- What the transport was asked. -/
inductive Sent
  | registerDevice (registration : DeviceRegistration)
  | getDirectory
  | issue (request : TokenIssueRequest)
deriving DecidableEq

structure TokenState where
  manager : TokenManager
  /-- What was last saved. -/
  persisted : Option Json := none
  refreshes : Nat → Option Refresh := fun _ => none
  nextRefresh : Nat := 0
  sent : List Sent := []
  /-- How the refreshes ended. -/
  finished : List (Nat × Except Failure Unit) := []
  /-- The tokens `takeCurrentStack` returned. -/
  taken : List TokenBytes := []
  /-- What `onDeviceName` was called with. -/
  deviceNames : List Utf16 := []
  /-- The last time that was passed in. -/
  clock : Nat := 0

namespace TokenState

def suspend (t : Nat) (r : Refresh) (s : TokenState) : TokenState :=
  { s with refreshes := Function.update s.refreshes t (some r) }

def wake (t : Nat) (s : TokenState) : TokenState :=
  { s with refreshes := Function.update s.refreshes t none }

def finish (t : Nat) (result : Except Failure Unit) (s : TokenState) : TokenState :=
  { s with finished := s.finished ++ [(t, result)] }

def ask (request : Sent) (s : TokenState) : TokenState := { s with sent := s.sent ++ [request] }

/-- `persist`, which throws what `save` throws. -/
def persist (saved : Bool) (s : TokenState) : TokenState × Except Failure Unit :=
  if saved then ({ s with persisted := some (s.manager.bundle E) }, .ok ())
  else (s, .error (.error "save failed"))

/-- `persist`, then the end of the refresh. -/
def persistAndFinish (t : Nat) (saved : Bool) (result : Except Failure Unit) (s : TokenState) :
    TokenState :=
  match s.persist E saved with
  | (s, .ok ()) => s.finish t result
  | (s, .error e) => s.finish t (.error e)

/-- `adopt`, for a manager with a device. -/
def adopt (view : DeviceView) (s : TokenState) : TokenState :=
  match s.manager.device with
  | none => s
  | some device =>
    if device.name = view.name then s
    else
      { s with
        manager := { s.manager with device := some { device with name := view.name } }
        deviceNames := s.deviceNames ++ [view.name] }

/-- `mint` of `mintAsDevice` up to the issuer; `none` when it never gets there. -/
def mint (fuel t : Nat) (pass : Pass) (epoch : Nat) (device : Option DeviceRegistration)
    (s : TokenState) : Option TokenState :=
  match mintRequest H E pass.directory epoch pass.directory.quotaPerEpoch pass.blindingKey
      (device.map (·.deviceId)) fuel with
  | none => none
  | some (.error e) => some (s.suspend t (.mintFailed pass epoch device e))
  | some (.ok minting) =>
    some ((s.ask (.issue minting.request)).suspend t (.minting pass epoch device minting))

/-- The loop of `refresh`, from the next epoch on. -/
def mintNext (fuel t : Nat) (saved : Bool) (pass : Pass) (s : TokenState) : Option TokenState :=
  match pass.rest with
  | [] => some (s.persistAndFinish E t saved (.ok ()))
  | epoch :: rest => s.mint H E fuel t { pass with rest } epoch s.manager.device

/-- `refresh` up to its first await. -/
def refresh (t now : Nat) (s : TokenState) : TokenState :=
  match s.manager.blindingKey with
  | none =>
    s.finish t (.error (.edge
      { code := .noBlindingKey,
        message := "a token manager mints only from a wallet blinding key" }))
  | some blindingKey =>
    if s.manager.revoked then s.finish t (.error revokedError)
    else
      match s.manager.device with
      | none => s.suspend t (.registered now blindingKey)
      | some device => (s.ask (.registerDevice device)).suspend t (.registering now blindingKey)

/-- The answer to the registration at the start. -/
def startRegistered (t now : Nat) (blindingKey : Bytes) (saved : Bool)
    (answer : Except Failure DeviceView) (s : TokenState) : TokenState :=
  match answer with
  | .ok view => (s.adopt view).suspend t (.registered now blindingKey)
  | .error (.api e) =>
    if e.code = .deviceRevoked then
      { s with manager := s.manager.dropStock }.persistAndFinish E t saved (.error (.api e))
    else if e.code = .deviceLimitReached then s.finish t (.error (.api e))
    else s.suspend t (.registered now blindingKey)
  | .error _ => s.suspend t (.registered now blindingKey)

/-- The answer to `getDirectory`. -/
def fetched (fuel t now : Nat) (blindingKey : Bytes) (saved : Bool)
    (answer : Except Failure TokenIssuerDirectory) (s : TokenState) : Option TokenState :=
  match answer with
  | .error e => some (s.finish t (.error e))
  | .ok directory =>
    match currentEpoch directory now with
    | .error e => some (s.finish t (.error e))
    | .ok current =>
      let manager := s.manager.adoptDirectory directory current
      { s with manager }.mintNext H E fuel t saved
        { directory, blindingKey, rest := manager.targets directory current }

/-- The answer to `issue`. -/
def issued (t : Nat) (pass : Pass) (epoch : Nat) (device : Option DeviceRegistration)
    (minting : Minting) (answer : Except Failure TokenIssueResponse) (s : TokenState) :
    TokenState :=
  match answer with
  | .error e => s.suspend t (.mintFailed pass epoch device e)
  | .ok response =>
    match mintTokens H E minting epoch response with
    | .error e => s.suspend t (.mintFailed pass epoch device e)
    | .ok tokens => s.suspend t (.minted pass epoch tokens)

/-- `refresh` with the tokens of an epoch: a revocation answered while they were in flight wins. -/
def stocked (fuel t : Nat) (saved : Bool) (pass : Pass) (epoch : Nat) (tokens : List Token)
    (s : TokenState) : Option TokenState :=
  if s.manager.revoked then s.mintNext H E fuel t saved pass
  else { s with manager := s.manager.stock epoch tokens }.mintNext H E fuel t saved pass

/-- `mintAsDevice` with an error of `mint`: a device the issuer does not know is registered once
more in a pass. -/
def mintFailed (t : Nat) (pass : Pass) (epoch : Nat) (device : Option DeviceRegistration)
    (error : Failure) (s : TokenState) : TokenState :=
  match device, error with
  | some device, .api e =>
    if e.code = .deviceUnregistered ∧ pass.registered = false then
      (s.ask (.registerDevice device)).suspend t
        (.reregistering { pass with registered := true } epoch device)
    else s.suspend t (.failed pass epoch (.api e))
  | _, error => s.suspend t (.failed pass epoch error)

/-- The answer to the registration before asking once more. -/
def reregistered (fuel t : Nat) (pass : Pass) (epoch : Nat) (device : DeviceRegistration)
    (answer : Except Failure DeviceView) (s : TokenState) : Option TokenState :=
  match answer with
  | .error e => some (s.suspend t (.failed pass epoch e))
  | .ok view => (s.adopt view).mint H E fuel t pass epoch (some device)

/-- `refresh` with the error of an epoch. -/
def caught (fuel t : Nat) (saved : Bool) (pass : Pass) (epoch : Nat) (error : Failure)
    (s : TokenState) : Option TokenState :=
  match error with
  | .api e =>
    if e.code = .deviceRevoked then
      some <| { s with manager := s.manager.dropStock }.persistAndFinish E t saved (.error (.api e))
    else if e.status = some 401 ∨ answersEveryEpoch e then
      some (s.persistAndFinish E t saved (.error (.api e)))
    else s.mintNext H E fuel t saved pass
  | .edge e =>
    if e.rejectReason = some REJECT_ALREADY_ISSUED then
      { s with manager := s.manager.settle epoch }.mintNext H E fuel t saved pass
    else s.mintNext H E fuel t saved pass
  | _ => s.mintNext H E fuel t saved pass

/-- `takeCurrentStack`; a token whose removal cannot be saved is not returned. -/
def takeCurrentStack (now : Nat) (saved : Bool) (s : TokenState) : TokenState :=
  match s.manager.popCurrent now with
  | none => s
  | some (token, manager) =>
    match { s with manager }.persist E saved with
    | (s, .ok ()) => { s with taken := s.taken ++ [token] }
    | (s, .error _) => s

/-- A new manager over the same persistence; the refreshes of the old one are gone with it. -/
def restart (options : TokenManagerOptions) (s : TokenState) : TokenState :=
  { s with manager := .new E options s.persisted, refreshes := fun _ => none }

end TokenState

/-- What can happen next. `saved` says whether `save` succeeds, should the event come to it. -/
inductive TokenEvent
  | refresh (now : Nat)
  | takeCurrentStack (now : Nat) (saved : Bool)
  | restart (options : TokenManagerOptions)
  | setDeviceName (name : Utf16)
  | registered (refresh : Nat) (answer : Except Failure DeviceView) (saved : Bool)
  | directory (refresh : Nat) (answer : Except Failure TokenIssuerDirectory) (saved : Bool)
  | issued (refresh : Nat) (answer : Except Failure TokenIssueResponse)
  /-- A refresh goes on with what it awaited. -/
  | resume (refresh : Nat) (saved : Bool)

/-- One event in state `s`, `none` when no refresh waits for it. -/
def tokenStep (fuel : Nat) (s : TokenState) : TokenEvent → Option TokenState
  | .refresh now =>
    some ({ s with nextRefresh := s.nextRefresh + 1, clock := now }.refresh s.nextRefresh now)
  | .takeCurrentStack now saved => some ({ s with clock := now }.takeCurrentStack E now saved)
  | .restart options => some (s.restart E options)
  | .setDeviceName name =>
    some { s with manager := { s.manager with
      device := s.manager.device.map fun device => { device with name } } }
  | .registered t answer saved =>
    match s.refreshes t with
    | some (.registering now key) => some ((s.wake t).startRegistered E t now key saved answer)
    | some (.reregistering pass epoch device) =>
      (s.wake t).reregistered H E fuel t pass epoch device answer
    | _ => none
  | .directory t answer saved =>
    match s.refreshes t with
    | some (.fetching now key) => (s.wake t).fetched H E fuel t now key saved answer
    | _ => none
  | .issued t answer =>
    match s.refreshes t with
    | some (.minting pass epoch device minting) =>
      some ((s.wake t).issued H E t pass epoch device minting answer)
    | _ => none
  | .resume t saved =>
    match s.refreshes t with
    | some (.registered now key) =>
      some (((s.wake t).ask .getDirectory).suspend t (.fetching now key))
    | some (.minted pass epoch tokens) => (s.wake t).stocked H E fuel t saved pass epoch tokens
    | some (.mintFailed pass epoch device error) =>
      some ((s.wake t).mintFailed t pass epoch device error)
    | some (.failed pass epoch error) => (s.wake t).caught H E fuel t saved pass epoch error
    | _ => none

end WarrenSdk.Core
