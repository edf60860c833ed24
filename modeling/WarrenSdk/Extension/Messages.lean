import WarrenSdk.Extension.Protocol
import WarrenSdk.Lib.SerdeFields

/-!
# The messages of a port as JSON (`protocol.ts`)

What `postMessage` is given, and how a message that comes in is narrowed. A field that is
`undefined` is not in the JSON. The client looks at a field only where it needs it: an answer
without a field that its type promises is `ResponseBody.other` here, and the texts that an error
lacks are empty.
-/

namespace WarrenSdk.Extension
open Lib

/-! ## What is posted -/

def ProductChannel.asStr : ProductChannel → String
  | .prod => "prod"
  | .beta => "beta"

def ExtensionExitQuery.fields (q : ExtensionExitQuery) : List (Utf16 × Option Json) := [
  ("exitPubkeyHex", q.exitPubkeyHex.map .text),
  ("country", q.country.map .text),
  ("city", q.city.map .text)]

def ExtensionExitQuery.toJson (q : ExtensionExitQuery) : Json := .ofFields q.fields

def ExtensionEntryQuery.fields (q : ExtensionEntryQuery) : List (Utf16 × Option Json) := [
  ("country", q.country.map .text),
  ("city", q.city.map .text)]

def ExtensionEntryQuery.toJson (q : ExtensionEntryQuery) : Json := .ofFields q.fields

def ExtensionDevice.toJson (d : ExtensionDevice) : Json :=
  .ofFields [
    ("id", some (.text d.id)),
    ("name", some (.text d.name)),
    ("appVersion", some (.text d.appVersion))]

/-- The fields of a body, its `type` aside. -/
def HostRequest.fields : HostRequest → List (Utf16 × Option Json)
  | .hello protocol channel =>
    [("protocol", some (.number protocol)), ("channel", some (.text channel.asStr))]
  | .connect mnemonic selector entrySelector httpProxy daita device => [
    ("mnemonic", some (.text mnemonic)),
    ("selector", selector.map (·.toJson)),
    ("entrySelector", entrySelector.map (·.toJson)),
    ("httpProxy", httpProxy.map .bool),
    ("daita", daita.map .bool),
    ("device", device.map (·.toJson))]
  | .account mnemonic => [("mnemonic", some (.text mnemonic))]
  | .status | .disconnect | .exits => []

def HostRequest.type : HostRequest → String
  | .hello .. => "hello"
  | .status => "status"
  | .connect .. => "connect"
  | .disconnect => "disconnect"
  | .exits => "exits"
  | .account .. => "account"

/-- The fields of `{ id, ...body }`. -/
def HostRequest.message (id : Nat) (body : HostRequest) : List (Utf16 × Option Json) :=
  ("id", some (.number id)) :: ("type", some (.text body.type)) :: body.fields

def HostRequest.toJson (id : Nat) (body : HostRequest) : Json := .ofFields (body.message id)

/-! ## What comes in -/

def ExtensionVpnState.ofString? : String → Option ExtensionVpnState
  | "connecting" => some .connecting
  | "connected" => some .connected
  | "reconnecting" => some .reconnecting
  | "draining" => some .draining
  | "failed" => some .failed
  | "disconnected" => some .disconnected
  | _ => none

def HostDatapath.ofString? : String → Option HostDatapath
  | "ready" => some .ready
  | "missing" => some .missing
  | "outdated" => some .outdated
  | _ => none

section
variable (members : List (Utf16 × Json))

/-- A member that is a string. -/
def textMember (key : Utf16) : Option String := (Json.member members key).bind Serde.string

/-- The members of a member that is an object. -/
def objectMember (key : Utf16) : Option (List (Utf16 × Json)) :=
  match Json.member members key with
  | some (.object fields) => some fields
  | _ => none

def readEndpoints : Option ExtensionEndpoints := do
  let socks5 ← textMember members "socks5"
  return { socks5, http := textMember members "http" }

def readExit : RawExit where
  country := textMember members "country"
  city := textMember members "city"

def readAuth : RawAuth where
  username := textMember members "username"
  password := textMember members "password"

def readLocation : Json → Option ExtensionExitLocation
  | .object members => do
    let country ← textMember members "country"
    let city ← textMember members "city"
    let active ← (Json.member members "active").bind Serde.bool
    return { country, city, active }
  | _ => none

def readHello : Option ResponseBody := do
  let protocol ← (Json.member members "protocol").bind Json.nat?
  return .hello protocol ((textMember members "datapath").bind HostDatapath.ofString?)

def readStatus : Option ResponseBody := do
  let state ← (textMember members "state").bind ExtensionVpnState.ofString?
  let endpoints := (objectMember members "endpoints").bind readEndpoints
  let viaSystem := textMember members "via" = some "system"
  return .status state endpoints viaSystem ((objectMember members "exit").map readExit)

def readConnect : Option ResponseBody := do
  let endpoints ← (objectMember members "endpoints").bind readEndpoints
  let auth := (objectMember members "auth").map readAuth
  return .connect endpoints auth ((objectMember members "exit").map readExit)

def readExits : Option ResponseBody := do
  let locations ← Json.member members "locations"
  return .exits (← Serde.vec readLocation locations)

def readAccount : Option ResponseBody := do
  let expiresAt ← (Json.member members "expiresAt").bind Json.nat?
  return .account expiresAt

/-- A successful answer by its type. -/
def readBody : ResponseBody :=
  match textMember members "type" with
  | some "hello" => (readHello members).getD .other
  | some "status" => (readStatus members).getD .other
  | some "connect" => (readConnect members).getD .other
  | some "disconnect" => .disconnect
  | some "exits" => (readExits members).getD .other
  | some "account" => (readAccount members).getD .other
  | _ => .other

/-- An answer to the request `id`. -/
def readResponse (id : Nat) (ok : Bool) : HostResponse :=
  if ok then .ok id (readBody members)
  else
    .error id ((textMember members "code").getD "") ((textMember members "message").getD "")

end

/-- `parseHostMessage`. An `id` that is no natural number is none that the client waits for. -/
def parseHostMessage : Json → Option HostMessage
  | .object members =>
    match textMember members "type", textMember members "state" with
    | some "state", some state => (ExtensionVpnState.ofString? state).map .state
    | _, _ =>
      match Json.member members "id", Json.member members "ok" with
      | some (.number q), some (.bool ok) =>
        (Json.nat? (.number q)).map fun id => .response (readResponse members id ok)
      | _, _ => none
  | _ => none

end WarrenSdk.Extension
