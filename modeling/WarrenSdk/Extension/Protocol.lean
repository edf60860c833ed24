import Mathlib.Init

/-!
# The extension's protocol with its native host (`protocol.ts`)

Requests carry an `id` the answers repeat. A host message reaches the client as `parseHostMessage`
narrows it; an answer of a type the client does not know is `ResponseBody.other`. The fields whose
shape the client checks itself (`auth` and `exit`) are kept as the host sent them.
-/

namespace WarrenSdk.Extension

def EXTENSION_PROTOCOL_VERSION : Nat := 3

inductive ProductChannel
  | prod
  | beta
deriving DecidableEq, Repr

/-- The browser install's device, which the host registers its tunnel as. -/
structure ExtensionDevice where
  id : String
  name : String
  appVersion : String
deriving DecidableEq, Repr

inductive ExtensionVpnState
  | connecting
  | connected
  | reconnecting
  | draining
  | failed
  | disconnected
deriving DecidableEq, Repr

/-- Whether the host's native datapath addon can carry a tunnel. -/
inductive HostDatapath
  | ready
  | missing
  | outdated
deriving DecidableEq, Repr

structure ExtensionExitQuery where
  exitPubkeyHex : Option String := none
  country : Option String := none
  city : Option String := none
deriving DecidableEq, Repr

structure ExtensionEntryQuery where
  country : Option String := none
  city : Option String := none
deriving DecidableEq, Repr

structure ExtensionExitLocation where
  country : String
  city : String
  active : Bool
deriving DecidableEq, Repr

/-- The exit a live tunnel lands on. -/
structure ExtensionTunnelExit where
  country : String
  city : String
deriving DecidableEq, Repr

/-- An `exit` field that is an object, each part `none` when it is not a string. -/
structure RawExit where
  country : Option String := none
  city : Option String := none
deriving DecidableEq, Repr

def isAsciiLetter (c : Char) : Bool :=
  ('A' ≤ c && c ≤ 'Z') || ('a' ≤ c && c ≤ 'z')

/-- The `exit` field of an answer, unless it is absent or not a two-letter country with a city. -/
def parseTunnelExit (value : Option RawExit) : Option ExtensionTunnelExit := do
  let { country, city } ← value
  let country ← country
  if country.length = 2 ∧ country.toList.all isAsciiLetter then
    let city ← city
    return { country := country.toUpper, city }
  else none

/-- What the extension asks of the host; the `id` is added when it is sent. -/
inductive HostRequest
  | hello (protocol : Nat) (channel : ProductChannel)
  | status
  | connect (mnemonic : String) (selector : Option ExtensionExitQuery)
      (entrySelector : Option ExtensionEntryQuery) (httpProxy : Option Bool) (daita : Option Bool)
      (device : Option ExtensionDevice)
  | disconnect
  | exits
  | account (mnemonic : String)
deriving DecidableEq, Repr

/-- The local listeners of a connected host. -/
structure ExtensionEndpoints where
  socks5 : String
  http : Option String := none
deriving DecidableEq, Repr

/-- The credentials both listeners demand. -/
structure ExtensionProxyAuth where
  username : String
  password : String
deriving DecidableEq, Repr

/-- An `auth` field that is an object, each part `none` when it is not a string. -/
structure RawAuth where
  username : Option String := none
  password : Option String := none
deriving DecidableEq, Repr

/-- Whether a host answer carries the credentials its listeners demand. -/
def listenerAuth (auth : Option RawAuth) : Option ExtensionProxyAuth := do
  let { username, password } ← auth
  let username ← username
  if username.length = 0 then none
  let password ← password
  if password.length = 0 then none
  return { username, password }

/-- The successful answers, by type. -/
inductive ResponseBody
  | hello (protocol : Nat) (datapath : Option HostDatapath)
  | status (state : ExtensionVpnState) (endpoints : Option ExtensionEndpoints) (viaSystem : Bool)
      (exit : Option RawExit)
  | connect (endpoints : ExtensionEndpoints) (auth : Option RawAuth) (exit : Option RawExit)
  | disconnect
  | exits (locations : List ExtensionExitLocation)
  | account (expiresAt : Nat)
  | other
deriving DecidableEq, Repr

/-- An answer to a request: `ok`, or the host's error code and message. -/
inductive HostResponse
  | ok (id : Nat) (body : ResponseBody)
  | error (id : Nat) (code message : String)
deriving DecidableEq, Repr

def HostResponse.id : HostResponse → Nat
  | .ok id _ | .error id _ _ => id

/-- What `parseHostMessage` makes of a host message it can read. -/
inductive HostMessage
  | state (state : ExtensionVpnState)
  | response (response : HostResponse)
deriving DecidableEq, Repr

end WarrenSdk.Extension
