import Mathlib.Data.List.Infix
import WarrenSdk.Extension.Client.State
import WarrenSdk.Lib.Base64
import WarrenSdk.Lib.Json

/-!
# Zero-install browser routing (`browser-routing.ts`)

The routing records the browser keeps across restarts, the settings they stand for, and the check of
a stored value. A record read back is the stored value itself, checked only in part: the fields of a
split that `asRoutingRecord` does not look at stay JSON, and a decision on them can throw.
-/

namespace WarrenSdk.Extension

open Lib (Utf16 Json)

def CREDENTIAL_USERNAME : String := "warren"

/-- Where the browser reaches an ingress: the `https` tier, or `masque` which falls back to it. -/
inductive IngressEndpoint
  | https (host : Utf16) (port : Rat)
  | masque (host : Utf16) (port : Rat) (masqueTemplate : Utf16)
deriving DecidableEq

def IngressEndpoint.host : IngressEndpoint → Utf16
  | .https host _ | .masque host _ _ => host

def IngressEndpoint.port : IngressEndpoint → Rat
  | .https _ port | .masque _ port _ => port

/-! ## Chromium's values -/

/-- A PAC script that routes tunnelled hosts to the ingress, others direct. -/
def buildIngressPac (toLowerCase : Utf16 → Utf16) (host : Utf16) (port : Rat)
    (split : SplitTunnelConfig) : PacScript where
  rules := Lib.JsString.stringify (split.rules.map toLowerCase)
  onlyMode := split.mode = .only
  proxy := .HTTPS host port

/-- `only` compiles to a PAC script; the scheme is always `https`. -/
def buildChromiumIngressValue (toLowerCase : Utf16 → Utf16) (endpoint : IngressEndpoint)
    (split : SplitTunnelConfig) : ProxyValue :=
  if split.mode = .only then
    .pacScript (buildIngressPac toLowerCase endpoint.host endpoint.port split) true
  else
    .fixedServers "https" endpoint.host (.number endpoint.port)
      (if split.mode = .bypass then LOOPBACK_BYPASS ++ split.rules else LOOPBACK_BYPASS)

def isLoopbackHost (toLowerCase : Utf16 → Utf16) (hostname : Utf16) : Bool :=
  let host := toLowerCase hostname
  host = "localhost" || (".localhost" : Utf16).isSuffixOf host || host = "127.0.0.1" ||
    host = "::1" || host = "[::1]"

/-! ## Stored splits -/

/-- A split as it is stored: only its mode is checked for every record. -/
structure StoredSplit where
  mode : SplitTunnelMode
  rules : Option Json
  tabs : Option Json

namespace StoredSplit

/-- `config.rules.some(…)` over the items of an array: a rule that is no string throws. -/
def someMatches (toLowerCase : Utf16 → Utf16) (host : Utf16) : List Json → Except Failure Bool
  | [] => .ok false
  | .string rule :: rest =>
    if hostMatchesRule toLowerCase host rule then .ok true else someMatches toLowerCase host rest
  | _ :: _ => .error .thrown

def matched (toLowerCase : Utf16 → Utf16) (host : Utf16) (split : StoredSplit) :
    Except Failure Bool :=
  match split.rules with
  | some (.array items) => someMatches toLowerCase host items
  | _ => .error .thrown

/-- `config.tabs?.includes(tab) === true`: arrays and strings have the method. -/
def includesTab (tab : Int) (split : StoredSplit) : Except Failure Bool :=
  match split.tabs with
  | none | some .null => .ok false
  | some (.array items) => .ok (items.any fun | .number q => q = tab | _ => false)
  | some (.string s) => .ok ((toString tab : Utf16) <:+: s)
  | _ => .error .thrown

/-- `shouldTunnelHost` on a stored split. -/
def shouldTunnelHost (toLowerCase : Utf16 → Utf16) (host : Utf16) (split : StoredSplit) :
    Except Failure Bool :=
  if isLoopback toLowerCase host then .ok false
  else
    (split.matched toLowerCase host).map fun matched =>
      match split.mode with
      | .bypass => !matched
      | .only => matched
      | .all => true

/-- `shouldTunnelRequest` on a stored split. -/
def shouldTunnelRequest (toLowerCase : Utf16 → Utf16) (request : BrowserRequest)
    (split : StoredSplit) : Except Failure Bool :=
  if isLoopback toLowerCase request.host then .ok false
  else do
    let listed ←
      match split.mode, request.tabId with
      | .only, some tab => split.includesTab tab
      | _, _ => pure false
    if listed then pure true else split.shouldTunnelHost toLowerCase request.host

end StoredSplit

/-! ## Routing records -/

/-- Whatever the browser is told to do: route through an ingress, stall every request but the exempt
ones, or route through the native host's listener. -/
inductive RoutingRecord
  | ingress (endpoint : IngressEndpoint) (split : StoredSplit)
  | lockdown (exempt : List Utf16)
  | multihop (socks5 : Utf16) (split : StoredSplit)

/-- A property of a value, `none` when it has none of that name. -/
def property (key : String) : Json → Option Json
  | .object members => Json.member members key
  | _ => none

def stringProperty (key : String) (value : Json) : Option Utf16 :=
  match property key value with
  | some (.string s) => some s
  | _ => none

def numberProperty (key : String) (value : Json) : Option Rat :=
  match property key value with
  | some (.number q) => some q
  | _ => none

/-- The strings of an array that holds nothing else. -/
def stringArray : Option Json → Option (List Utf16)
  | some (.array items) => items.mapM fun | .string s => some s | _ => none
  | _ => none

def asMode (value : Json) : Option SplitTunnelMode := do
  let mode ← stringProperty "mode" value
  if mode = "all" then some .all
  else if mode = "bypass" then some .bypass
  else if mode = "only" then some .only
  else none

def asStoredSplit (value : Json) : Option StoredSplit := do
  let mode ← asMode value
  return { mode, rules := property "rules" value, tabs := property "tabs" value }

/-- A stored split whose rules are an array of strings, as `isSplit` demands. -/
def asSplit (value : Json) : Option StoredSplit := do
  let split ← asStoredSplit value
  let _ ← stringArray split.rules
  return split

def isDigit (u : UInt16) : Bool := 0x30 ≤ u && u ≤ 0x39

/-- `/^[^:]+:\d+$/` -/
def isSocksAddress (address : Utf16) : Bool :=
  match address.span (· ≠ 0x3A) with
  | (_ :: _, _ :: port) => !port.isEmpty && port.all isDigit
  | _ => false

def asMultihopState (value : Json) : Option RoutingRecord := do
  let socks5 ← stringProperty "socks5" value
  if !isSocksAddress socks5 then none
  let split ← asSplit (← property "split" value)
  let _ ← numberProperty "installedAt" value
  return .multihop socks5 split

def asLockdownState (value : Json) : Option RoutingRecord := do
  let exempt ← stringArray (property "exempt" value)
  let _ ← numberProperty "installedAt" value
  return .lockdown exempt

def asIngressEndpoint (value : Json) : Option IngressEndpoint := do
  let kind ← stringProperty "kind" value
  if kind ≠ "https" ∧ kind ≠ "masque" then none
  let host ← stringProperty "host" value
  let port ← numberProperty "port" value
  if kind = "masque" then return .masque host port (← stringProperty "masqueTemplate" value)
  else return .https host port

/-- The ingress branch of `asRoutingRecord`: the rules of its split are not looked at. -/
def asIngressState (value : Json) : Option RoutingRecord := do
  let endpoint ← asIngressEndpoint (← property "endpoint" value)
  let split ← asStoredSplit (← property "split" value)
  let exit ← property "exit" value
  let _ ← stringProperty "country" exit
  let _ ← stringProperty "city" exit
  let hops ← numberProperty "hops" value
  if hops ≠ 1 ∧ hops ≠ 2 then none
  return .ingress endpoint split

/-- The record a stored value is; anything corrupt is `none`. -/
def asRoutingRecord (value : Json) : Option RoutingRecord := do
  let tier ← stringProperty "tier" value
  if tier = "lockdown" then asLockdownState value
  else if tier = "multihop" then asMultihopState value
  else if tier = "ingress" then asIngressState value
  else none

end WarrenSdk.Extension
