import Mathlib.Data.Rat.Defs
import WarrenSdk.Extension.Protocol
import WarrenSdk.Lib.JsString

/-!
# Split tunneling (`split.ts`)

Which hosts follow the tunnel, and the `proxy.settings` values each browser is given. Host names and
rules are arbitrary strings, compared through `toLowerCase`, the string method of the browser, which
every definition here takes as a parameter.
-/

namespace WarrenSdk.Extension

open Lib (Utf16)

inductive SplitTunnelMode
  | all
  | bypass
  | only
deriving DecidableEq, Repr

structure SplitTunnelConfig where
  mode : SplitTunnelMode
  rules : List Utf16
  tabs : Option (List Int) := none
deriving DecidableEq, Repr

def DEFAULT_SPLIT : SplitTunnelConfig := { mode := .all, rules := [] }

def LOOPBACK_BYPASS : List Utf16 := ["localhost", "127.0.0.1"]

section
variable (toLowerCase : Utf16 → Utf16)

/-- A bare domain matches itself and its subdomains, `.d` and `*.d` subdomains only, `*` all. -/
def hostMatchesRule (host rule : Utf16) : Bool :=
  let h := toLowerCase host
  let r := toLowerCase rule
  if r = "*" then true
  else if ("*." : Utf16).isPrefixOf r then (r.drop 1).isSuffixOf h
  else if ("." : Utf16).isPrefixOf r then r.isSuffixOf h
  else h = r || ("." ++ r : Utf16).isSuffixOf h

def isLoopback (host : Utf16) : Bool :=
  let h := toLowerCase host
  h = "localhost" || (".localhost" : Utf16).isSuffixOf h || h = "127.0.0.1" || h = "[::1]"

/-- Whether traffic to `host` should follow the tunnel under `config`. -/
def shouldTunnelHost (host : Utf16) (config : SplitTunnelConfig) : Bool :=
  if isLoopback toLowerCase host then false
  else
    let matched := config.rules.any (hostMatchesRule toLowerCase host)
    match config.mode with
    | .bypass => !matched
    | .only => matched
    | .all => true

/-- A request as the browser describes it: the host name of its URL, and its tab when known. -/
structure BrowserRequest where
  host : Utf16
  tabId : Option Int := none
deriving DecidableEq, Repr

/-- Whether a request should follow the tunnel: in `only` mode a listed tab's requests all do. -/
def shouldTunnelRequest (request : BrowserRequest) (config : SplitTunnelConfig) : Bool :=
  if isLoopback toLowerCase request.host then false
  else if config.mode = .only &&
      request.tabId.any fun tab => (config.tabs.getD []).contains tab then true
  else shouldTunnelHost toLowerCase request.host config

end

/-- An address cut at its last colon. The port stays the text that the source turns to a number. -/
structure ParsedAddress where
  host : String
  port : String
deriving DecidableEq, Repr

def parseAddress (address : String) : ParsedAddress :=
  match address.toList.reverse.span (· ≠ ':') with
  -- `lastIndexOf` is -1 with no colon, and `slice(0, -1)` drops the last character.
  | (port, []) => { host := String.ofList (port.drop 1).reverse, port := address }
  | (port, _ :: host) =>
    { host := String.ofList host.reverse, port := String.ofList port.reverse }

/-! ## PAC scripts -/

/-- What `FindProxyForURL` returns, the address of a proxy as the builder puts it there. -/
inductive PacAnswer
  | DIRECT
  | PROXY (http : String)
  | HTTPS (host : Utf16) (port : Rat)
deriving DecidableEq, Repr

/-- A PAC script by what its builder puts into it: the text of its array of rules, whether it
tunnels only these, and what it answers for a tunnelled host. -/
structure PacScript where
  rules : Utf16
  onlyMode : Bool
  proxy : PacAnswer
deriving DecidableEq, Repr

/-- `s.slice(-n)` -/
def sliceLast (n : Nat) (s : Utf16) : Utf16 := if n = 0 then s else s.drop (s.length - n)

/-- Whether the rule `r` ends the loop of a script with `matched`. -/
def pacRuleMatches (host r : Utf16) : Bool :=
  if r = "*" then true
  else
    let r := if r.take 1 = "*" then r.drop 1 else r
    if r.take 1 = "." then sliceLast r.length host = r
    else host = r || sliceLast (r.length + 1) host = "." ++ r

/-- A suffix test that ignores case. -/
def dnsDomainIs (toLowerCase : Utf16 → Utf16) (host domain : Utf16) : Bool :=
  (toLowerCase domain).isSuffixOf (toLowerCase host)

/-- The script run on a host; `none` when its rules are not an array literal of strings. -/
def PacScript.findProxyForURL (toLowerCase : Utf16 → Utf16) (script : PacScript) (host : Utf16) :
    Option PacAnswer := do
  let (rules, _) ← Lib.JsString.readArray script.rules
  let host := toLowerCase host
  if host = "localhost" || dnsDomainIs toLowerCase host ".localhost" || host = "127.0.0.1" ||
      host = "::1" then
    return .DIRECT
  else
    let matched := rules.any (pacRuleMatches host)
    let tunnel := if script.onlyMode then matched else !matched
    return if tunnel then script.proxy else .DIRECT

def buildPacScript (toLowerCase : Utf16 → Utf16) (http : String) (config : SplitTunnelConfig) :
    PacScript where
  rules := Lib.JsString.stringify (config.rules.map toLowerCase)
  onlyMode := config.mode = .only
  proxy := .PROXY http

/-! ## Proxy settings -/

/-- A port: a number, or the text that the source turns to one. -/
inductive ProxyPort
  | number (port : Rat)
  | text (port : String)
deriving DecidableEq, Repr

/-- The values `chrome.proxy.settings` is set to, by dialect. -/
inductive ProxyValue
  | fixedServers (scheme : String) (host : Utf16) (port : ProxyPort) (bypassList : List Utf16)
  | pacScript (script : PacScript) (mandatory : Bool)
  | manual (socks : String) (socksVersion : Nat) (proxyDNS : Bool) (passthrough : Utf16)
deriving DecidableEq, Repr

/-- Every request goes to loopback port 1, a proxy that cannot answer, but for the exempt hosts. -/
def buildChromiumLockdownValue (exempt : List Utf16) : ProxyValue :=
  .fixedServers "https" "127.0.0.1" (.number 1) (LOOPBACK_BYPASS ++ exempt)

/-- `only` needs a PAC script; `all` and `bypass` use fixed servers. -/
def buildChromiumProxyValue (toLowerCase : Utf16 → Utf16) (http : String)
    (config : SplitTunnelConfig) : ProxyValue :=
  if config.mode = .only then .pacScript (buildPacScript toLowerCase http config) true
  else
    let { host, port } := parseAddress http
    .fixedServers "http" host (.text port)
      (if config.mode = .bypass then LOOPBACK_BYPASS ++ config.rules else LOOPBACK_BYPASS)

/-- Firefox's value: it carries no credentials, and only `all` and `bypass` are expressible. -/
def buildFirefoxProxyValue (socks5 : String) (config : SplitTunnelConfig) : ProxyValue :=
  .manual socks5 5 true <| (", " : Utf16).intercalate <|
    if config.mode = .bypass then LOOPBACK_BYPASS ++ config.rules else LOOPBACK_BYPASS

end WarrenSdk.Extension
