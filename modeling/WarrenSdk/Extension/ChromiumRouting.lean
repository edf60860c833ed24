import WarrenSdk.Extension.BrowserRouting
import WarrenSdk.Lib.Glob
import WarrenSdk.Lib.Json
import WarrenSdk.Lib.LowerCase

/-!
# Chromium's routing, installed and read back (`browser-routing.ts`)

A record becomes a value of `chrome.proxy.settings`, and what the browser reports later is looked at
again: a lockdown by its fields, an ingress by the host of its fixed proxy or by a search in the
text of its PAC script. The browser's values are JSON here, so that the reader is given whatever
stands there, and a script is its text.
-/

namespace WarrenSdk.Extension

open Lib (Utf16 Json leftmost leftmost_append leftmost_of_some)
open Lib.Json (isDigit)
open Lib.Utf16 (NoCapitals)

/-! ## The text of a PAC script -/

/-- What the language makes of numbers and texts: `String(n)`, `Number(s)` and `toLowerCase`. -/
structure Texts where
  ofNumber : Rat → Utf16
  toNumber : String → Json
  toLowerCase : Utf16 → Utf16

/-- The text of a number that is not negative begins with a digit, and lower case has no
capitals. -/
structure Texts.Lawful (T : Texts) : Prop where
  ofNumber : ∀ q, 0 ≤ q → ∃ u text, T.ofNumber q = u :: text ∧ isDigit u = true
  toLowerCase : NoCapitals T.toLowerCase

section
variable (T : Texts)

/-- The text of an answer, as the builders write it into their scripts. -/
def PacAnswer.text : PacAnswer → Utf16
  | .DIRECT => "DIRECT"
  | .PROXY http => "PROXY " ++ http
  | .HTTPS host port => "HTTPS " ++ (host ++ ":" ++ T.ofNumber port)

def pacBeforeRules : Utf16 :=
  "function FindProxyForURL(url, host) \x7b\n" ++
  "  host = host.toLowerCase();\n" ++
  "  if (host === 'localhost' || dnsDomainIs(host, '.localhost') || host === '127.0.0.1' || " ++
  "host === '::1') return 'DIRECT';\n" ++
  "  var rules = "

def pacBeforeTunnel : Utf16 :=
  ";\n" ++
  "  var matched = false;\n" ++
  "  for (var i = 0; i < rules.length; i++) \x7b\n" ++
  "    var r = rules[i];\n" ++
  "    if (r === '*') \x7b matched = true; break; \x7d\n" ++
  "    if (r.charAt(0) === '*') r = r.slice(1);\n" ++
  "    if (r.charAt(0) === '.') \x7b if (host.slice(-r.length) === r) " ++
  "\x7b matched = true; break; \x7d continue; \x7d\n" ++
  "    if (host === r || host.slice(-(r.length + 1)) === '.' + r) " ++
  "\x7b matched = true; break; \x7d\n" ++
  "  \x7d\n" ++
  "  var tunnel = "

def pacTunnel (onlyMode : Bool) : Utf16 := if onlyMode then "matched" else "!matched"

/-- The script as the browser is given it. -/
def PacScript.text (script : PacScript) : Utf16 :=
  pacBeforeRules ++ script.rules ++ pacBeforeTunnel ++ pacTunnel script.onlyMode ++
    ";\n  return tunnel ? '" ++ script.proxy.text T ++ "' : 'DIRECT';\n\x7d"

def ProxyPort.json : ProxyPort → Json
  | .number port => .number port
  | .text port => T.toNumber port

/-- The value as the browser is given it. -/
def ProxyValue.json : ProxyValue → Json
  | .fixedServers scheme host port bypassList =>
    .object [("mode", .string "fixed_servers"),
      ("rules", .object [
        ("singleProxy", .object [
          ("scheme", .string scheme), ("host", .string host), ("port", port.json T)]),
        ("bypassList", .array (bypassList.map .string))])]
  | .pacScript script mandatory =>
    .object [("mode", .string "pac_script"),
      ("pacScript", .object [("data", .string (script.text T)), ("mandatory", .bool mandatory)])]
  | .manual socks socksVersion proxyDNS passthrough =>
    .object [("proxyType", .string "manual"), ("socks", .string socks),
      ("socksVersion", .number socksVersion), ("proxyDNS", .bool proxyDNS),
      ("passthrough", .string passthrough)]

/-! ## Records and their values -/

/-- What Chromium is routed by: a `RoutingState` or a `LockdownState`. -/
inductive ChromiumRecord
  | ingress (endpoint : IngressEndpoint) (split : SplitTunnelConfig)
  | lockdown (exempt : List Utf16)

def chromiumValueOf : ChromiumRecord → Json
  | .lockdown exempt => (buildChromiumLockdownValue exempt).json T
  | .ingress endpoint split => (buildChromiumIngressValue T.toLowerCase endpoint split).json T

end

/-! ## Reading a value -/

structure ProxyServer where
  scheme : String
  host : Utf16
  port : Rat

def LOCKDOWN_PROXY : ProxyServer := { scheme := "https", host := "127.0.0.1", port := 1 }

/-- `value?.rules?.singleProxy` -/
def singleProxy (value : Option Json) : Option Json :=
  (value.bind (property "rules")).bind (property "singleProxy")

def isLockdownValue (value : Option Json) : Bool :=
  value.bind (stringProperty "mode") = some ("fixed_servers" : Utf16) &&
    (singleProxy value).bind (stringProperty "scheme") = some (LOCKDOWN_PROXY.scheme : Utf16) &&
    (singleProxy value).bind (stringProperty "host") = some LOCKDOWN_PROXY.host &&
    (singleProxy value).bind (numberProperty "port") = some LOCKDOWN_PROXY.port

/-- `[^:'"]` -/
def isHostUnit (u : UInt16) : Bool := u ≠ 0x3A && u ≠ 0x27 && u ≠ 0x22

/-- `/HTTPS ([^:'"]+):\d+/` at the front of a text, and its group. The group ends at the first unit
it cannot hold: no shorter one is followed by a colon. -/
def ingressAt (text : Utf16) : Option Utf16 :=
  if ("HTTPS " : Utf16).isPrefixOf text then
    match (text.drop 6).span isHostUnit with
    | (u :: host, 0x3A :: d :: _) => if isDigit d then some (u :: host) else none
    | _ => none
  else none

def ingressHostFromValue (value : Option Json) : Except Failure (Option Json) :=
  let mode := value.bind (stringProperty "mode")
  if mode = some ("fixed_servers" : Utf16) then .ok ((singleProxy value).bind (property "host"))
  else if mode = some ("pac_script" : Utf16) then
    match (value.bind (property "pacScript")).bind (property "data") with
    | none | some .null => .ok none
    | some (.string text) => .ok ((leftmost ingressAt text).map .string)
    -- Nothing else has a `match` to call.
    | some _ => .error .thrown
  else .ok none

/-! ## The settings of the browser -/

structure ProxyDetails where
  value : Option Json
  levelOfControl : LevelOfControl

/-- `chrome.proxy.settings` over the states of a browser. -/
structure ProxySettings (σ : Type*) where
  get : σ → ProxyDetails
  set : Json → σ → σ

def controllable (level : LevelOfControl) : Bool :=
  level = .controllableByThisExtension || level = .controlledByThisExtension

section
variable {σ : Type*} (settings : ProxySettings σ)

/-- How the installation ends, and the state it leaves. -/
def installChromiumRouting (T : Texts) (record : ChromiumRecord) (s : σ) :
    Except Failure Unit × σ :=
  if controllable (settings.get s).levelOfControl then
    let s := settings.set (chromiumValueOf T record) s
    if (settings.get s).levelOfControl ≠ .controlledByThisExtension then
      (.error (.of .proxyUncontrollable
        "the proxy settings did not take (controlled elsewhere)"), s)
    else (.ok (), s)
  else
    (.error (.of .proxyUncontrollable
      "proxy settings are controlled elsewhere (another extension or enterprise policy)"), s)

structure ChromiumReport where
  controlled : Bool
  ours : Bool
  lockdown : Bool
  host : Option Json

/-- Whether `value ? … : …` takes its first branch. -/
def truthy : Json → Bool
  | .null => false
  | .bool b => b
  | .number q => q ≠ 0
  | .string s => s ≠ []
  | .array _ | .object _ => true

def readChromiumRouting (expectedHost : Utf16) (s : σ) : Except Failure ChromiumReport := do
  let details := settings.get s
  let controlled : Bool := details.levelOfControl = .controlledByThisExtension
  let lockdown := controlled && isLockdownValue details.value
  let host ← if lockdown then pure none else ingressHostFromValue details.value
  let ours := match host with
    | some (.string host) => host = expectedHost
    | _ => false
  return { controlled, ours := controlled && ours, lockdown, host := host.filter truthy }

/-- A store that holds what it was set to, once it may be set and as long as it is not taken
over. -/
structure ProxySettings.Faithful : Prop where
  level : ∀ s value, controllable (settings.get s).levelOfControl = true →
    (settings.get (settings.set value s)).levelOfControl = .controlledByThisExtension
  value : ∀ s value,
    (settings.get (settings.set value s)).levelOfControl = .controlledByThisExtension →
      (settings.get (settings.set value s)).value = some value

end

/-! ## The search in a script -/

theorem ingressAt_head (h : (ingressAt text).isSome = true) : text.head? = some 0x48 := by
  unfold ingressAt at h
  split at h
  next hpre =>
    obtain ⟨rest, rfl⟩ := List.isPrefixOf_iff_prefix.mp hpre
    rfl
  next => cases h

/-- A host that a search in a script finds whole. -/
structure IsIngressHost (host : Utf16) : Prop where
  nonempty : host ≠ []
  units : ∀ u ∈ host, isHostUnit u = true

theorem span_hostUnits {host : Utf16} (h : ∀ u ∈ host, isHostUnit u = true) (rest : Utf16) :
    (host ++ 0x3A :: rest).span isHostUnit = (host, 0x3A :: rest) := by
  rw [List.span_eq_takeWhile_dropWhile, List.takeWhile_append_of_pos h,
    List.dropWhile_append_of_pos h]
  simp [isHostUnit]

theorem ingressAt_text {host : Utf16} (hhost : IsIngressHost host) (hd : isDigit d = true)
    (rest : Utf16) : ingressAt ("HTTPS " ++ (host ++ 0x3A :: d :: rest)) = some host := by
  obtain ⟨u, host, rfl⟩ := List.exists_cons_of_ne_nil hhost.nonempty
  have hpre : ("HTTPS " : Utf16).isPrefixOf ("HTTPS " ++ (u :: host ++ 0x3A :: d :: rest)) = true :=
    List.isPrefixOf_iff_prefix.mpr (List.prefix_append _ _)
  have hdrop : ("HTTPS " ++ (u :: host ++ 0x3A :: d :: rest) : Utf16).drop 6 =
      u :: host ++ 0x3A :: d :: rest := rfl
  rw [ingressAt, if_pos hpre, hdrop, span_hostUnits hhost.units]
  exact if_pos hd

section
variable {T : Texts}

theorem ingressAt_answer (hT : T.Lawful) {host : Utf16} (hhost : IsIngressHost host)
    (hport : 0 ≤ port) (rest : Utf16) :
    ingressAt ((PacAnswer.HTTPS host port).text T ++ rest) = some host := by
  obtain ⟨d, text, htext, hd⟩ := hT.ofNumber port hport
  have hanswer : (PacAnswer.HTTPS host port).text T ++ rest =
      "HTTPS " ++ (host ++ 0x3A :: d :: (text ++ rest)) := by
    have hcolon : (":" : Utf16) = [0x3A] := by decide
    simp only [PacAnswer.text, htext, hcolon, List.append_assoc, List.cons_append, List.nil_append]
  rw [hanswer]
  exact ingressAt_text hhost hd _

theorem not_mem_pacBeforeRules : 0x48 ∉ pacBeforeRules := by
  decide +kernel

theorem not_mem_pacBeforeTunnel : 0x48 ∉ pacBeforeTunnel := by
  decide +kernel

theorem not_mem_pacTunnel (onlyMode : Bool) : 0x48 ∉ pacTunnel onlyMode := by
  cases onlyMode <;> decide

/-- The rules of a script are in lower case, and their escapes have no capital either. -/
theorem not_mem_rules {lower : Utf16 → Utf16} (hlower : NoCapitals lower) (rules : List Utf16) :
    0x48 ∉ Lib.JsString.stringify (rules.map lower) := by
  intro hmem
  rcases Lib.JsString.mem_stringify hmem with ⟨rule, hrule, hmem⟩ | hmark
  · obtain ⟨rule, -, rfl⟩ := List.mem_map.mp hrule
    exact hlower.not_mem (by decide) rule hmem
  · exact absurd hmark (by decide)

/-- The first place of a script that names a proxy is the one its builder wrote. -/
theorem leftmost_ingressAt_pac (hT : T.Lawful) {host : Utf16} (hhost : IsIngressHost host)
    (hport : 0 ≤ port) (split : SplitTunnelConfig) :
    leftmost ingressAt ((buildIngressPac T.toLowerCase host port split).text T) = some host := by
  have hskip {p : Utf16} (hp : 0x48 ∉ p) (s : Utf16) :
      leftmost ingressAt (p ++ s) = leftmost ingressAt s :=
    leftmost_append (fun _ => ingressAt_head) hp s
  have hreturn : 0x48 ∉ (";\n  return tunnel ? '" : Utf16) := by decide
  simp only [PacScript.text, buildIngressPac, List.append_assoc]
  rw [hskip not_mem_pacBeforeRules, hskip (not_mem_rules hT.toLowerCase split.rules),
    hskip not_mem_pacBeforeTunnel, hskip (not_mem_pacTunnel _), hskip hreturn]
  exact leftmost_of_some (ingressAt_answer hT hhost hport _)

/-! ## What is read of an installed value -/

def ChromiumRecord.IsLockdown (record : ChromiumRecord) : Prop :=
  ∃ exempt, record = .lockdown exempt

/-- The record routes through the ingress at `host`. -/
def ChromiumRecord.RoutesTo (host : Utf16) (record : ChromiumRecord) : Prop :=
  ∃ endpoint split, record = .ingress endpoint split ∧ endpoint.host = host

/-- A lockdown, or an ingress that a host name and a port address and that is not the proxy of a
lockdown. -/
def ChromiumRecord.Routable : ChromiumRecord → Prop
  | .lockdown _ => True
  | .ingress endpoint _ =>
    IsIngressHost endpoint.host ∧ 0 ≤ endpoint.port ∧ endpoint.port ≤ 65535 ∧
      ¬ (endpoint.host = LOCKDOWN_PROXY.host ∧ endpoint.port = LOCKDOWN_PROXY.port)

theorem property_self (key : String) (value : Json) (members : List (Utf16 × Json)) :
    property key (.object ((Lib.Utf16.ofString key, value) :: members)) = some value := by
  simp [property, Json.member]

theorem property_cons_of_ne {key other : String} (h : other ≠ key) (value : Json)
    (members : List (Utf16 × Json)) :
    property key (.object ((Lib.Utf16.ofString other, value) :: members)) =
      property key (.object members) := by
  have hne : Lib.Utf16.ofString other ≠ Lib.Utf16.ofString key := mt Lib.Utf16.ofString_inj.mp h
  simp [property, Json.member, hne]

theorem singleProxy_fixedServers (scheme : String) (host : Utf16) (port : ProxyPort)
    (bypassList : List Utf16) :
    singleProxy (some ((ProxyValue.fixedServers scheme host port bypassList).json T)) =
      some (.object [("scheme", .string scheme), ("host", .string host),
          ("port", port.json T)]) := by
  rw [singleProxy, ProxyValue.json, Option.bind_some, property_cons_of_ne (by decide),
    property_self, Option.bind_some, property_self]

theorem stringProperty_of_property (h : property key value = some (.string s)) :
    stringProperty key value = some s := by
  rw [stringProperty, h]

theorem numberProperty_of_property (h : property key value = some (.number q)) :
    numberProperty key value = some q := by
  rw [numberProperty, h]

theorem mode_fixedServers (scheme : String) (host : Utf16) (port : ProxyPort)
    (bypassList : List Utf16) :
    stringProperty "mode" ((ProxyValue.fixedServers scheme host port bypassList).json T) =
      some ("fixed_servers" : Utf16) :=
  stringProperty_of_property (property_self _ _ _)

theorem mode_pacScript (script : PacScript) (mandatory : Bool) :
    stringProperty "mode" ((ProxyValue.pacScript script mandatory).json T) =
        some ("pac_script" : Utf16) :=
  stringProperty_of_property (property_self _ _ _)

theorem isLockdownValue_fixedServers (scheme : String) (host : Utf16) (port : Rat)
    (bypassList : List Utf16) :
    isLockdownValue (some ((ProxyValue.fixedServers scheme host (.number port)
      bypassList).json T)) =
      decide (scheme = LOCKDOWN_PROXY.scheme ∧ host = LOCKDOWN_PROXY.host ∧
        port = LOCKDOWN_PROXY.port) := by
  have hscheme : property "scheme" (.object [("scheme", .string scheme), ("host", .string host),
      ("port", .number port)]) = some (.string scheme) := property_self _ _ _
  have hhost : property "host" (.object [("scheme", .string scheme), ("host", .string host),
      ("port", .number port)]) = some (.string host) := by
    rw [property_cons_of_ne (by decide), property_self]
  have hport : property "port" (.object [("scheme", .string scheme), ("host", .string host),
      ("port", .number port)]) = some (.number port) := by
    rw [property_cons_of_ne (by decide), property_cons_of_ne (by decide), property_self]
  rw [isLockdownValue, singleProxy_fixedServers, Option.bind_some, Option.bind_some,
    Option.bind_some, Option.bind_some, mode_fixedServers, ProxyPort.json,
    stringProperty_of_property hscheme, stringProperty_of_property hhost,
    numberProperty_of_property hport]
  simp [Lib.Utf16.ofString_inj, Bool.and_assoc]

theorem isLockdownValue_pacScript (script : PacScript) (mandatory : Bool) :
    isLockdownValue (some ((ProxyValue.pacScript script mandatory).json T)) = false := by
  have hne : ("pac_script" : Utf16) ≠ "fixed_servers" := by decide
  rw [isLockdownValue, Option.bind_some, mode_pacScript]
  simp [hne]

theorem ingressHostFromValue_fixedServers (scheme : String) (host : Utf16) (port : ProxyPort)
    (bypassList : List Utf16) :
    ingressHostFromValue (some ((ProxyValue.fixedServers scheme host port bypassList).json T)) =
      .ok (some (.string host)) := by
  rw [ingressHostFromValue, Option.bind_some, mode_fixedServers, if_pos rfl,
    singleProxy_fixedServers, Option.bind_some, property_cons_of_ne (by decide), property_self]

theorem ingressHostFromValue_pacScript (script : PacScript) (mandatory : Bool) :
    ingressHostFromValue (some ((ProxyValue.pacScript script mandatory).json T)) =
      .ok ((leftmost ingressAt (script.text T)).map .string) := by
  have hne : some ("pac_script" : Utf16) ≠ some ("fixed_servers" : Utf16) := by decide
  have hdata : ((some ((ProxyValue.pacScript script mandatory).json T)).bind
      (property "pacScript")).bind (property "data") = some (.string (script.text T)) := by
    rw [ProxyValue.json, Option.bind_some, property_cons_of_ne (by decide), property_self,
      Option.bind_some, property_self]
  rw [ingressHostFromValue, hdata, Option.bind_some, mode_pacScript, if_neg hne, if_pos rfl]

theorem isLockdownValue_lockdown (exempt : List Utf16) :
    isLockdownValue (some (chromiumValueOf T (.lockdown exempt))) = true := by
  rw [chromiumValueOf, buildChromiumLockdownValue, isLockdownValue_fixedServers]
  exact decide_eq_true ⟨rfl, rfl, rfl⟩

section
variable {endpoint : IngressEndpoint}

theorem isLockdownValue_ingress
    (h : ¬ (endpoint.host = LOCKDOWN_PROXY.host ∧ endpoint.port = LOCKDOWN_PROXY.port))
    (split : SplitTunnelConfig) :
    isLockdownValue (some (chromiumValueOf T (.ingress endpoint split))) = false := by
  rw [chromiumValueOf, buildChromiumIngressValue]
  split
  · exact isLockdownValue_pacScript _ _
  · rw [isLockdownValue_fixedServers]
    exact decide_eq_false fun hproxy => h hproxy.2

theorem ingressHostFromValue_ingress (hT : T.Lawful) (hhost : IsIngressHost endpoint.host)
    (hport : 0 ≤ endpoint.port) (split : SplitTunnelConfig) :
    ingressHostFromValue (some (chromiumValueOf T (.ingress endpoint split))) =
      .ok (some (.string endpoint.host)) := by
  rw [chromiumValueOf, buildChromiumIngressValue]
  split
  · rw [ingressHostFromValue_pacScript, leftmost_ingressAt_pac hT hhost hport]
    rfl
  · exact ingressHostFromValue_fixedServers _ _ _ _

end

end

/-! ## Installing and reading back -/

section
variable {σ : Type*} {settings : ProxySettings σ} {T : Texts} {record : ChromiumRecord} {s s' : σ}

theorem installChromiumRouting_ok (hS : settings.Faithful)
    (h : controllable (settings.get s).levelOfControl = true) :
    installChromiumRouting settings T record s =
        (.ok (), settings.set (chromiumValueOf T record) s) := by
  have hlevel := hS.level s (chromiumValueOf T record) h
  simp [installChromiumRouting, h, hlevel]

/-- What is installed stands in the settings, under the control of the extension. -/
theorem details_of_install (hS : settings.Faithful)
    (h : installChromiumRouting settings T record s = (.ok (), s')) :
    settings.get s' =
      { value := some (chromiumValueOf T record),
          levelOfControl := .controlledByThisExtension } := by
  unfold installChromiumRouting at h
  split at h
  · dsimp only at h
    split at h
    · cases h
    next hlevel =>
      rw [ne_eq, not_not] at hlevel
      obtain ⟨-, rfl⟩ := Prod.mk.inj h
      have hvalue := hS.value s _ hlevel
      cases hget : settings.get (settings.set (chromiumValueOf T record) s)
      simp_all
  · cases h

theorem readChromiumRouting_lockdown {exempt : List Utf16} (hget : settings.get s =
      { value := some (chromiumValueOf T (.lockdown exempt)),
        levelOfControl := .controlledByThisExtension }) (expectedHost : Utf16) :
    readChromiumRouting settings expectedHost s =
      .ok { controlled := true, ours := false, lockdown := true, host := none } := by
  simp only [readChromiumRouting, hget, isLockdownValue_lockdown]
  rfl

theorem readChromiumRouting_ingress {endpoint : IngressEndpoint} {split : SplitTunnelConfig}
    (hT : T.Lawful) (hr : (ChromiumRecord.ingress endpoint split).Routable)
    (hget : settings.get s =
      { value := some (chromiumValueOf T (.ingress endpoint split)),
        levelOfControl := .controlledByThisExtension }) (expectedHost : Utf16) :
    readChromiumRouting settings expectedHost s =
      .ok { controlled := true, ours := endpoint.host = expectedHost, lockdown := false,
            host := some (.string endpoint.host) } := by
  obtain ⟨hhost, hport, -, hproxy⟩ := hr
  simp only [readChromiumRouting, hget, isLockdownValue_ingress hproxy,
    ingressHostFromValue_ingress hT hhost hport]
  simp [truthy, hhost.nonempty, bind, Except.bind, pure, Except.pure]

/-- A record that is installed is read back as what it is: a lockdown as one, an ingress as ours
when its host is the expected one, whatever the rules of its split. -/
theorem readChromiumRouting_installed (hT : T.Lawful) (hS : settings.Faithful)
    (hr : record.Routable) (expectedHost : Utf16) (s : σ) :
    (controllable (settings.get s).levelOfControl = true →
      ∃ s', installChromiumRouting settings T record s = (.ok (), s')) ∧
    ∀ s', installChromiumRouting settings T record s = (.ok (), s') →
      ∃ report, readChromiumRouting settings expectedHost s' = .ok report ∧
        (report.lockdown = true ↔ record.IsLockdown) ∧
        (report.ours = true ↔ record.RoutesTo expectedHost) := by
  refine ⟨fun h => ⟨_, installChromiumRouting_ok hS h⟩, fun s' h => ?_⟩
  have hget := details_of_install hS h
  cases record with
  | lockdown exempt =>
    refine ⟨_, readChromiumRouting_lockdown hget expectedHost, ?_, ?_⟩
    · exact ⟨fun _ => ⟨exempt, rfl⟩, fun _ => rfl⟩
    · constructor
      · exact fun hours => nomatch hours
      · rintro ⟨_, _, heq, -⟩
        cases heq
  | ingress endpoint split =>
    refine ⟨_, readChromiumRouting_ingress hT hr hget expectedHost, ?_, ?_⟩
    · constructor
      · exact fun hlockdown => nomatch hlockdown
      · rintro ⟨_, heq⟩
        cases heq
    · rw [decide_eq_true_iff]
      constructor
      · exact fun hhost => ⟨endpoint, split, rfl, hhost⟩
      · rintro ⟨_, _, heq, hhost⟩
        cases heq
        exact hhost

end

/-! ## A browser -/

def asciiTexts : Texts where
  ofNumber := Json.numberText
  toNumber _ := .null
  toLowerCase := Lib.Utf16.asciiLowerCase

theorem asciiTexts_lawful : asciiTexts.Lawful where
  ofNumber q hq := by
    have hd := Json.natText_decimal q.num.natAbs
    obtain ⟨u, text, htext⟩ := List.exists_cons_of_ne_nil hd.nonempty
    have hnum : ¬ q.num < 0 := not_lt.mpr (Rat.num_nonneg.mpr hq)
    refine ⟨u, text ++ if q.den = 1 then [] else 0x2F :: Json.natText q.den, ?_, ?_⟩
    · simp [asciiTexts, Json.numberText, hnum, htext]
    · exact hd.digits u (by rw [htext]; exact List.mem_cons_self)
  toLowerCase := Lib.Utf16.asciiLowerCase_noCapitals

/-- A browser that lets an extension set its proxy unless someone else controls it. -/
def plainSettings : ProxySettings ProxyDetails where
  get s := s
  set value s :=
    if controllable s.levelOfControl then
      { value := some value, levelOfControl := .controlledByThisExtension }
    else s

theorem plainSettings_faithful : plainSettings.Faithful where
  level s value h := by
    simp only [plainSettings] at h ⊢
    rw [if_pos h]
  value s value h := by
    by_cases hmay : controllable s.levelOfControl = true
    · simp only [plainSettings, if_pos hmay]
    · simp only [plainSettings, if_neg hmay] at h
      simp [controllable, h] at hmay

/-- Read back from a script whose rule looks like the answer that names the ingress. -/
theorem readChromiumRouting_installed_only :
    let record : ChromiumRecord := .ingress (.https "ingress.example" 443)
      { mode := .only, rules := ["HTTPS other.example:1"] }
    let s : ProxyDetails := { value := none, levelOfControl := .controllableByThisExtension }
    record.Routable ∧
    (controllable (plainSettings.get s).levelOfControl = true →
      ∃ s', installChromiumRouting plainSettings asciiTexts record s = (.ok (), s')) ∧
    ∀ s', installChromiumRouting plainSettings asciiTexts record s = (.ok (), s') →
      ∃ report, readChromiumRouting plainSettings "ingress.example" s' = .ok report ∧
        (report.lockdown = true ↔ record.IsLockdown) ∧
        (report.ours = true ↔ record.RoutesTo "ingress.example") := by
  intro record s
  have hhost : IsIngressHost ("ingress.example" : Utf16) :=
    ⟨by decide, List.all_eq_true.mp (by decide)⟩
  have hne : ("ingress.example" : Utf16) ≠ LOCKDOWN_PROXY.host := by decide
  have hport : (443 : Rat) ≤ 65535 := by decide +kernel
  have hr : record.Routable := ⟨hhost, by decide +kernel, hport, fun hproxy => hne hproxy.1⟩
  exact ⟨hr, readChromiumRouting_installed asciiTexts_lawful plainSettings_faithful hr _ s⟩

end WarrenSdk.Extension
