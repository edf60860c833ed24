import Mathlib.Data.List.TakeDrop
import Mathlib.Data.List.TakeWhile
import WarrenSdk.Extension.BrowserRouting

/-!
# Firefox's routing listener (`attachFirefoxRouting`)

What the registered listener makes of a request, over everything it consults: the stored value, the
URL parser, the credential provider and the lookup of the local session. Its promise is settled as
`Promise` says; a listener whose promise rejects leaves the request to the browser's default route.
-/

namespace WarrenSdk.Extension

open Lib (Utf16 Json)

inductive Promise (α : Type u)
  | resolved (value : α)
  | rejected
  | pending

def Promise.ofExcept : Except Failure α → Promise α
  | .ok a => .resolved a
  | .error _ => .rejected

/-- A Firefox ProxyInfo entry. The port of a listener is the text the source turns to a number. -/
inductive FirefoxProxyInfo
  | https (host : Utf16) (port : Rat) (proxyAuthorizationHeader : Option Utf16)
  | masque (host : Utf16) (port : Rat) (masqueTemplate : Utf16) (failoverTimeout : Nat)
      (proxyAuthorizationHeader : Option Utf16)
  | socks (host port : Utf16) (proxyDNS : Bool) (auth : ExtensionProxyAuth)

/-- Where an entry for an ingress leads. -/
def FirefoxProxyInfo.address : FirefoxProxyInfo → Option (Utf16 × Rat)
  | .https host port _ | .masque host port _ _ _ => some (host, port)
  | .socks _ _ _ _ => none

/-- What the listener answers; `failClosed` is `FAIL_CLOSED_PROXY`, which nothing listens on. -/
inductive RoutingAnswer
  | direct
  | failClosed
  | proxies (infos : List FirefoxProxyInfo)

/-- What a listener consults. -/
structure RoutingSources where
  toLowerCase : Utf16 → Utf16
  /-- `new URL(url).hostname`, which throws on what is no URL. -/
  hostname : Utf16 → Option Utf16
  /-- The value the storage area holds under the routing key. -/
  area : Promise (Option Json)
  /-- `credentials.current()` -/
  credential : Promise (Option Utf16)
  /-- `local.forListener`, when there is a local session lookup at all. -/
  forListener : Option (Utf16 → Except Failure (Option ExtensionProxyAuth))

/-- A request as Firefox hands it to the listener. -/
structure FirefoxRequest where
  url : Utf16
  tabId : Option Int := none

/-- The Basic authorization header value for a credential. -/
def basicAuth (credential : Utf16) : Except Failure Utf16 :=
  match Lib.btoa (CREDENTIAL_USERNAME ++ ":" ++ credential : Utf16) with
  | some encoded => .ok ("Basic " ++ encoded : Utf16)
  | none => .error .thrown

/-- The ProxyInfo list for `endpoint`: `masque` first, with the `https` ingress to fall back to. -/
def firefoxProxyInfoFor (endpoint : IngressEndpoint) (credential : Option Utf16) :
    Except Failure (List FirefoxProxyInfo) := do
  let auth ← credential.mapM basicAuth
  let httpsLeg : FirefoxProxyInfo := .https endpoint.host endpoint.port auth
  match endpoint with
  | .https _ _ => return [httpsLeg]
  | .masque host port masqueTemplate =>
    let template :=
      match credential with
      | none => masqueTemplate
      | some credential => (masqueTemplate ++ "?credential=" ++ credential : Utf16)
    return [.masque host port template 5 auth, httpsLeg]

/-- The ProxyInfo of a listener's address, which is cut at its last colon. -/
def socksProxyInfo (socks5 : Utf16) (auth : ExtensionProxyAuth) : FirefoxProxyInfo :=
  match socks5.reverse.span (· ≠ 0x3A) with
  | (port, []) => .socks (port.drop 1).reverse socks5 true auth
  | (port, _ :: host) => .socks host.reverse port.reverse true auth

namespace RoutingSources
variable (env : RoutingSources)

def isLoopbackUrl (url : Utf16) : Bool :=
  match env.hostname url with
  | some host => isLoopbackHost env.toLowerCase host
  | none => false

/-- What the listener answers a request the record does not send direct. -/
def route : RoutingRecord → Promise RoutingAnswer
  | .lockdown _ => .resolved .failClosed
  | .multihop socks5 _ =>
    match env.forListener with
    | none => .resolved .failClosed
    | some forListener =>
      match forListener socks5 with
      | .error _ => .rejected
      | .ok none => .resolved .failClosed
      | .ok (some auth) => .resolved (.proxies [socksProxyInfo socks5 auth])
  | .ingress endpoint _ =>
    match env.credential with
    | .rejected => .rejected
    | .pending => .pending
    | .resolved credential =>
      .ofExcept ((firefoxProxyInfoFor endpoint credential).map .proxies)

/-- Whether the record sends a request direct. -/
def sendsDirect (request : BrowserRequest) : RoutingRecord → Except Failure Bool
  | .lockdown exempt => .ok (exempt.any fun h => env.toLowerCase h = request.host)
  | .ingress _ split | .multihop _ split =>
    (split.shouldTunnelRequest env.toLowerCase request).map (!·)

/-- The request a record decides on, when its URL is one. -/
def browserRequest (request : FirefoxRequest) : Option BrowserRequest :=
  (env.hostname request.url).map fun host =>
    { host := env.toLowerCase host, tabId := request.tabId }

/-- What the listener answers a request under a record. -/
def answer (request : BrowserRequest) (state : RoutingRecord) : Promise RoutingAnswer :=
  match env.sendsDirect request state with
  | .error _ => .rejected
  | .ok true => .resolved .direct
  | .ok false => env.route state

/-- The listener `attachFirefoxRouting` registers. -/
def onRequest (request : FirefoxRequest) : Promise RoutingAnswer :=
  if env.isLoopbackUrl request.url then .resolved .direct
  else
    match env.area with
    | .pending => .pending
    | .rejected => .resolved .failClosed
    | .resolved stored =>
      match stored.bind asRoutingRecord with
      | none => .resolved .direct
      | some state =>
        match env.browserRequest request with
        | none => .resolved .failClosed
        | some b => env.answer b state

/-! ## What the listener owes a request -/

/-- The record in force: the one the validator makes of the stored value. -/
def record : Option RoutingRecord :=
  match env.area with
  | .resolved stored => stored.bind asRoutingRecord
  | _ => none

/-- A lockdown exempts the host, or the record's own split sends the request direct. -/
def Exempts (request : BrowserRequest) : RoutingRecord → Prop
  | .lockdown exempt => ∃ h ∈ exempt, env.toLowerCase h = request.host
  | .ingress _ split | .multihop _ split =>
    split.shouldTunnelRequest env.toLowerCase request = .ok false

/-- The requests that may go direct. -/
def MayGoDirect (request : FirefoxRequest) : Prop :=
  env.isLoopbackUrl request.url = true ∨
    (∃ stored, env.area = .resolved stored ∧ stored.bind asRoutingRecord = none) ∨
    ∃ state b, env.record = some state ∧ env.browserRequest request = some b ∧ env.Exempts b state

/-- The proxies lead where the record says, with the credentials of the session there. -/
def Carries (infos : List FirefoxProxyInfo) : RoutingRecord → Prop
  | .lockdown _ => False
  | .multihop socks5 _ => ∃ forListener auth host port, env.forListener = some forListener ∧
      forListener socks5 = .ok (some auth) ∧ socks5 = host ++ 0x3A :: port ∧ 0x3A ∉ port ∧
      infos = [.socks host port true auth]
  | .ingress endpoint _ =>
    infos ≠ [] ∧ ∀ info ∈ infos, info.address = some (endpoint.host, endpoint.port)

/-- The listener's promise resolves; it answers direct only what may go direct, and everything else
with a proxy that carries the record's route or with the blocking proxy. -/
def Decides (request : FirefoxRequest) : Prop :=
  ∃ answer, env.onRequest request = .resolved answer ∧
    (answer = .direct → env.MayGoDirect request) ∧
    (¬ env.MayGoDirect request → answer = .failClosed ∨
      ∃ state infos, env.record = some state ∧ answer = .proxies infos ∧ env.Carries infos state)

end RoutingSources

/-! ## When it can -/

namespace StoredSplit

/-- Each rule up to the first that matches the host is a string. -/
def RulesReadable (toLowerCase : Utf16 → Utf16) (host : Utf16) (split : StoredSplit) : Prop :=
  ∃ (rules : List Utf16) (rest : List Json),
    split.rules = some (.array (rules.map Json.string ++ rest)) ∧
      (rest = [] ∨ ∃ rule ∈ rules, hostMatchesRule toLowerCase host rule = true)

/-- The tabs are absent or have the method `includes`. -/
def TabsReadable (split : StoredSplit) : Prop :=
  match split.tabs with
  | none | some .null | some (.array _) | some (.string _) => True
  | some (.bool _) | some (.number _) | some (.object _) => False

/-- The request's tab is one that the split tunnels whole. -/
def ListsTab (tabId : Option Int) (split : StoredSplit) : Prop :=
  split.mode = .only ∧ ∃ tab, tabId = some tab ∧ split.includesTab tab = .ok true

/-- What the split says of a request can be read off it. -/
def Readable (toLowerCase : Utf16 → Utf16) (request : BrowserRequest) (split : StoredSplit) :
    Prop :=
  isLoopback toLowerCase request.host = true ∨
    (split.mode = .only → request.tabId ≠ none → split.TabsReadable) ∧
      (split.ListsTab request.tabId ∨ split.RulesReadable toLowerCase request.host)

theorem someMatches_ok_iff {lower : Utf16 → Utf16} :
    (∃ b, someMatches lower host items = .ok b) ↔
      ∃ (rules : List Utf16) (rest : List Json), items = rules.map Json.string ++ rest ∧
        (rest = [] ∨ ∃ rule ∈ rules, hostMatchesRule lower host rule = true) := by
  induction items with
  | nil => exact ⟨fun _ => ⟨[], [], rfl, .inl rfl⟩, fun _ => ⟨false, rfl⟩⟩
  | cons item items ih =>
    cases item with
    | string rule =>
      cases hm : hostMatchesRule lower host rule with
      | true =>
        refine ⟨fun _ => ⟨[rule], items, rfl, .inr ⟨rule, List.mem_cons_self, hm⟩⟩, fun _ => ?_⟩
        exact ⟨true, by simp [someMatches, hm]⟩
      | false =>
        have hstep : someMatches lower host (.string rule :: items) =
            someMatches lower host items := by simp [someMatches, hm]
        rw [hstep, ih]
        constructor
        · rintro ⟨rules, rest, rfl, h⟩
          refine ⟨rule :: rules, rest, rfl, h.imp_right ?_⟩
          rintro ⟨r, hr, h⟩
          exact ⟨r, List.mem_cons_of_mem _ hr, h⟩
        · rintro ⟨rules, rest, heq, h⟩
          cases rules with
          | nil =>
            rcases h with rfl | ⟨r, hr, -⟩
            · cases heq
            · cases hr
          | cons r rules =>
            simp only [List.map_cons, List.cons_append, List.cons.injEq, Json.string.injEq] at heq
            obtain ⟨rfl, rfl⟩ := heq
            refine ⟨rules, rest, rfl, h.imp_right ?_⟩
            rintro ⟨r', hr', hm'⟩
            rcases List.mem_cons.mp hr' with rfl | hr'
            · rw [hm] at hm'
              cases hm'
            · exact ⟨r', hr', hm'⟩
    | null | bool _ | number _ | array _ | object _ =>
      constructor
      · rintro ⟨b, hb⟩
        cases hb
      · rintro ⟨rules, rest, heq, h⟩
        cases rules with
        | nil =>
          rcases h with rfl | ⟨r, hr, -⟩
          · cases heq
          · cases hr
        | cons r rules => cases heq

theorem matched_ok_iff {lower : Utf16 → Utf16} {split : StoredSplit} :
    (∃ b, split.matched lower host = .ok b) ↔ split.RulesReadable lower host := by
  unfold matched RulesReadable
  split
  next items heq =>
    simp only [heq, Option.some.injEq, Json.array.injEq]
    exact someMatches_ok_iff
  next hne =>
    constructor
    · rintro ⟨b, hb⟩
      cases hb
    · rintro ⟨rules, rest, heq, -⟩
      exact absurd heq (hne _)

theorem includesTab_ok_iff (tab : Int) (split : StoredSplit) :
    (∃ b, split.includesTab tab = .ok b) ↔ split.TabsReadable := by
  unfold includesTab TabsReadable
  rcases split.tabs with _ | tabs
  · simp
  · cases tabs <;> simp

theorem shouldTunnelHost_ok_iff {lower : Utf16 → Utf16} (split : StoredSplit)
    (hl : isLoopback lower host = false) :
    (∃ b, split.shouldTunnelHost lower host = .ok b) ↔ split.RulesReadable lower host := by
  rw [← matched_ok_iff, shouldTunnelHost, hl]
  cases split.matched lower host with
  | error e => simp [Except.map]
  | ok b => simp [Except.map]

theorem shouldTunnelRequest_of_tab {lower : Utf16 → Utf16} {split : StoredSplit}
    (hl : isLoopback lower request.host = false) (hmode : split.mode = .only)
    (htab : request.tabId = some tab) :
    split.shouldTunnelRequest lower request =
      (split.includesTab tab).bind fun listed =>
        if listed then .ok true else split.shouldTunnelHost lower request.host := by
  rw [shouldTunnelRequest, hl, hmode, htab]
  rfl

theorem shouldTunnelRequest_of_no_tab {lower : Utf16 → Utf16} {split : StoredSplit}
    (hl : isLoopback lower request.host = false)
    (htab : split.mode = .only → request.tabId = none) :
    split.shouldTunnelRequest lower request = split.shouldTunnelHost lower request.host := by
  rw [shouldTunnelRequest, hl]
  cases hmode : split.mode with
  | only =>
    rw [htab hmode]
    rfl
  | all | bypass => rfl

theorem shouldTunnelRequest_ok_iff {lower : Utf16 → Utf16} {split : StoredSplit} :
    (∃ b, split.shouldTunnelRequest lower request = .ok b) ↔ split.Readable lower request := by
  unfold Readable
  cases hl : isLoopback lower request.host with
  | true => simp [shouldTunnelRequest, hl]
  | false =>
    have hhost := shouldTunnelHost_ok_iff split hl
    by_cases htab : split.mode = .only → request.tabId = none
    · have hnot : ¬ split.ListsTab request.tabId := by
        rintro ⟨hmode, tab, htab', -⟩
        rw [htab hmode] at htab'
        cases htab'
      have hfree : split.mode = .only → request.tabId ≠ none → split.TabsReadable :=
        fun hmode hne => absurd (htab hmode) hne
      rw [shouldTunnelRequest_of_no_tab hl htab, hhost]
      simpa [hnot] using fun _ => hfree
    · obtain ⟨hmode, hne⟩ := Classical.not_imp.mp htab
      obtain ⟨tab, htab⟩ := Option.ne_none_iff_exists'.mp hne
      have hincludes := includesTab_ok_iff tab split
      rw [shouldTunnelRequest_of_tab hl hmode htab]
      cases htabs : split.includesTab tab with
      | error e =>
        have hunreadable : ¬ split.TabsReadable := by
          rw [← hincludes, htabs]
          rintro ⟨b, hb⟩
          cases hb
        simp [Except.bind, hmode, hne, hunreadable]
      | ok listed =>
        have hreadable : split.TabsReadable := hincludes.mp ⟨listed, htabs⟩
        cases listed with
        | true => simp [Except.bind, ListsTab, hmode, htab, htabs, hreadable]
        | false => simp [Except.bind, ListsTab, hmode, htab, htabs, hreadable, hhost]

/-- What is stored of a split. -/
def ofConfig (config : SplitTunnelConfig) : StoredSplit where
  mode := config.mode
  rules := some (.array (config.rules.map Json.string))
  tabs := config.tabs.map fun tabs => .array (tabs.map fun tab : Int => .number tab)

theorem someMatches_map_string {lower : Utf16 → Utf16} (rules : List Utf16) :
    someMatches lower host (rules.map Json.string) =
        .ok (rules.any (hostMatchesRule lower host)) := by
  induction rules with
  | nil => rfl
  | cons rule rules ih =>
    rw [List.map_cons, someMatches, ih, List.any_cons]
    cases hostMatchesRule lower host rule with
    | true | false => rfl

theorem includesTab_ofConfig (tab : Int) (config : SplitTunnelConfig) :
    (ofConfig config).includesTab tab = .ok ((config.tabs.getD []).contains tab) := by
  unfold includesTab ofConfig
  cases config.tabs with
  | none => rfl
  | some tabs =>
    simp only [Option.map_some, Option.getD_some, List.any_map, Function.comp_def]
    rw [List.contains_eq_any_beq]
    simp [beq_eq_decide, eq_comm]

theorem shouldTunnelHost_ofConfig {lower : Utf16 → Utf16} (config : SplitTunnelConfig) :
    (ofConfig config).shouldTunnelHost lower host =
      .ok (Extension.shouldTunnelHost lower host config) := by
  unfold shouldTunnelHost Extension.shouldTunnelHost
  split
  · rfl
  · simp only [matched, ofConfig, someMatches_map_string]
    cases config.mode with
    | bypass | only | all => rfl

/-- A split that was stored decides as the split itself. -/
theorem shouldTunnelRequest_ofConfig {lower : Utf16 → Utf16} (request : BrowserRequest)
    (config : SplitTunnelConfig) :
    (ofConfig config).shouldTunnelRequest lower request =
      .ok (Extension.shouldTunnelRequest lower request config) := by
  unfold shouldTunnelRequest Extension.shouldTunnelRequest
  rw [shouldTunnelHost_ofConfig]
  split
  · rfl
  · have hmode : (ofConfig config).mode = config.mode := rfl
    rw [hmode]
    cases config.mode with
    | bypass | all => rfl
    | only =>
      cases request.tabId with
      | none => rfl
      | some tab =>
        simp only [includesTab_ofConfig, Option.any_some]
        cases (config.tabs.getD []).contains tab with
        | true | false => rfl

end StoredSplit

namespace RoutingSources
variable (env : RoutingSources)

/-- Everything the record needs for a request can be had: its split can be read, and when the
request is tunnelled the lookup of the session, or the credential, does not fail. -/
def Served (request : BrowserRequest) : RoutingRecord → Prop
  | .lockdown _ => True
  | .multihop socks5 split =>
    split.Readable env.toLowerCase request ∧
      (split.shouldTunnelRequest env.toLowerCase request = .ok true →
        ∀ forListener, env.forListener = some forListener → ∃ auth, forListener socks5 = .ok auth)
  | .ingress _ split =>
    split.Readable env.toLowerCase request ∧
      (split.shouldTunnelRequest env.toLowerCase request = .ok true →
        ∃ credential, env.credential = .resolved credential ∧
          ∀ c, credential = some c → Lib.isLatin1 c = true)

/-- The storage area answers, and what a record in force needs for the request can be had. -/
def Undisturbed (request : FirefoxRequest) : Prop :=
  env.isLoopbackUrl request.url = true ∨
    env.area ≠ .pending ∧ ∀ state b, env.record = some state → env.browserRequest request = some b →
      env.Served b state

variable {env}

end RoutingSources

theorem basicAuth_ok_iff (credential : Utf16) :
    (∃ auth, basicAuth credential = .ok auth) ↔ Lib.isLatin1 credential = true := by
  have hname : Lib.isLatin1 (CREDENTIAL_USERNAME ++ ":" : Utf16) = true := by decide
  have hall : Lib.isLatin1 (CREDENTIAL_USERNAME ++ ":" ++ credential : Utf16) =
      Lib.isLatin1 credential := by
    rw [Lib.isLatin1, List.all_append]
    exact (congrArg (· && _) hname).trans (Bool.true_and _)
  rw [basicAuth, Lib.btoa, hall]
  cases Lib.isLatin1 credential <;> simp

/-- The entries for an ingress are there when its credential can be written into a header, and lead
to the ingress. -/
theorem firefoxProxyInfoFor_ok (endpoint : IngressEndpoint)
    (h : ∀ c, credential = some c → Lib.isLatin1 c = true) :
    ∃ infos, firefoxProxyInfoFor endpoint credential = .ok infos ∧ infos ≠ [] ∧
      ∀ info ∈ infos, info.address = some (endpoint.host, endpoint.port) := by
  have hauth : ∃ auth, credential.mapM basicAuth = .ok auth := by
    cases credential with
    | none => exact ⟨none, rfl⟩
    | some c =>
      obtain ⟨auth, hauth⟩ := (basicAuth_ok_iff c).mpr (h c rfl)
      exact ⟨some auth, by rw [Option.mapM_some, hauth]; rfl⟩
  obtain ⟨auth, hauth⟩ := hauth
  rw [firefoxProxyInfoFor, hauth]
  cases endpoint with
  | https host port =>
    refine ⟨_, rfl, List.cons_ne_nil _ _, ?_⟩
    simp [FirefoxProxyInfo.address, IngressEndpoint.host, IngressEndpoint.port]
  | masque host port template =>
    refine ⟨_, rfl, List.cons_ne_nil _ _, ?_⟩
    simp [FirefoxProxyInfo.address, IngressEndpoint.host, IngressEndpoint.port]

theorem firefoxProxyInfoFor_error (endpoint : IngressEndpoint) (hc : Lib.isLatin1 c = false) :
    firefoxProxyInfoFor endpoint (some c) = .error .thrown := by
  have hauth : basicAuth c = .error .thrown := by
    cases h : basicAuth c with
    | ok auth =>
      rw [(basicAuth_ok_iff c).mp ⟨auth, h⟩] at hc
      cases hc
    | error e =>
      unfold basicAuth at h
      split at h <;> cases h
      rfl
  rw [firefoxProxyInfoFor, Option.mapM_some, hauth]
  rfl

theorem span_append_cons {p : α → Bool} {as : List α} (has : ∀ a ∈ as, p a = true)
    (hb : p b = false) (bs : List α) : (as ++ b :: bs).span p = (as, b :: bs) := by
  rw [List.span_eq_takeWhile_dropWhile, List.takeWhile_append_of_pos has,
    List.dropWhile_append_of_pos has]
  simp [hb]

theorem of_isSocksAddress (h : isSocksAddress address = true) :
    ∃ host port, address = host ++ 0x3A :: port ∧ ∀ u ∈ port, isDigit u = true := by
  unfold isSocksAddress at h
  split at h
  next host _ v port heq =>
    rw [List.span_eq_takeWhile_dropWhile, Prod.mk.injEq] at heq
    obtain ⟨hhost, hport⟩ := heq
    have hcut := List.takeWhile_append_dropWhile (p := (· ≠ (0x3A : UInt16))) (l := address)
    have hhead := List.head?_dropWhile_not (· ≠ (0x3A : UInt16)) address
    rw [hport] at hhead
    have hv : v = 0x3A := by simpa using hhead
    rw [hhost, hport, hv] at hcut
    refine ⟨_, port, hcut.symm, ?_⟩
    exact List.all_eq_true.mp (Bool.and_eq_true_iff.mp h).2
  next => cases h

/-- An accepted listener address is a host and a port around its only colon. -/
theorem socksProxyInfo_of_isSocksAddress (h : isSocksAddress socks5 = true)
    (auth : ExtensionProxyAuth) : ∃ host port, socks5 = host ++ 0x3A :: port ∧ 0x3A ∉ port ∧
      socksProxyInfo socks5 auth = .socks host port true auth := by
  obtain ⟨host, port, rfl, hport⟩ := of_isSocksAddress h
  have hcolon : 0x3A ∉ port := fun hmem => absurd (hport _ hmem) (by decide)
  refine ⟨host, port, rfl, hcolon, ?_⟩
  have hspan : (host ++ 0x3A :: port).reverse.span (· ≠ 0x3A) =
      (port.reverse, 0x3A :: host.reverse) := by
    rw [List.reverse_append, List.reverse_cons, List.append_assoc]
    refine span_append_cons ?_ (by decide) _
    intro u hu
    rw [decide_eq_true_eq]
    rintro rfl
    exact hcolon (List.mem_reverse.mp hu)
  rw [socksProxyInfo, hspan]
  simp

theorem isSocksAddress_of_asMultihopState
    (h : asMultihopState value = some (.multihop socks5 split)) : isSocksAddress socks5 = true := by
  unfold asMultihopState at h
  obtain ⟨address, -, h⟩ := Option.bind_eq_some_iff.mp h
  cases haddress : isSocksAddress address with
  | false =>
    simp [haddress] at h
  | true =>
    simp only [haddress, Bool.not_true, Bool.false_eq_true, if_false, Option.bind_eq_bind,
      Option.bind_eq_some_iff, Option.pure_def, Option.some.injEq] at h
    obtain ⟨_, _, _, _, _, _, heq⟩ := h
    cases heq
    exact haddress

/-- The address of an accepted listener is well formed. -/
theorem isSocksAddress_of_asRoutingRecord
    (h : asRoutingRecord value = some (.multihop socks5 split)) : isSocksAddress socks5 = true := by
  unfold asRoutingRecord at h
  obtain ⟨tier, -, h⟩ := Option.bind_eq_some_iff.mp h
  split at h
  · unfold asLockdownState at h
    simp [Option.bind_eq_some_iff] at h
  split at h
  · exact isSocksAddress_of_asMultihopState h
  split at h
  · unfold asIngressState at h
    simp [Option.bind_eq_some_iff] at h
  · cases h

namespace RoutingSources
variable {env : RoutingSources}

/-- The split of a record that has one. -/
def split : RoutingRecord → Option StoredSplit
  | .lockdown _ => none
  | .ingress _ split | .multihop _ split => some split

theorem sendsDirect_of_split (hsplit : split state = some sp) (request : BrowserRequest) :
    env.sendsDirect request state =
      (sp.shouldTunnelRequest env.toLowerCase request).map (!·) := by
  cases state with
  | lockdown exempt => cases hsplit
  | ingress endpoint sp' | multihop socks5 sp' => cases hsplit; rfl

theorem exempts_of_split (hsplit : split state = some sp)
    (h : sp.shouldTunnelRequest env.toLowerCase request = .ok false) :
    env.Exempts request state := by
  cases state with
  | lockdown exempt => cases hsplit
  | ingress endpoint sp' | multihop socks5 sp' => cases hsplit; exact h

theorem answer_of_split (hsplit : split state = some sp)
    (h : sp.shouldTunnelRequest env.toLowerCase request = .ok tunnelled) :
    env.answer request state = if tunnelled then env.route state else .resolved .direct := by
  rw [answer, sendsDirect_of_split hsplit, h]
  cases tunnelled <;> rfl

theorem readable_of_answer (hsplit : split state = some sp)
    (h : env.answer request state = .resolved a) : sp.Readable env.toLowerCase request := by
  rw [← StoredSplit.shouldTunnelRequest_ok_iff]
  rw [answer, sendsDirect_of_split hsplit] at h
  cases hsp : sp.shouldTunnelRequest env.toLowerCase request with
  | ok b => exact ⟨b, rfl⟩
  | error e =>
    rw [hsp] at h
    cases h

/-- What a listener answers a request that is not direct, when it can. -/
theorem route_of_served (hrecord : ∀ socks5 sp, state = .multihop socks5 sp →
      isSocksAddress socks5 = true) (hs : env.Served request state)
    (ht : ∀ sp, split state = some sp → sp.shouldTunnelRequest env.toLowerCase request = .ok true) :
    env.route state = .resolved .failClosed ∨
      ∃ infos, env.route state = .resolved (.proxies infos) ∧ env.Carries infos state := by
  cases state with
  | lockdown exempt => exact .inl rfl
  | multihop socks5 sp =>
    cases hf : env.forListener with
    | none =>
      left
      rw [route, hf]
    | some forListener =>
      obtain ⟨found, hfound⟩ := hs.2 (ht sp rfl) forListener hf
      cases found with
      | none =>
        left
        rw [route, hf]
        simp only [hfound]
      | some auth =>
        obtain ⟨host, port, hsocks, hcolon, hinfo⟩ :=
          socksProxyInfo_of_isSocksAddress (hrecord socks5 sp rfl) auth
        refine .inr ⟨[.socks host port true auth], ?_, forListener, auth, host, port, hf, hfound,
          hsocks, hcolon, rfl⟩
        rw [route, hf]
        simp only [hfound, hinfo]
  | ingress endpoint sp =>
    obtain ⟨credential, hc, hlatin⟩ := hs.2 (ht sp rfl)
    obtain ⟨infos, hinfos, hne, haddress⟩ := firefoxProxyInfoFor_ok endpoint hlatin
    refine .inr ⟨infos, ?_, hne, haddress⟩
    rw [route, hc]
    simp only [hinfos]
    rfl

/-- The decision on a request under a record it can serve. -/
theorem answer_of_served (hrecord : ∀ socks5 sp, state = .multihop socks5 sp →
      isSocksAddress socks5 = true) (hs : env.Served request state) :
    ∃ a, env.answer request state = .resolved a ∧ (a = .direct → env.Exempts request state) ∧
      (a = .direct ∨ a = .failClosed ∨ ∃ infos, a = .proxies infos ∧ env.Carries infos state) := by
  have hroute (ht : ∀ sp, split state = some sp →
        sp.shouldTunnelRequest env.toLowerCase request = .ok true)
      (ha : env.answer request state = env.route state) :
      ∃ a, env.answer request state = .resolved a ∧ (a = .direct → env.Exempts request state) ∧
        (a = .direct ∨ a = .failClosed ∨
          ∃ infos, a = .proxies infos ∧ env.Carries infos state) := by
    rcases route_of_served hrecord hs ht with h | ⟨infos, h, hc⟩
    · exact ⟨.failClosed, ha.trans h, RoutingAnswer.noConfusion, .inr (.inl rfl)⟩
    · exact ⟨.proxies infos, ha.trans h, RoutingAnswer.noConfusion, .inr (.inr ⟨infos, rfl, hc⟩)⟩
  have hdirect (he : env.Exempts request state)
      (ha : env.answer request state = .resolved .direct) :
      ∃ a, env.answer request state = .resolved a ∧ (a = .direct → env.Exempts request state) ∧
        (a = .direct ∨ a = .failClosed ∨
          ∃ infos, a = .proxies infos ∧ env.Carries infos state) :=
    ⟨.direct, ha, fun _ => he, .inl rfl⟩
  cases hsplit : split state with
  | none =>
    cases state with
    | ingress endpoint sp | multihop socks5 sp => cases hsplit
    | lockdown exempt =>
      cases hany : exempt.any fun h => env.toLowerCase h = request.host with
      | true =>
        obtain ⟨h, hmem, heq⟩ := List.any_eq_true.mp hany
        refine hdirect ⟨h, hmem, of_decide_eq_true heq⟩ ?_
        rw [answer, sendsDirect, hany]
      | false =>
        apply hroute
        · rintro sp ⟨⟩
        · rw [answer, sendsDirect, hany]
  | some sp =>
    have hreadable : sp.Readable env.toLowerCase request := by
      cases state with
      | lockdown exempt => cases hsplit
      | ingress endpoint sp' | multihop socks5 sp' => cases hsplit; exact hs.1
    obtain ⟨tunnelled, htunnel⟩ := StoredSplit.shouldTunnelRequest_ok_iff.mpr hreadable
    have ha := answer_of_split hsplit htunnel
    cases tunnelled with
    | true =>
      apply hroute _ ha
      intro sp' hsp'
      cases hsplit.symm.trans hsp'
      exact htunnel
    | false => exact hdirect (exempts_of_split hsplit htunnel) ha

/-- A promise that resolved had what it needed. -/
theorem served_of_answer (h : env.answer request state = .resolved a) :
    env.Served request state := by
  cases state with
  | lockdown exempt => trivial
  | multihop socks5 sp =>
    have hsplit : split (.multihop socks5 sp) = some sp := rfl
    refine ⟨readable_of_answer hsplit h, ?_⟩
    intro htunnel forListener hf
    rw [answer_of_split hsplit htunnel, if_pos rfl, route, hf] at h
    cases hfound : forListener socks5 with
    | ok found => exact ⟨found, rfl⟩
    | error e => simp [hfound] at h
  | ingress endpoint sp =>
    have hsplit : split (.ingress endpoint sp) = some sp := rfl
    refine ⟨readable_of_answer hsplit h, ?_⟩
    intro htunnel
    rw [answer_of_split hsplit htunnel, if_pos rfl, route] at h
    cases hc : env.credential with
    | rejected | pending => simp [hc] at h
    | resolved credential =>
      refine ⟨credential, rfl, ?_⟩
      rintro c rfl
      cases hlatin : Lib.isLatin1 c with
      | true => rfl
      | false =>
        simp [hc, firefoxProxyInfoFor_error endpoint hlatin, Except.map, Promise.ofExcept] at h

theorem record_eq_some_iff : env.record = some state ↔
    ∃ stored, env.area = .resolved stored ∧ stored.bind asRoutingRecord = some state := by
  unfold record
  cases env.area <;> simp

theorem isSocksAddress_of_record (h : env.record = some state) (socks5 : Utf16) (sp : StoredSplit)
    (hstate : state = .multihop socks5 sp) : isSocksAddress socks5 = true := by
  obtain ⟨stored, -, h⟩ := record_eq_some_iff.mp h
  obtain ⟨value, -, h⟩ := Option.bind_eq_some_iff.mp h
  exact isSocksAddress_of_asRoutingRecord (hstate ▸ h)

/-- The listener decides on a request exactly when nothing it needs is withheld or unreadable. -/
theorem decides_iff (env : RoutingSources) (request : FirefoxRequest) :
    env.Decides request ↔ env.Undisturbed request := by
  cases hl : env.isLoopbackUrl request.url with
  | true =>
    refine ⟨fun _ => .inl hl, fun _ => ⟨.direct, ?_, fun _ => .inl hl, fun h => absurd (.inl hl) h⟩⟩
    rw [onRequest, if_pos hl]
  | false =>
    have honRequest : env.onRequest request = _ := if_neg (Bool.eq_false_iff.mp hl)
    constructor
    · rintro ⟨a, ha, -, -⟩
      rw [honRequest] at ha
      refine .inr ⟨fun hp => ?_, fun state b hstate hb => ?_⟩
      · simp [hp] at ha
      · obtain ⟨stored, harea, hstored⟩ := record_eq_some_iff.mp hstate
        simp only [harea, hstored, hb] at ha
        exact served_of_answer ha
    · rintro (hl' | ⟨hp, hserved⟩)
      · rw [hl] at hl'
        cases hl'
      have hblocked (ha : env.onRequest request = .resolved .failClosed) : env.Decides request :=
        ⟨.failClosed, ha, RoutingAnswer.noConfusion, fun _ => .inl rfl⟩
      cases harea : env.area with
      | pending => exact absurd harea hp
      | rejected =>
        apply hblocked
        rw [honRequest, harea]
      | resolved stored =>
        cases hstored : stored.bind asRoutingRecord with
        | none =>
          have hmay : env.MayGoDirect request := .inr (.inl ⟨stored, harea, hstored⟩)
          refine ⟨.direct, ?_, fun _ => hmay, fun h => absurd hmay h⟩
          simp only [honRequest, harea, hstored]
        | some state =>
          have hstate : env.record = some state := record_eq_some_iff.mpr ⟨stored, harea, hstored⟩
          cases hb : env.browserRequest request with
          | none =>
            apply hblocked
            simp only [honRequest, harea, hstored, hb]
          | some b =>
            obtain ⟨a, ha, hexempt, hcases⟩ :=
              answer_of_served (isSocksAddress_of_record hstate) (hserved state b hstate hb)
            refine ⟨a, ?_, fun h => .inr (.inr ⟨state, b, hstate, hb, hexempt h⟩), fun hnot => ?_⟩
            · simp only [honRequest, harea, hstored, hb, ha]
            · rcases hcases with rfl | rfl | ⟨infos, rfl, hc⟩
              · exact absurd (.inr (.inr ⟨state, b, hstate, hb, hexempt rfl⟩)) hnot
              · exact .inl rfl
              · exact .inr ⟨state, infos, hstate, rfl, hc⟩

/-- A stored record of the ingress tier whose split has no rules. -/
def ruleless : Json :=
  .object [("tier", .string "ingress"),
    ("endpoint", .object [("kind", .string "https"), ("host", .string "in.example"),
      ("port", .number 443)]),
    ("split", .object [("mode", .string "bypass")]),
    ("exit", .object [("country", .string "CH"), ("city", .string "Bern")]),
    ("hops", .number 1)]

def rulelessSources : RoutingSources where
  toLowerCase s := s
  hostname _ := some "example.com"
  area := .resolved (some ruleless)
  credential := .resolved none
  forListener := none

/-- The validator accepts a record without rules, and the listener's promise rejects on it. -/
theorem not_decides_ruleless :
    ¬ ∀ (env : RoutingSources) (request : FirefoxRequest), env.Decides request := by
  intro h
  obtain ⟨a, ha, -⟩ := h rulelessSources { url := "https://example.com/" }
  have hrejected : rulelessSources.onRequest { url := "https://example.com/" } = .rejected := rfl
  rw [hrejected] at ha
  cases ha

end RoutingSources

end WarrenSdk.Extension
