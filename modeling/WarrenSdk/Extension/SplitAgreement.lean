import WarrenSdk.Extension.BrowserRouting
import WarrenSdk.Lib.Glob
import WarrenSdk.Lib.LowerCase

/-!
# The matchers of a split agree

A rule in lower case is read as a `HostPattern`. The split engine, the PAC scripts and Chromium's
own bypass list each decide what a pattern matches, and differ on one form each: the scripts on a
star right before a name, the bypass list on the subdomains of a domain.
-/

namespace WarrenSdk.Extension

open Lib (Utf16 glob)
open Lib.Utf16 (LowerCase)

/-! ## Patterns -/

theorem dot_eq : ("." : Utf16) = [0x2E] := by decide

theorem star_eq : ("*" : Utf16) = [0x2A] := by decide

theorem starDot_eq : ("*." : Utf16) = [0x2A, 0x2E] := by decide

/-- The forms of a rule in lower case. -/
inductive HostPattern
  | any
  /-- The hosts that end in a text, which begins with a dot. -/
  | under (suffix : Utf16)
  | domain (name : Utf16)
  /-- A star right before a name. -/
  | starred (name : Utf16)

namespace HostPattern

def ofRule : Utf16 → HostPattern
  | [] => .domain []
  | u :: name =>
    if u = 0x2A then
      match name with
      | [] => .any
      | v :: _ => if v = 0x2E then .under name else .starred name
    else if u = 0x2E then .under (u :: name)
    else .domain (u :: name)

/-- A domain and what is below it. -/
def Covers (name host : Utf16) : Prop := host = name ∨ 0x2E :: name <:+ host

/-- What the split engine matches: the star before a name is part of the name. -/
def Matches (host : Utf16) : HostPattern → Prop
  | any => True
  | under suffix => suffix <:+ host
  | domain name => Covers name host
  | starred name => Covers (0x2A :: name) host

/-- What a PAC script matches: the star before a name is dropped. -/
def PacMatches (host : Utf16) : HostPattern → Prop
  | starred name => Covers name host
  | pattern => pattern.Matches host

theorem pacMatches_iff_of_plain {p : HostPattern} (hp : ∀ name, p ≠ .starred name) :
    p.PacMatches host ↔ p.Matches host := by
  cases p with
  | starred name => exact absurd rfl (hp name)
  | any | under _ | domain _ => exact Iff.rfl

end HostPattern

open HostPattern

theorem hostMatchesRule_iff {lower : Utf16 → Utf16} :
    hostMatchesRule lower host rule = true ↔ (ofRule (lower rule)).Matches (lower host) := by
  unfold hostMatchesRule
  generalize lower rule = r
  generalize lower host = h
  simp only [star_eq, starDot_eq, dot_eq]
  cases r with
  | nil => simp [ofRule, Matches, Covers]
  | cons u name =>
    by_cases hu : u = 0x2A
    · subst hu
      cases name with
      | nil => simp [ofRule, Matches]
      | cons v name =>
        by_cases hv : v = 0x2E
        · subst hv
          simp [ofRule, Matches]
        · simp [ofRule, Matches, Covers, hv, Ne.symm hv]
    · by_cases hd : u = 0x2E
      · subst hd
        simp [ofRule, Matches]
      · simp [ofRule, Matches, Covers, hu, hd, Ne.symm hu, Ne.symm hd]

theorem sliceLast_eq_iff {s host : Utf16} (hs : s ≠ []) :
    sliceLast s.length host = s ↔ s <:+ host := by
  have hlen : s.length ≠ 0 := mt List.length_eq_zero_iff.mp hs
  rw [sliceLast, if_neg hlen, List.suffix_iff_eq_drop, eq_comm]

theorem pacRuleMatches_iff : pacRuleMatches host r = true ↔ (ofRule r).PacMatches host := by
  unfold pacRuleMatches
  have hslice (u : UInt16) (name : Utf16) :
      sliceLast (name.length + 1) host = u :: name ↔ u :: name <:+ host :=
    sliceLast_eq_iff (List.cons_ne_nil u name)
  simp only [star_eq, dot_eq]
  cases r with
  | nil =>
    have hname := hslice 0x2E []
    simpa [ofRule, PacMatches, Matches, Covers] using or_congr_right hname
  | cons u name =>
    by_cases hu : u = 0x2A
    · subst hu
      cases name with
      | nil => simp [ofRule, PacMatches, Matches]
      | cons v name =>
        have hname := hslice 0x2E (v :: name)
        by_cases hv : v = 0x2E
        · subst hv
          simp [ofRule, PacMatches, Matches, hslice]
        · simp [ofRule, PacMatches, Covers, hv, ← hname]
    · have hname := hslice 0x2E (u :: name)
      by_cases hd : u = 0x2E
      · subst hd
        simp [ofRule, PacMatches, Matches, hslice]
      · simp [ofRule, PacMatches, Matches, Covers, hu, hd, ← hname]

/-! ## PAC scripts -/

section
variable (L : LowerCase)

/-- An IPv6 literal: no other host has a colon. -/
def IsIpv6Literal (host : Utf16) : Prop := 0x3A ∈ host

/-- The script sends `host` where the split engine says. -/
def PacScript.Agrees (config : SplitTunnelConfig) (host : Utf16) (script : PacScript) : Prop :=
  script.findProxyForURL L host =
    some (if shouldTunnelHost L host config then script.proxy else .DIRECT)

instance : Decidable (PacScript.Agrees L config host script) :=
  inferInstanceAs (Decidable (_ = _))

/-- Some rule that has no star right before a name matches the host. -/
def PlainMatch (rules : List Utf16) (host : Utf16) : Prop :=
  ∃ rule ∈ rules, (∀ name, ofRule (L rule) ≠ .starred name) ∧ hostMatchesRule L host rule = true

/-- The host is, or is below, what some rule has after a star that no dot follows. -/
def AfterStar (rules : List Utf16) (host : Utf16) : Prop :=
  ∃ rule ∈ rules, ∃ name, ofRule (L rule) = .starred name ∧ Covers name (L host)

/-- The host is, or is below, such a rule taken literally, with its star. -/
def WithStar (rules : List Utf16) (host : Utf16) : Prop :=
  ∃ rule ∈ rules, ∃ name, ofRule (L rule) = .starred name ∧ Covers (0x2A :: name) (L host)

/-- No rule with a star right before a name decides what becomes of the host. -/
def StarsUndecisive (rules : List Utf16) (host : Utf16) : Prop :=
  isLoopback L host = true ∨ PlainMatch L rules host ∨
    (AfterStar L rules host ↔ WithStar L rules host)

variable {L}

theorem any_hostMatchesRule_iff (rules : List Utf16) (host : Utf16) :
    rules.any (hostMatchesRule L host) = true ↔
    PlainMatch L rules host ∨ WithStar L rules host := by
  rw [List.any_eq_true]
  constructor
  · rintro ⟨rule, hrule, hm⟩
    by_cases hs : ∃ name, ofRule (L rule) = .starred name
    · obtain ⟨name, hs⟩ := hs
      have hc := hostMatchesRule_iff.mp hm
      rw [hs] at hc
      exact .inr ⟨rule, hrule, name, hs, hc⟩
    · exact .inl ⟨rule, hrule, not_exists.mp hs, hm⟩
  · rintro (⟨rule, hrule, -, hm⟩ | ⟨rule, hrule, name, hs, hc⟩)
    · exact ⟨rule, hrule, hm⟩
    · refine ⟨rule, hrule, hostMatchesRule_iff.mpr ?_⟩
      rw [hs]
      exact hc

theorem any_pacRuleMatches_iff (rules : List Utf16) (host : Utf16) :
    (rules.map L).any (pacRuleMatches (L host)) = true ↔
    PlainMatch L rules host ∨ AfterStar L rules host := by
  simp only [List.any_map, List.any_eq_true, Function.comp_apply, pacRuleMatches_iff]
  constructor
  · rintro ⟨rule, hrule, hm⟩
    by_cases hs : ∃ name, ofRule (L rule) = .starred name
    · obtain ⟨name, hs⟩ := hs
      rw [hs] at hm
      exact .inr ⟨rule, hrule, name, hs, hm⟩
    · have hplain := not_exists.mp hs
      have hm := (pacMatches_iff_of_plain hplain).mp hm
      exact .inl ⟨rule, hrule, hplain, hostMatchesRule_iff.mpr hm⟩
  · rintro (⟨rule, hrule, hplain, hm⟩ | ⟨rule, hrule, name, hs, hc⟩)
    · exact ⟨rule, hrule, (pacMatches_iff_of_plain hplain).mpr (hostMatchesRule_iff.mp hm)⟩
    · refine ⟨rule, hrule, ?_⟩
      rw [hs]
      exact hc

theorem dnsDomainIs_localhost :
    dnsDomainIs L (L host) ".localhost" = (".localhost" : Utf16).isSuffixOf (L host) := by
  have hlow : L ".localhost" = ".localhost" := L.eq_self (by decide)
  rw [dnsDomainIs, L.idem, hlow]

/-- The script's test for loopback is the engine's. -/
theorem pac_isLoopback (hhost : ¬ IsIpv6Literal host) :
    (L host = "localhost" || dnsDomainIs L (L host) ".localhost" || L host = "127.0.0.1" ||
      L host = "::1") = isLoopback L host := by
  have hcolon : 0x3A ∉ L host := mt ((L.replaces host).mem (by decide)) hhost
  have hplain : L host ≠ "::1" := fun h => hcolon (h ▸ by decide)
  have hbracket : L host ≠ "[::1]" := fun h => hcolon (h ▸ by decide)
  simp [isLoopback, dnsDomainIs_localhost, hplain, hbracket]

theorem findProxyForURL_only (rules : List Utf16) (proxy : PacAnswer)
    (hhost : ¬ IsIpv6Literal host) :
    PacScript.findProxyForURL L
        { rules := Lib.JsString.stringify (rules.map L), onlyMode := true, proxy } host =
      some (if isLoopback L host then .DIRECT
        else if (rules.map L).any (pacRuleMatches (L host)) then proxy else .DIRECT) := by
  have hread := Lib.JsString.readArray_stringify (rules.map L) []
  rw [List.append_nil] at hread
  simp only [PacScript.findProxyForURL, hread, Option.bind_eq_bind, Option.bind_some,
    pac_isLoopback hhost, if_true]
  split <;> rfl

/-- A script over the rules agrees with the engine when no star before a name is decisive. -/
theorem agrees_iff {proxy : PacAnswer} (hproxy : proxy ≠ .DIRECT) (rules : List Utf16)
    (tabs : Option (List Int)) (hhost : ¬ IsIpv6Literal host) :
    PacScript.Agrees L { mode := .only, rules, tabs } host
        { rules := Lib.JsString.stringify (rules.map L), onlyMode := true, proxy } ↔
      StarsUndecisive L rules host := by
  rw [PacScript.Agrees, findProxyForURL_only rules proxy hhost, StarsUndecisive]
  cases hl : isLoopback L host with
  | true => simp [shouldTunnelHost, hl]
  | false =>
    have hpac := any_pacRuleMatches_iff (L := L) rules host
    have hsplit := any_hostMatchesRule_iff (L := L) rules host
    have hagree : ((rules.map L).any (pacRuleMatches (L host)) =
        rules.any (hostMatchesRule L host)) ↔
        (PlainMatch L rules host ∨
          (AfterStar L rules host ↔ WithStar L rules host)) := by
      rw [Bool.eq_iff_iff, hpac, hsplit]
      tauto
    simp only [shouldTunnelHost, hl, Bool.false_eq_true, if_false, false_or, Option.some_inj]
    rw [← hagree]
    cases (rules.map L).any (pacRuleMatches (L host)) <;>
      cases rules.any (hostMatchesRule L host) <;> simp [hproxy, Ne.symm hproxy]

/-- Both scripts decide as the engine does exactly where no rule with a star right before a name is
decisive. -/
theorem pacScripts_agree_iff (rules : List Utf16) (tabs : Option (List Int))
    (hhost : ¬ IsIpv6Literal host) :
    ((∀ http, (buildPacScript L http { mode := .only, rules, tabs }).Agrees L
        { mode := .only, rules, tabs } host) ∧
      ∀ ingressHost port,
        (buildIngressPac L ingressHost port { mode := .only, rules, tabs }).Agrees L
          { mode := .only, rules, tabs } host) ↔
      StarsUndecisive L rules host := by
  have hhttp (http : String) :=
    agrees_iff (L := L) (PacAnswer.noConfusion : PacAnswer.PROXY http ≠ .DIRECT) rules tabs hhost
  have hingress (ingressHost : Utf16) (port : Rat) :=
    agrees_iff (L := L) (PacAnswer.noConfusion : PacAnswer.HTTPS ingressHost port ≠ .DIRECT) rules
      tabs hhost
  constructor
  · rintro ⟨h, -⟩
    exact (hhttp "").mp (h "")
  · intro h
    exact ⟨fun http => (hhttp http).mpr h, fun ingressHost port => (hingress _ _).mpr h⟩

end

theorem pacScripts_agree_work :
    (∀ http, (buildPacScript Lib.Utf16.asciiLowerCase http
      { mode := .only, rules := ["Work.example", "*x"] }).Agrees Lib.Utf16.asciiLowerCase
        { mode := .only, rules := ["Work.example", "*x"] } "mail.work.example") ∧
      ∀ ingressHost port, (buildIngressPac Lib.Utf16.asciiLowerCase ingressHost port
        { mode := .only, rules := ["Work.example", "*x"] }).Agrees Lib.Utf16.asciiLowerCase
          { mode := .only, rules := ["Work.example", "*x"] } "mail.work.example" := by
  refine (pacScripts_agree_iff _ none (by unfold IsIpv6Literal; decide)).mpr ?_
  refine .inr (.inl ⟨"Work.example", List.mem_cons_self, ?_, by decide⟩)
  intro name h
  cases h

/-- The rule `*example.com` tunnels `example.com` in the scripts only. -/
theorem not_pacScripts_agree_star :
    ¬ ∀ (L : LowerCase) (rules : List Utf16) (tabs : Option (List Int)) (host : Utf16),
      ¬ IsIpv6Literal host →
        (∀ http, (buildPacScript L http { mode := .only, rules, tabs }).Agrees L
          { mode := .only, rules, tabs } host) ∧
        ∀ ingressHost port,
          (buildIngressPac L ingressHost port { mode := .only, rules, tabs }).Agrees L
            { mode := .only, rules, tabs } host := by
  intro h
  have hstar := (h Lib.Utf16.asciiLowerCase ["*example.com"] none "example.com"
    (by unfold IsIpv6Literal; decide)).1 "127.0.0.1:1"
  exact absurd hstar (by decide +kernel)

/-! ## Chromium's bypass list -/

def isOctet (s : Utf16) : Bool :=
  !s.isEmpty && s.all isDigit &&
    s.foldl (fun n (u : UInt16) => n * 10 + (u.toNat - 0x30)) 0 < 256

/-- An IPv4 address of the loopback network. -/
def isIpv4Loopback (h : Utf16) : Bool :=
  match h.splitOn 0x2E with
  | [a, b, c, d] => a = "127" && isOctet b && isOctet c && isOctet d
  | _ => false

section
variable (L : LowerCase)

/-- The hosts Chromium sends direct whatever the list says. -/
def chromiumLoopback (host : Utf16) : Bool :=
  isLoopback L host || isIpv4Loopback (L host)

/-- A host pattern of a bypass list: it must match the whole host, case ignored, and a leading dot
stands for `*.`. -/
def bypassEntryMatches (host entry : Utf16) : Bool :=
  let pattern := if (L entry).head? = some 0x2E then 0x2A :: L entry else L entry
  glob 0x2A pattern (L host)

/-- Whether Chromium, pointed at a fixed server, sends a request to `host` direct. -/
def ProxyValue.sendsDirect (host : Utf16) : ProxyValue → Bool
  | .fixedServers _ _ _ bypassList =>
    chromiumLoopback L host || bypassList.any (bypassEntryMatches L host)
  | _ => false

/-- A domain name: it has no star, and does not begin with a dot. -/
structure IsDomainName (d : Utf16) : Prop where
  ne_nil : d ≠ []
  star : 0x2A ∉ d
  dot : d.head? ≠ some 0x2E

/-- The documented forms of a rule. -/
inductive DocumentedRule : Utf16 → Prop
  | any : DocumentedRule [0x2A]
  | domain : IsDomainName d → DocumentedRule d
  | dotted : IsDomainName d → DocumentedRule (0x2E :: d)
  | starred : IsDomainName d → DocumentedRule (0x2A :: 0x2E :: d)

/-- A rule matches a host without recourse to the subdomains of a domain. -/
def HostPattern.Names (host : Utf16) : HostPattern → Prop
  | domain name => host = name
  | pattern => pattern.Matches host

/-- A rule that is a domain, and a host below it. -/
def HostPattern.Below (host : Utf16) : HostPattern → Prop
  | domain name => 0x2E :: name <:+ host
  | _ => False

/-- No rule decides about the host only as a subdomain, unless it is a loopback address that only
Chromium knows; and no such address goes direct in Chromium alone. -/
def SubdomainsUndecisive (rules : List Utf16) (host : Utf16) : Prop :=
  isLoopback L host = true ∨ (∃ rule ∈ rules, (ofRule (L rule)).Names (L host)) ∨
    (isIpv4Loopback (L host) = true ↔ ∃ rule ∈ rules, (ofRule (L rule)).Below (L host))

variable {L}

theorem IsDomainName.lower {d d' : Utf16} (hd : IsDomainName d) (h : Lib.Utf16.Replaces d d') :
    IsDomainName d' where
  ne_nil := h.ne_nil hd.ne_nil
  star := mt (h.mem (by decide)) hd.star
  dot := mt (h.head (by decide)) hd.dot

theorem DocumentedRule.lower {rule rule' : Utf16} (hr : DocumentedRule rule)
    (h : Lib.Utf16.Replaces rule rule') : DocumentedRule rule' := by
  cases hr with
  | any =>
    obtain ⟨t, rfl, ht⟩ := h.of_keep (by decide)
    cases ht
    exact .any
  | domain hd => exact .domain (hd.lower h)
  | dotted hd =>
    obtain ⟨t, rfl, ht⟩ := h.of_keep (by decide)
    exact .dotted (hd.lower ht)
  | starred hd =>
    obtain ⟨t, rfl, ht⟩ := h.of_keep (by decide)
    obtain ⟨d', rfl, hd'⟩ := ht.of_keep (by decide)
    exact .starred (hd.lower hd')

theorem IsDomainName.ofRule {d : Utf16} (hd : IsDomainName d) : ofRule d = .domain d := by
  cases d with
  | nil => exact absurd rfl hd.ne_nil
  | cons u name =>
    have hs : u ≠ 0x2A := fun h => hd.star (h ▸ List.mem_cons_self)
    have hdot : u ≠ 0x2E := fun h => hd.dot (h ▸ rfl)
    simp [HostPattern.ofRule, hs, hdot]

/-- What a documented rule matches: what it names, and what is below it. -/
theorem matches_iff {p : HostPattern} (hp : ∀ name, p ≠ .starred name) :
    p.Matches host ↔ p.Names host ∨ p.Below host := by
  cases p with
  | starred name => exact absurd rfl (hp name)
  | domain name => exact Iff.rfl
  | any | under _ => simp [HostPattern.Names, HostPattern.Below]

theorem DocumentedRule.plain {r : Utf16} (hr : DocumentedRule r) (name : Utf16) :
    HostPattern.ofRule r ≠ .starred name := by
  cases hr with
  | any => exact HostPattern.noConfusion
  | domain hd =>
    rw [hd.ofRule]
    exact HostPattern.noConfusion
  | dotted _ | starred _ => simp [HostPattern.ofRule]

/-- The pattern of a bypass list matches what the rule names. -/
theorem glob_iff {r : Utf16} (hr : DocumentedRule r) (host : Utf16) :
    glob 0x2A (if r.head? = some 0x2E then 0x2A :: r else r) host = true ↔
      (HostPattern.ofRule r).Names host := by
  have hdot {d : Utf16} (hd : IsDomainName d) : 0x2A ∉ (0x2E :: d : Utf16) := by
    simp [hd.star]
  cases hr with
  | any => simp [HostPattern.ofRule, HostPattern.Names, Matches, Lib.glob_star]
  | domain hd =>
    rw [if_neg hd.dot, Lib.glob_of_notMem hd.star, hd.ofRule]
    exact Iff.rfl
  | dotted hd =>
    rw [List.head?_cons, if_pos rfl, Lib.glob_star_of_notMem (hdot hd)]
    simp [HostPattern.ofRule, HostPattern.Names, Matches]
  | starred hd =>
    rw [List.head?_cons, if_neg (by decide), Lib.glob_star_of_notMem (hdot hd)]
    simp [HostPattern.ofRule, HostPattern.Names, Matches]

theorem bypassEntryMatches_iff (hr : DocumentedRule rule) (host : Utf16) :
    bypassEntryMatches L host rule = true ↔
      (HostPattern.ofRule (L rule)).Names (L host) :=
  glob_iff (hr.lower (L.replaces rule)) (L host)

/-- The entries every list begins with name loopback hosts only. -/
theorem chromiumLoopback_of_bypass (hentry : entry ∈ LOOPBACK_BYPASS)
    (h : bypassEntryMatches L host entry = true) : isLoopback L host = true := by
  have hall : LOOPBACK_BYPASS.all (fun entry =>
      entry.all (fun u => u < 0x80 ∧ Lib.Utf16.asciiLower u = u) = true ∧
        !entry.contains 0x2A ∧ entry.head? ≠ some 0x2E) = true := by decide
  obtain ⟨hlow, hstar, hdot⟩ := of_decide_eq_true (List.all_eq_true.mp hall entry hentry)
  have hstar : 0x2A ∉ entry := by simpa using hstar
  rw [bypassEntryMatches, L.eq_self hlow, if_neg hdot, Lib.glob_of_notMem hstar] at h
  rcases List.mem_cons.mp hentry with rfl | hentry
  · simp [isLoopback, h]
  · rw [List.mem_singleton.mp hentry] at h
    simp [isLoopback, h]

theorem sendsDirect_eq_true_iff {rules : List Utf16} (hrules : ∀ rule ∈ rules, DocumentedRule rule)
    (scheme : String) (proxy : Utf16) (port : ProxyPort) (host : Utf16) :
    ProxyValue.sendsDirect L host (.fixedServers scheme proxy port (LOOPBACK_BYPASS ++ rules)) =
        true ↔
      isLoopback L host = true ∨ isIpv4Loopback (L host) = true ∨
        ∃ rule ∈ rules, (HostPattern.ofRule (L rule)).Names (L host) := by
  simp only [ProxyValue.sendsDirect, chromiumLoopback, Bool.or_eq_true, List.any_eq_true]
  constructor
  · rintro ((h | h) | ⟨entry, hmem, hm⟩)
    · exact .inl h
    · exact .inr (.inl h)
    · rcases List.mem_append.mp hmem with hmem | hmem
      · exact .inl (chromiumLoopback_of_bypass hmem hm)
      · exact .inr (.inr ⟨entry, hmem, (bypassEntryMatches_iff (hrules entry hmem) host).mp hm⟩)
  · rintro (h | h | ⟨rule, hmem, hm⟩)
    · exact .inl (.inl h)
    · exact .inl (.inr h)
    · exact .inr ⟨rule, List.mem_append_right _ hmem,
        (bypassEntryMatches_iff (hrules rule hmem) host).mpr hm⟩

theorem any_hostMatchesRule_documented {rules : List Utf16}
    (hrules : ∀ rule ∈ rules, DocumentedRule rule) (host : Utf16) :
    rules.any (hostMatchesRule L host) = true ↔
      (∃ rule ∈ rules, (HostPattern.ofRule (L rule)).Names (L host)) ∨
        ∃ rule ∈ rules, (HostPattern.ofRule (L rule)).Below (L host) := by
  have hrule : ∀ rule ∈ rules, hostMatchesRule L host rule = true ↔
      (HostPattern.ofRule (L rule)).Names (L host) ∨
        (HostPattern.ofRule (L rule)).Below (L host) := fun rule hmem =>
    hostMatchesRule_iff.trans (matches_iff ((hrules rule hmem).lower (L.replaces rule)).plain)
  rw [List.any_eq_true]
  constructor
  · rintro ⟨rule, hmem, hm⟩
    rcases (hrule rule hmem).mp hm with h | h
    · exact .inl ⟨rule, hmem, h⟩
    · exact .inr ⟨rule, hmem, h⟩
  · rintro (⟨rule, hmem, h⟩ | ⟨rule, hmem, h⟩)
    · exact ⟨rule, hmem, (hrule rule hmem).mpr (.inl h)⟩
    · exact ⟨rule, hmem, (hrule rule hmem).mpr (.inr h)⟩

/-- A value over fixed servers agrees with the engine where no subdomain is decisive. -/
theorem sendsDirect_iff {rules : List Utf16} (hrules : ∀ rule ∈ rules, DocumentedRule rule)
    (tabs : Option (List Int)) (host : Utf16) :
    ProxyValue.sendsDirect L host (.fixedServers scheme proxy port (LOOPBACK_BYPASS ++ rules)) =
        !shouldTunnelHost L host { mode := .bypass, rules, tabs } ↔
      SubdomainsUndecisive L rules host := by
  have hdirect := sendsDirect_eq_true_iff (L := L) hrules scheme proxy port host
  have hmatch := any_hostMatchesRule_documented (L := L) hrules host
  rw [SubdomainsUndecisive, Bool.eq_iff_iff, hdirect]
  cases hl : isLoopback L host with
  | true => simp [shouldTunnelHost, hl]
  | false =>
    simp only [shouldTunnelHost, hl, Bool.false_eq_true, if_false, false_or, Bool.not_not, hmatch]
    generalize (∃ rule ∈ rules, (HostPattern.ofRule (L rule)).Names (L host)) = named
    generalize (∃ rule ∈ rules, (HostPattern.ofRule (L rule)).Below (L host)) = below
    by_cases h : named <;> simp [h]

/-- In bypass mode both of Chromium's values decide as the engine does exactly where no subdomain of
a bare rule, and no loopback address that only Chromium knows, is decisive. -/
theorem bypass_agrees_iff {rules : List Utf16} (hrules : ∀ rule ∈ rules, DocumentedRule rule)
    (tabs : Option (List Int)) (host : Utf16) :
    ((∀ http, (buildChromiumProxyValue L http { mode := .bypass, rules, tabs }).sendsDirect L host =
        !shouldTunnelHost L host { mode := .bypass, rules, tabs }) ∧
      ∀ endpoint,
        (buildChromiumIngressValue L endpoint { mode := .bypass, rules, tabs }).sendsDirect L host =
          !shouldTunnelHost L host { mode := .bypass, rules, tabs }) ↔
      SubdomainsUndecisive L rules host := by
  constructor
  · rintro ⟨h, -⟩
    exact (sendsDirect_iff hrules tabs host).mp (h "")
  · intro h
    exact ⟨fun _ => (sendsDirect_iff hrules tabs host).mpr h,
      fun _ => (sendsDirect_iff hrules tabs host).mpr h⟩

end

theorem isDomainName_bank : IsDomainName "bank.example" where
  ne_nil := by decide
  star := by decide
  dot := by decide

theorem bypass_agrees_bank :
    (∀ http, (buildChromiumProxyValue Lib.Utf16.asciiLowerCase http
        { mode := .bypass, rules := ["bank.example"] }).sendsDirect Lib.Utf16.asciiLowerCase
          "Bank.example" =
      !shouldTunnelHost Lib.Utf16.asciiLowerCase "Bank.example"
        { mode := .bypass, rules := ["bank.example"] }) ∧
      ∀ endpoint, (buildChromiumIngressValue Lib.Utf16.asciiLowerCase endpoint
        { mode := .bypass, rules := ["bank.example"] }).sendsDirect Lib.Utf16.asciiLowerCase
          "Bank.example" =
        !shouldTunnelHost Lib.Utf16.asciiLowerCase "Bank.example"
          { mode := .bypass, rules := ["bank.example"] } := by
  refine (bypass_agrees_iff ?_ none "Bank.example").mpr ?_
  · intro rule hrule
    rw [List.mem_singleton.mp hrule]
    exact .domain isDomainName_bank
  · have hlow : Lib.Utf16.asciiLowerCase "Bank.example" =
        Lib.Utf16.asciiLowerCase "bank.example" := by decide
    exact .inr (.inl ⟨"bank.example", List.mem_cons_self, hlow⟩)

/-- The rule `bank.example` leaves its subdomain `www.bank.example` in Chromium's tunnel. -/
theorem not_bypass_agrees_subdomain :
    ¬ ∀ (L : LowerCase) (rules : List Utf16) (tabs : Option (List Int)) (host : Utf16),
      (∀ rule ∈ rules, DocumentedRule rule) →
        (∀ http,
          (buildChromiumProxyValue L http { mode := .bypass, rules, tabs }).sendsDirect L host =
            !shouldTunnelHost L host { mode := .bypass, rules, tabs }) ∧
        ∀ endpoint,
          (buildChromiumIngressValue L endpoint { mode := .bypass, rules, tabs }).sendsDirect L
              host =
            !shouldTunnelHost L host { mode := .bypass, rules, tabs } := by
  intro h
  have hrules : ∀ rule ∈ (["bank.example"] : List Utf16), DocumentedRule rule := by
    intro rule hrule
    rw [List.mem_singleton.mp hrule]
    exact .domain isDomainName_bank
  have hwww := (h Lib.Utf16.asciiLowerCase ["bank.example"] none "www.bank.example" hrules).2
    (.https "ingress.example" 443)
  exact absurd hwww (by decide +kernel)

end WarrenSdk.Extension
