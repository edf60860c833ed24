import Std.Data.String.ToNat
import WarrenSdk.Lib.Disk
import WarrenSdk.NativeHost.Ids

/-!
# Where the helper lives (the layout of `install.rs`)

Every path and every manifest is computed from the environment of the user. A path is its names from
the root, on Windows the drive first.
-/

namespace WarrenSdk.NativeHost
open Lib

inductive Os
  | macOs
  | linux
  | windows
deriving DecidableEq

structure Platform where
  os : Os
  home : Path
  xdgConfigHome : Option Path := none
  xdgDataHome : Option Path := none
  localAppData : Option Path := none
  appData : Option Path := none

inductive Family
  | chromium
  | firefox
deriving DecidableEq

inductive Registration
  | directory (dir : Path)
  | registryKey (key : String)
deriving DecidableEq

structure Browser where
  name : String
  family : Family
  /-- A directory whose presence says that the browser has been used. -/
  profile : Path
  registration : Registration
deriving DecidableEq

def HOST_NAME : String := "com.warrenbrowse.host"

namespace Platform
variable (p : Platform)

def localData : Path := p.localAppData.getD (p.home ++ ["AppData", "Local"])

def roamingData : Path := p.appData.getD (p.home ++ ["AppData", "Roaming"])

def macSupport : Path := p.home ++ ["Library", "Application Support"]

def xdgConfig : Path := p.xdgConfigHome.getD (p.home ++ [".config"])

def helperDir : Path :=
  match p.os with
  | .macOs => p.macSupport ++ ["Warren", "Helper"]
  | .linux => p.xdgDataHome.getD (p.home ++ [".local", "share"]) ++ ["warren", "helper"]
  | .windows => p.localData ++ ["Warren", "Helper"]

def binaryName : String :=
  match p.os with
  | .windows => "warren-host.exe"
  | _ => "warren-host"

def binaryPath : Path := p.helperDir ++ [p.binaryName]

def stateDir : Path := p.helperDir ++ ["state"]

def extraIdsPath : Path := p.helperDir ++ [ExtraIds.FILE_NAME]

def windowsManifestName : Family → String
  | .chromium => HOST_NAME ++ ".chromium.json"
  | .firefox => HOST_NAME ++ ".firefox.json"

def windowsManifestPath (family : Family) : Path := p.helperDir ++ [windowsManifestName family]

/-- `to_string_lossy` of a path. -/
def text (path : Path) : String :=
  match p.os with
  | .windows => "\\".intercalate path
  | _ => "/" ++ "/".intercalate path

end Platform

def MANIFEST_NAME : String := HOST_NAME ++ ".json"

def Browser.manifestFile (b : Browser) (p : Platform) : Path :=
  match b.registration with
  | .directory dir => dir ++ [MANIFEST_NAME]
  | .registryKey _ => p.windowsManifestPath b.family

/-! ## The browsers -/

/-- Of each browser its name and family, its profile, and the directory its manifests are in. -/
def MAC_BROWSERS : List (String × Family × Path × Path) := [
  ("Chrome", .chromium, ["Google", "Chrome"], ["Google", "Chrome"]),
  ("Chrome Beta", .chromium, ["Google", "Chrome Beta"], ["Google", "Chrome Beta"]),
  ("Chrome Dev", .chromium, ["Google", "Chrome Dev"], ["Google", "Chrome Dev"]),
  ("Chrome Canary", .chromium, ["Google", "Chrome Canary"], ["Google", "Chrome Canary"]),
  ("Chromium", .chromium, ["Chromium"], ["Chromium"]),
  ("Brave", .chromium, ["BraveSoftware", "Brave-Browser"], ["BraveSoftware", "Brave-Browser"]),
  ("Brave Beta", .chromium, ["BraveSoftware", "Brave-Browser-Beta"],
    ["BraveSoftware", "Brave-Browser-Beta"]),
  ("Brave Nightly", .chromium, ["BraveSoftware", "Brave-Browser-Nightly"],
    ["BraveSoftware", "Brave-Browser-Nightly"]),
  ("Edge", .chromium, ["Microsoft Edge"], ["Microsoft Edge"]),
  ("Edge Beta", .chromium, ["Microsoft Edge Beta"], ["Microsoft Edge Beta"]),
  ("Edge Dev", .chromium, ["Microsoft Edge Dev"], ["Microsoft Edge Dev"]),
  ("Edge Canary", .chromium, ["Microsoft Edge Canary"], ["Microsoft Edge Canary"]),
  ("Vivaldi", .chromium, ["Vivaldi"], ["Vivaldi"]),
  ("Arc", .chromium, ["Arc", "User Data"], ["Arc", "User Data"]),
  ("Opera", .chromium, ["com.operasoftware.Opera"], ["com.operasoftware.Opera"]),
  ("Firefox", .firefox, ["Firefox"], ["Mozilla"]),
  ("LibreWolf", .firefox, ["librewolf"], ["LibreWolf"])]

def LINUX_CHROMIUM : List (String × Path) := [
  ("Chrome", ["google-chrome"]),
  ("Chrome Beta", ["google-chrome-beta"]),
  ("Chrome Dev", ["google-chrome-unstable"]),
  ("Chromium", ["chromium"]),
  ("Brave", ["BraveSoftware", "Brave-Browser"]),
  ("Brave Beta", ["BraveSoftware", "Brave-Browser-Beta"]),
  ("Brave Nightly", ["BraveSoftware", "Brave-Browser-Nightly"]),
  ("Edge", ["microsoft-edge"]),
  ("Edge Beta", ["microsoft-edge-beta"]),
  ("Edge Dev", ["microsoft-edge-dev"]),
  ("Vivaldi", ["vivaldi"]),
  ("Opera", ["opera"])]

def browsers (p : Platform) : List Browser :=
  match p.os with
  | .macOs => MAC_BROWSERS.map fun (name, family, profile, data) => {
      name, family
      profile := p.macSupport ++ profile
      registration := .directory (p.macSupport ++ data ++ ["NativeMessagingHosts"]) }
  | .linux =>
    (LINUX_CHROMIUM.map fun (name, dir) => {
      name, family := .chromium
      profile := p.xdgConfig ++ dir
      registration := .directory (p.xdgConfig ++ dir ++ ["NativeMessagingHosts"]) }) ++ [
    { name := "Firefox", family := .firefox
      profile := p.home ++ [".mozilla", "firefox"]
      registration := .directory (p.home ++ [".mozilla", "native-messaging-hosts"]) },
    { name := "LibreWolf", family := .firefox
      profile := p.home ++ [".librewolf"]
      registration := .directory (p.home ++ [".librewolf", "native-messaging-hosts"]) }]
  | .windows =>
    let key (vendor : String) := "Software\\" ++ vendor ++ "\\NativeMessagingHosts\\" ++ HOST_NAME
    [
    { name := "Chrome", family := .chromium
      profile := p.localData ++ ["Google", "Chrome"]
      registration := .registryKey (key "Google\\Chrome") },
    { name := "Chromium", family := .chromium
      profile := p.localData ++ ["Chromium"]
      registration := .registryKey (key "Chromium") },
    { name := "Edge", family := .chromium
      profile := p.localData ++ ["Microsoft", "Edge"]
      registration := .registryKey (key "Microsoft\\Edge") },
    { name := "Brave", family := .chromium
      profile := p.localData ++ ["BraveSoftware", "Brave-Browser"]
      registration := .registryKey (key "BraveSoftware\\Brave-Browser") },
    { name := "Vivaldi", family := .chromium
      profile := p.localData ++ ["Vivaldi"]
      registration := .registryKey (key "Vivaldi") },
    { name := "Firefox", family := .firefox
      profile := p.roamingData ++ ["Mozilla", "Firefox"]
      registration := .registryKey (key "Mozilla") }]

/-- The member of a manifest that says who may call. -/
def callers (allow : Allowlist) : Family → Utf16 × Json
  | .chromium => ("allowed_origins", ExtraIds.strings allow.chromiumOrigins)
  | .firefox => ("allowed_extensions", ExtraIds.strings allow.gecko)

/-- The manifest of a family; `json!` sorts its members. -/
def manifest (family : Family) (binary : String) (allow : Allowlist) : Json :=
  .object [
    callers allow family,
    ("description", .string (.ofString "Warren VPN helper")),
    ("name", .string (.ofString HOST_NAME)),
    ("path", .string (.ofString binary)),
    ("type", .string (.ofString "stdio"))]

/-- The variants of a browser under one name, each name once. -/
def displayNames (bs : List Browser) : List String :=
  bs.foldl (fun names b =>
    let first := String.ofList (b.name.toList.takeWhile (· ≠ ' '))
    let short := if ["Chrome", "Brave", "Edge"].contains first then first else b.name
    if names.contains short then names else names ++ [short]) []

/-! ## Paths that are told apart -/

/-- The paths of the files that an install leaves. -/
inductive Platform.Shared (p : Platform) : Path → Prop
  | binary : p.Shared p.binaryPath
  | record : p.Shared p.extraIdsPath
  | manifest (h : b ∈ browsers p) : p.Shared (b.manifestFile p)

/-- The names of the files that an install leaves. -/
def SHARED_NAMES : List String :=
  ["warren-host", "warren-host.exe", ExtraIds.FILE_NAME, MANIFEST_NAME,
    Platform.windowsManifestName .chromium, Platform.windowsManifestName .firefox]

theorem Browser.manifestFile_eq (b : Browser) (p : Platform) :
    ∃ dir name, b.manifestFile p = dir ++ [name] ∧
      name ∈ [MANIFEST_NAME, Platform.windowsManifestName .chromium,
        Platform.windowsManifestName .firefox] := by
  unfold manifestFile
  split
  · exact ⟨_, _, rfl, List.mem_cons_self⟩
  · refine ⟨_, _, rfl, ?_⟩
    cases b.family
    · exact List.mem_cons_of_mem _ List.mem_cons_self
    · exact List.mem_cons_of_mem _ (List.mem_cons_of_mem _ List.mem_cons_self)

theorem Platform.Shared.eq {p : Platform} (h : p.Shared path) :
    ∃ dir name, path = dir ++ [name] ∧ name ∈ SHARED_NAMES := by
  cases h with
  | binary =>
    refine ⟨_, _, rfl, ?_⟩
    unfold Platform.binaryName
    split <;> decide
  | record => exact ⟨_, _, rfl, by decide⟩
  | manifest hb =>
    obtain ⟨dir, name, heq, hname⟩ := Browser.manifestFile_eq _ p
    refine ⟨dir, name, heq, ?_⟩
    exact List.mem_of_mem_drop (i := 3) hname

theorem family_of_suffix {s : Family → Path} (hlength : ∀ f, (s f).length = n)
    (hne : s .chromium ≠ s .firefox) (h : dir ++ s f = dir' ++ s f') : f = f' := by
  have hnames : s f = s f' := List.append_inj_right' h (by rw [hlength, hlength])
  cases f <;> cases f'
  · rfl
  · exact absurd hnames hne
  · exact absurd hnames.symm hne
  · rfl

/-- Where the manifests of a family are under Linux. -/
def linuxSuffix : Family → Path
  | .chromium => ["NativeMessagingHosts", MANIFEST_NAME]
  | .firefox => ["native-messaging-hosts", MANIFEST_NAME]

/-- A manifest file is that of one family. -/
theorem family_of_manifestFile {p : Platform} (hb : b ∈ browsers p) (hb' : b' ∈ browsers p)
    (h : b.manifestFile p = b'.manifestFile p) : b.family = b'.family := by
  unfold browsers at hb hb'
  split at hb
  · next hos =>
    simp only [hos] at hb'
    have hdata : ∀ x ∈ MAC_BROWSERS, ∀ y ∈ MAC_BROWSERS, x.2.2.2 = y.2.2.2 → x.2.1 = y.2.1 := by
      decide
    obtain ⟨x, hx, rfl⟩ := List.mem_map.mp hb
    obtain ⟨y, hy, rfl⟩ := List.mem_map.mp hb'
    refine hdata x hx y hy ?_
    simpa [Browser.manifestFile] using h
  · next hos =>
    simp only [hos] at hb'
    -- the directories of one family are not named as those of the other
    have hlast : ∀ c ∈ browsers p, ∃ dir, c.manifestFile p = dir ++ linuxSuffix c.family := by
      intro c hc
      simp only [browsers, hos] at hc
      rcases List.mem_append.mp hc with hc | hc
      · obtain ⟨x, -, rfl⟩ := List.mem_map.mp hc
        exact ⟨p.xdgConfig ++ x.2, List.append_assoc ..⟩
      · simp only [List.mem_cons, List.not_mem_nil, or_false] at hc
        rcases hc with rfl | rfl
        · exact ⟨p.home ++ [".mozilla"], by simp [Browser.manifestFile, linuxSuffix]⟩
        · exact ⟨p.home ++ [".librewolf"], by simp [Browser.manifestFile, linuxSuffix]⟩
    have hmem : b ∈ browsers p := by simpa only [browsers, hos] using hb
    have hmem' : b' ∈ browsers p := by simpa only [browsers, hos] using hb'
    obtain ⟨dir, hdir⟩ := hlast b hmem
    obtain ⟨dir', hdir'⟩ := hlast b' hmem'
    rw [hdir, hdir'] at h
    exact family_of_suffix (fun f => by cases f <;> rfl) (by decide) h
  · next hos =>
    simp only [hos] at hb'
    have hregistered : ∀ c ∈ browsers p, c.manifestFile p = p.windowsManifestPath c.family := by
      intro c hc
      simp only [browsers, hos, List.mem_cons, List.not_mem_nil, or_false] at hc
      rcases hc with rfl | rfl | rfl | rfl | rfl | rfl <;> rfl
    have hmem : b ∈ browsers p := by simpa only [browsers, hos] using hb
    have hmem' : b' ∈ browsers p := by simpa only [browsers, hos] using hb'
    rw [hregistered b hmem, hregistered b' hmem'] at h
    exact family_of_suffix (s := fun f => [Platform.windowsManifestName f]) (fun _ => rfl)
      (by decide) h

end WarrenSdk.NativeHost
