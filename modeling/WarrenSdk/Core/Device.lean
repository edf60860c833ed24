import WarrenSdk.Core.Errors
import WarrenSdk.Lib.Base64
import WarrenSdk.Lib.Json

/-!
# The device identity (`device/index.ts`)

An install keeps a random id and a name where it keeps its token state. Whoever reads the kept text
refuses an empty name, and whoever writes it does not: the store acts as one of identities
(`transcript_eq_replay`) that forgets what it holds when an empty name is kept.
-/

namespace WarrenSdk.Core.Device

open Lib

/-! ## Ids -/

def DEVICE_ID_LEN : Nat := 16

inductive WarrenDeviceErrorCode
  | invalidDeviceId
  | invalidPlatform
  | noRegistrar
deriving DecidableEq, Repr

structure WarrenDeviceError where
  code : WarrenDeviceErrorCode
  message : String
deriving DecidableEq, Repr

def invalidId : WarrenDeviceError where
  code := .invalidDeviceId
  message := "a device id is 16 bytes as base64url without padding"

/-- A text that spells sixteen octets. -/
structure DeviceId where
  value : Utf16
  spells : ∃ bytes, ofBase64Url value = some bytes ∧ bytes.length = DEVICE_ID_LEN
deriving DecidableEq

def parseDeviceId (value : Utf16) : Except WarrenDeviceError DeviceId :=
  match h : ofBase64Url value with
  | none => .error invalidId
  | some bytes =>
    if hl : bytes.length = DEVICE_ID_LEN then .ok ⟨value, bytes, h, hl⟩ else .error invalidId

/-- The length that it checks is the one of the type. -/
def deviceIdFromBytes (bytes : Octets DEVICE_ID_LEN) : DeviceId where
  value := base64Url bytes.1
  spells := ⟨bytes.1, ofBase64Url_base64Url bytes.1, bytes.2⟩

theorem parseDeviceId_value (deviceId : DeviceId) :
    parseDeviceId deviceId.value = .ok deviceId := by
  obtain ⟨bytes, hbytes, hlength⟩ := deviceId.spells
  unfold parseDeviceId
  split
  · next hnone =>
    rw [hbytes] at hnone
    cases hnone
  · next bytes' hsome =>
    rw [hbytes] at hsome
    cases hsome
    rw [dif_pos hlength]

/-! ## Names -/

def DEVICE_NAME_ADJECTIVES : List String :=
  ["amber", "bold", "brave", "bright", "calm", "clever", "cosy", "crisp", "curious", "dapper",
    "eager", "fair", "gentle", "glad", "golden", "happy", "honest", "jolly", "keen", "kind",
    "lively", "lucky", "merry", "mighty", "nimble", "noble", "patient", "plucky", "proud", "quick",
    "quiet", "rapid", "shy", "silver", "sleek", "steady", "sunny", "swift", "tidy", "witty"]

def DEVICE_NAME_ANIMALS : List String :=
  ["badger", "beaver", "bison", "crane", "deer", "dolphin", "eagle", "falcon", "ferret", "finch",
    "fox", "gecko", "hare", "hedgehog", "heron", "ibis", "jackal", "koala", "lemur", "lynx",
    "marten", "mole", "moose", "newt", "otter", "owl", "panda", "puffin", "rabbit", "raven",
    "robin", "seal", "sparrow", "squirrel", "stoat", "swan", "tapir", "toad", "walrus", "wolf"]

/-- `deviceNameFrom`, of the two draws in their order. -/
def deviceNameFrom (first second : UInt32) : Utf16 :=
  let adjective : Utf16 :=
    DEVICE_NAME_ADJECTIVES.getD (first.toNat % DEVICE_NAME_ADJECTIVES.length) ""
  let animal : Utf16 := DEVICE_NAME_ANIMALS.getD (second.toNat % DEVICE_NAME_ANIMALS.length) ""
  adjective ++ 0x20 :: animal

theorem deviceNameFrom_ne_nil (first second : UInt32) : deviceNameFrom first second ≠ [] := by
  unfold deviceNameFrom
  exact List.append_ne_nil_of_right_ne_nil _ (List.cons_ne_nil _ _)

/-! ## Identities -/

structure DeviceIdentity where
  deviceId : DeviceId
  name : Utf16
deriving DecidableEq

/-- What the platform draws for a new identity. -/
structure Draw where
  id : Octets DEVICE_ID_LEN
  adjective : UInt32
  animal : UInt32

def generateDeviceIdentity (draw : Draw) : DeviceIdentity where
  deviceId := deviceIdFromBytes draw.id
  name := deviceNameFrom draw.adjective draw.animal

def DeviceIdentity.members (identity : DeviceIdentity) : List (Utf16 × Json) :=
  [("device_id", .string identity.deviceId.value), ("name", .string identity.name)]

def DeviceIdentity.toJson (identity : DeviceIdentity) : Json := .object identity.members

def encodeDeviceIdentity (identity : DeviceIdentity) : Utf16 := identity.toJson.stringify

def parseDeviceIdentity (text : Utf16) : Option DeviceIdentity :=
  match Json.parse text with
  | some (.object members) =>
    match Json.member members "device_id", Json.member members "name" with
    | some (.string deviceId), some (.string name) =>
      if name.length = 0 then none
      else
        match parseDeviceId deviceId with
        | .ok deviceId => some { deviceId, name }
        | .error _ => none
    | _, _ => none
  | _ => none

theorem DeviceIdentity.nodup_members (identity : DeviceIdentity) :
    (identity.members.map Prod.fst).Nodup := by
  simp only [members, List.map_cons, List.map_nil]
  decide

theorem DeviceIdentity.plain_toJson (identity : DeviceIdentity) : identity.toJson.Plain := by
  refine .object identity.nodup_members fun m hm => ?_
  simp only [members, List.mem_cons, List.not_mem_nil, or_false] at hm
  obtain rfl | rfl := hm
  · exact .string _
  · exact .string _

theorem parseDeviceIdentity_encode (identity : DeviceIdentity) :
    parseDeviceIdentity (encodeDeviceIdentity identity) =
      if identity.name = [] then none else some identity := by
  unfold parseDeviceIdentity encodeDeviceIdentity
  have hkeys : (identity.members.map Prod.fst).Nodup := identity.nodup_members
  have hid : Json.member identity.members "device_id" = some (.string identity.deviceId.value) :=
    Json.member_of_mem hkeys (by simp [DeviceIdentity.members])
  have hname : Json.member identity.members "name" = some (.string identity.name) :=
    Json.member_of_mem hkeys (by simp [DeviceIdentity.members])
  rw [Json.parse_stringify identity.plain_toJson, DeviceIdentity.toJson]
  simp only
  rw [hid, hname]
  simp only [List.length_eq_zero_iff]
  rw [parseDeviceId_value]

/-! ## The store -/

def readKept (text : Option Utf16) : Option DeviceIdentity := text.bind parseDeviceIdentity

/-- `keptDeviceIdentity` over a store that holds `text`, and what the store holds then. -/
def keptDeviceIdentity (text : Option Utf16) (draw : Draw) : DeviceIdentity × Option Utf16 :=
  match readKept text with
  | some kept => (kept, text)
  | none =>
    let drawn := generateDeviceIdentity draw
    (drawn, some (encodeDeviceIdentity drawn))

def keepDeviceName (text : Option Utf16) (name : Utf16) : Bool × Option Utf16 :=
  match readKept text with
  | some kept => (true, some (encodeDeviceIdentity { kept with name }))
  | none => (false, text)

inductive Call
  | keptDeviceIdentity (draw : Draw)
  | keepDeviceName (name : Utf16)

inductive Returned
  | keptDeviceIdentity (identity : DeviceIdentity)
  | keepDeviceName (name : Utf16) (kept : Bool)
deriving DecidableEq

def perform (text : Option Utf16) : Call → Returned × Option Utf16
  | .keptDeviceIdentity draw =>
    let (identity, text) := keptDeviceIdentity text draw
    (.keptDeviceIdentity identity, text)
  | .keepDeviceName name =>
    let (kept, text) := keepDeviceName text name
    (.keepDeviceName name kept, text)

/-- What the store holds after some calls. -/
def textAfter (text : Option Utf16) (calls : List Call) : Option Utf16 :=
  calls.foldl (fun text call => (perform text call).2) text

/-- The calls with what they returned. -/
def transcript : Option Utf16 → List Call → List Returned
  | _, [] => []
  | text, call :: calls => (perform text call).1 :: transcript (perform text call).2 calls

/-! ## What the registry answers -/

inductive DevicePlatform
  | android
  | ios
  | macos
  | windows
  | linux
  | cli
  | browser
  | other
deriving DecidableEq, Repr

def DevicePlatform.text : DevicePlatform → Utf16
  | .android => "android"
  | .ios => "ios"
  | .macos => "macos"
  | .windows => "windows"
  | .linux => "linux"
  | .cli => "cli"
  | .browser => "browser"
  | .other => "other"

def DEVICE_PLATFORMS : List DevicePlatform :=
  [.android, .ios, .macos, .windows, .linux, .cli, .browser]

def parseDevicePlatform (value : Option Json) : DevicePlatform :=
  match value with
  | some (.string s) => (DEVICE_PLATFORMS.find? (·.text = s)).getD .other
  | _ => .other

structure DeviceView where
  deviceId : DeviceId
  name : Utf16
  platform : DevicePlatform
  appVersion : Utf16
  registeredOn : Utf16
  lastSeenOn : Utf16
  thisDevice : Bool
deriving DecidableEq

def badAnswer : WarrenApiError where
  code := .response
  message := "the device registry answered in an unexpected shape"

def readDeviceView (value : Json) : Except WarrenApiError DeviceView :=
  match value with
  | .object members =>
    match Json.member members "device_id", Json.member members "name",
      Json.member members "app_version", Json.member members "registered_on",
      Json.member members "last_seen_on", Json.member members "this_device" with
    | some (.string deviceId), some (.string name), some (.string appVersion),
      some (.string registeredOn), some (.string lastSeenOn), some (.bool thisDevice) =>
      match parseDeviceId deviceId with
      | .error _ => .error badAnswer
      | .ok deviceId =>
        let platform := parseDevicePlatform (Json.member members "platform")
        .ok { deviceId, name, platform, appVersion, registeredOn, lastSeenOn, thisDevice }
    | _, _, _, _, _, _ => .error badAnswer
  -- An array is an object without these members.
  | _ => .error badAnswer

/-- The answer that describes a device. -/
def DeviceView.members (view : DeviceView) : List (Utf16 × Json) :=
  [("device_id", .string view.deviceId.value), ("name", .string view.name),
    ("platform", .string view.platform.text), ("app_version", .string view.appVersion),
    ("registered_on", .string view.registeredOn), ("last_seen_on", .string view.lastSeenOn),
    ("this_device", .bool view.thisDevice)]

def DeviceView.toJson (view : DeviceView) : Json := .object view.members

theorem parseDevicePlatform_text (platform : DevicePlatform) :
    parseDevicePlatform (some (.string platform.text)) = platform := by
  cases platform <;> decide

/-- Every device may be answered, under every name. -/
theorem readDeviceView_toJson (view : DeviceView) : readDeviceView view.toJson = .ok view := by
  have hkeys : (view.members.map Prod.fst).Nodup := by
    simp only [DeviceView.members, List.map_cons, List.map_nil]
    decide
  have hmember {key : Utf16} {value : Json} (hm : (key, value) ∈ view.members) :
      Json.member view.members key = some value := Json.member_of_mem hkeys hm
  have hid : Json.member view.members "device_id" = some (.string view.deviceId.value) :=
    hmember (by simp [DeviceView.members])
  have hname : Json.member view.members "name" = some (.string view.name) :=
    hmember (by simp [DeviceView.members])
  have hplatform : Json.member view.members "platform" = some (.string view.platform.text) :=
    hmember (by simp [DeviceView.members])
  have hversion : Json.member view.members "app_version" = some (.string view.appVersion) :=
    hmember (by simp [DeviceView.members])
  have hregistered : Json.member view.members "registered_on" = some (.string view.registeredOn) :=
    hmember (by simp [DeviceView.members])
  have hseen : Json.member view.members "last_seen_on" = some (.string view.lastSeenOn) :=
    hmember (by simp [DeviceView.members])
  have hthis : Json.member view.members "this_device" = some (.bool view.thisDevice) :=
    hmember (by simp [DeviceView.members])
  unfold readDeviceView DeviceView.toJson
  simp only
  rw [hid, hname, hplatform, hversion, hregistered, hseen, hthis]
  simp only
  rw [parseDeviceId_value, parseDevicePlatform_text]

/-! ## The store as one of identities -/

/-- A call over a store that holds an identity, or none. -/
def act (held : Option DeviceIdentity) : Call → Returned × Option DeviceIdentity
  | .keptDeviceIdentity draw =>
    let identity := held.getD (generateDeviceIdentity draw)
    (.keptDeviceIdentity identity, some identity)
  | .keepDeviceName name =>
    (.keepDeviceName name held.isSome,
      held.bind fun identity => if name = [] then none else some { identity with name })

def replay : Option DeviceIdentity → List Call → List Returned
  | _, [] => []
  | held, call :: calls => (act held call).1 :: replay (act held call).2 calls

theorem perform_eq_act (text : Option Utf16) (call : Call) :
    (perform text call).1 = (act (readKept text) call).1 ∧
      readKept (perform text call).2 = (act (readKept text) call).2 := by
  cases call with
  | keptDeviceIdentity draw =>
    unfold perform keptDeviceIdentity act
    cases hkept : readKept text with
    | some identity => exact ⟨rfl, hkept⟩
    | none =>
      refine ⟨rfl, ?_⟩
      simp only [readKept, Option.bind_some, Option.getD_none]
      have hname : (generateDeviceIdentity draw).name ≠ [] := deviceNameFrom_ne_nil _ _
      rw [parseDeviceIdentity_encode, if_neg hname]
  | keepDeviceName name =>
    unfold perform keepDeviceName act
    cases hkept : readKept text with
    | some identity =>
      refine ⟨rfl, ?_⟩
      simp only [readKept, Option.bind_some]
      rw [parseDeviceIdentity_encode]
    | none => exact ⟨rfl, hkept⟩

theorem transcript_eq_replay (text : Option Utf16) (calls : List Call) :
    transcript text calls = replay (readKept text) calls := by
  induction calls generalizing text with
  | nil => rfl
  | cons call calls ih =>
    obtain ⟨hreturned, hheld⟩ := perform_eq_act text call
    rw [transcript, replay, ih, hreturned, hheld]

/-! ## Stability -/

/-- Calls that return one identity: every `keptDeviceIdentity` returns the id that the ones before
it returned, and the name last kept or returned. -/
def Stable (deviceId : Option DeviceId) (name : Option Utf16) : List Returned → Prop
  | [] => True
  | .keptDeviceIdentity identity :: log =>
    (∀ expected, deviceId = some expected → identity.deviceId = expected) ∧
      (∀ expected, name = some expected → identity.name = expected) ∧
        Stable (some identity.deviceId) (some identity.name) log
  | .keepDeviceName kept true :: log => Stable deviceId (some kept) log
  | .keepDeviceName _ false :: log => Stable deviceId name log

/-- What the store holds is what the next call is expected to return. -/
def Expected (deviceId : Option DeviceId) (name : Option Utf16) : Option DeviceIdentity → Prop
  | none => deviceId = none ∧ name = none
  | some held => (∀ expected, deviceId = some expected → held.deviceId = expected) ∧
      ∀ expected, name = some expected → held.name = expected

/-- No empty name is kept for an identity that is asked for again. -/
def NeverAskedUnnamed (held : Option DeviceIdentity) : List Call → Prop
  | [] => True
  | call :: calls =>
    (call = .keepDeviceName [] → held.isSome → ∀ draw, .keptDeviceIdentity draw ∉ calls) ∧
      NeverAskedUnnamed (act held call).2 calls

theorem stable_of_not_mem (h : ∀ draw, .keptDeviceIdentity draw ∉ calls) :
    Stable deviceId name (replay held calls) := by
  induction calls generalizing held name with
  | nil => trivial
  | cons call calls ih =>
    have htail : ∀ draw, Call.keptDeviceIdentity draw ∉ calls :=
      fun draw hmem => h draw (List.mem_cons_of_mem _ hmem)
    cases call with
    | keptDeviceIdentity draw => exact absurd (List.mem_cons_self ..) (h draw)
    | keepDeviceName kept => cases held <;> exact ih htail

/-- Nothing is held under an empty name: the next identity is a new one. -/
theorem not_mem_of_stable (h : Stable deviceId (some []) (replay none calls)) (draw : Draw) :
    .keptDeviceIdentity draw ∉ calls := by
  induction calls with
  | nil => exact List.not_mem_nil
  | cons call calls ih =>
    cases call with
    | keptDeviceIdentity draw => exact absurd (h.2.1 [] rfl) (deviceNameFrom_ne_nil _ _)
    | keepDeviceName kept =>
      intro hmem
      obtain hmem | hmem := List.mem_cons.mp hmem
      · cases hmem
      · exact ih h hmem

theorem neverAskedUnnamed_of_not_mem (h : ∀ draw, .keptDeviceIdentity draw ∉ calls) :
    NeverAskedUnnamed held calls := by
  induction calls generalizing held with
  | nil => trivial
  | cons call calls ih =>
    have htail : ∀ draw, Call.keptDeviceIdentity draw ∉ calls :=
      fun draw hmem => h draw (List.mem_cons_of_mem _ hmem)
    exact ⟨fun _ _ => htail, ih htail⟩

theorem stable_replay_iff (h : Expected deviceId name held) :
    Stable deviceId name (replay held calls) ↔ NeverAskedUnnamed held calls := by
  induction calls generalizing deviceId name held with
  | nil => exact Iff.rfl
  | cons call calls ih =>
    cases call with
    | keptDeviceIdentity draw =>
      obtain ⟨identity, hidentity⟩ : ∃ identity, identity =
          held.getD (generateDeviceIdentity draw) :=
        ⟨_, rfl⟩
      have hreturned : (∀ expected, deviceId = some expected → identity.deviceId = expected) ∧
          ∀ expected, name = some expected → identity.name = expected := by
        cases held with
        | none =>
          obtain ⟨rfl, rfl⟩ := h
          constructor <;> (intro _ heq; cases heq)
        | some _ =>
          subst hidentity
          exact h
      have hheld : Expected (some identity.deviceId) (some identity.name) (some identity) :=
        ⟨fun _ => Option.some.inj, fun _ => Option.some.inj⟩
      rw [replay, act, ← hidentity]
      constructor
      · intro hstable
        refine ⟨fun heq => ?_, ?_⟩
        · cases heq
        · rw [act, ← hidentity]
          exact (ih hheld).mp hstable.2.2
      · rintro ⟨-, hnamed⟩
        rw [act, ← hidentity] at hnamed
        exact ⟨hreturned.1, hreturned.2, (ih hheld).mpr hnamed⟩
    | keepDeviceName kept =>
      cases held with
      | none =>
        -- A name without an identity is not kept.
        constructor
        · intro hstable
          exact ⟨fun _ hsome => (by cases hsome), (ih h).mp hstable⟩
        · rintro ⟨-, hnamed⟩
          exact (ih h).mpr hnamed
      | some identity =>
        by_cases hkept : kept = []
        · subst hkept
          constructor
          · intro hstable
            have hnever := not_mem_of_stable hstable
            exact ⟨fun _ _ => hnever, neverAskedUnnamed_of_not_mem hnever⟩
          · rintro ⟨hnever, -⟩
            have htail : Stable deviceId (some []) (replay none calls) :=
              stable_of_not_mem (hnever rfl rfl)
            exact htail
        · have hheld : Expected deviceId (some kept) (some { identity with name := kept }) :=
            ⟨h.1, fun _ => Option.some.inj⟩
          have hact : (act (some identity) (.keepDeviceName kept)).2 =
              some { identity with name := kept } := by
            simp [act, hkept]
          rw [replay, hact]
          constructor
          · intro hstable
            refine ⟨fun heq => ?_, ?_⟩
            · exact absurd (Call.keepDeviceName.inj heq) hkept
            · rw [hact]
              exact (ih hheld).mp hstable
          · rintro ⟨-, hnamed⟩
            rw [hact] at hnamed
            exact (ih hheld).mpr hnamed

theorem neverAskedUnnamed_iff (text : Option Utf16) (calls : List Call) :
    NeverAskedUnnamed (readKept text) calls ↔
      ∀ before after, calls = before ++ .keepDeviceName [] :: after →
        (readKept (textAfter text before)).isSome → ∀ draw, .keptDeviceIdentity draw ∉ after := by
  induction calls generalizing text with
  | nil =>
    refine ⟨fun _ before after heq => ?_, fun _ => trivial⟩
    exact absurd heq.symm (List.append_ne_nil_of_right_ne_nil _ (List.cons_ne_nil _ _))
  | cons call calls ih =>
    have htail := ih (perform text call).2
    rw [(perform_eq_act text call).2] at htail
    constructor
    · rintro ⟨hfirst, hrest⟩ before after heq hsome
      cases before with
      | nil =>
        obtain ⟨rfl, rfl⟩ := List.cons.inj heq
        exact hfirst rfl hsome
      | cons call' before =>
        obtain ⟨rfl, hcalls⟩ := List.cons.inj heq
        exact htail.mp hrest before after hcalls hsome
    · intro h
      refine ⟨?_, htail.mpr fun before after heq => ?_⟩
      · rintro rfl
        exact h [] calls rfl
      · exact h (call :: before) after (congrArg _ heq)

/-- An identity that is asked for is the one asked for before, under the name last kept, exactly
when no empty name is kept for an identity that is asked for later. -/
theorem stable_transcript_iff (text : Option Utf16) (calls : List Call) :
    Stable none none (transcript text calls) ↔
      ∀ before after, calls = before ++ .keepDeviceName [] :: after →
        (readKept (textAfter text before)).isSome → ∀ draw, .keptDeviceIdentity draw ∉ after := by
  rw [transcript_eq_replay, ← neverAskedUnnamed_iff]
  apply stable_replay_iff
  cases readKept text with
  | none => exact ⟨rfl, rfl⟩
  | some identity => constructor <;> (intro _ heq; cases heq)

def firstDraw : Draw := ⟨.zero _, 0, 0⟩

def secondDraw : Draw := ⟨⟨List.replicate 16 1, rfl⟩, 1, 1⟩

/-- The device of the first draw after a rename to the empty name. -/
def unnamedView : DeviceView where
  deviceId := deviceIdFromBytes firstDraw.id
  name := ""
  platform := .browser
  appVersion := "1.0.0"
  registeredOn := "2026-01-01"
  lastSeenOn := "2026-01-02"
  thisDevice := true

theorem not_stable_unnamedView : readDeviceView unnamedView.toJson = .ok unnamedView ∧
    ¬ Stable none none (transcript none
      [.keptDeviceIdentity firstDraw, .keepDeviceName unnamedView.name,
        .keptDeviceIdentity secondDraw]) := by
  refine ⟨readDeviceView_toJson unnamedView, fun h => ?_⟩
  rw [transcript_eq_replay] at h
  have hid : deviceIdFromBytes secondDraw.id = deviceIdFromBytes firstDraw.id := h.2.2.1 _ rfl
  have hvalue := congrArg DeviceId.value hid
  exact absurd hvalue (by decide)

end WarrenSdk.Core.Device
