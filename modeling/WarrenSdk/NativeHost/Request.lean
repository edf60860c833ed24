import WarrenSdk.Lib.Bytes
import WarrenSdk.Lib.Serde
import WarrenSdk.NativeHost.Decode

/-!
# Decoding a frame (`decode_request` in `protocol.rs`)

A payload is tried as a whole request, then as an object with an `id`, and is corrupt when neither
reads. What is no JSON is corrupt, and all else is a request with its id or ignored, unless the `id`
itself or a name cannot be read (`decodeRequest_classified_iff`).
-/

namespace WarrenSdk.NativeHost
open Lib (Bytes Json Utf16)
open Lib.Serde (Deserializer field fieldOrNull required acceptsNames valuesOf isText)

/-- `u8::is_ascii_whitespace` -/
def isAsciiWhitespace (b : UInt8) : Bool :=
  b = 0x20 || b = 0x09 || b = 0x0A || b = 0x0C || b = 0x0D

def isObject (payload : Bytes) : Bool :=
  payload.find? (!isAsciiWhitespace ·) = some 0x7B

/-- What is used of the crates: `serde_json` on texts within its limits, whose documents have a
string that is no Unicode as one with lone surrogates, and the id of a device. -/
structure Crates where
  /-- The document of octets that are JSON. -/
  read : Bytes → Option Json
  deviceId : Deserializer String
  /-- The text of an object, and no other, begins with a brace. -/
  read_isObject : read payload = some document →
    (isObject payload = true ↔ ∃ members, document = .object members)

/-- `Value` as far as it is looked at. -/
def toValue : Json → Value
  | .number q => .number q
  | .string s => .string (.ofList (Utf16.codePoints s))
  | .null | .bool _ | .array _ | .object _ => .other

/-! ## The structs -/

def exitQuery : Deserializer ExitQuery
  | .object members => do
    if !acceptsNames ["exitPubkeyHex", "country", "city"] members then none
    let exitPubkeyHex ← field Lib.Serde.string members "exitPubkeyHex"
    let country ← field Lib.Serde.string members "country"
    let city ← field Lib.Serde.string members "city"
    return { exitPubkeyHex, country, city }
  | .array [exitPubkeyHex, country, city] => do
    let exitPubkeyHex ← Lib.Serde.option Lib.Serde.string exitPubkeyHex
    let country ← Lib.Serde.option Lib.Serde.string country
    let city ← Lib.Serde.option Lib.Serde.string city
    return { exitPubkeyHex, country, city }
  | _ => none

def entryQuery : Deserializer EntryQuery
  | .object members => do
    if !acceptsNames ["country", "city"] members then none
    let country ← field Lib.Serde.string members "country"
    let city ← field Lib.Serde.string members "city"
    return { country, city }
  | .array [country, city] => do
    let country ← Lib.Serde.option Lib.Serde.string country
    let city ← Lib.Serde.option Lib.Serde.string city
    return { country, city }
  | _ => none

section
variable (C : Crates)

def deviceHandoff : Deserializer DeviceHandoff
  | .object members => do
    if !acceptsNames ["id", "name", "appVersion"] members then none
    let id ← required C.deviceId members "id"
    let name ← required Lib.Serde.string members "name"
    let appVersion ← required Lib.Serde.string members "appVersion"
    return { id, name, appVersion }
  | .array [id, name, appVersion] => do
    let id ← C.deviceId id
    let name ← Lib.Serde.string name
    let appVersion ← Lib.Serde.string appVersion
    return { id, name, appVersion }
  | _ => none

def RAW_REQUEST_FIELDS : List Utf16 :=
  ["id", "type", "protocol", "channel", "mnemonic", "selector", "entrySelector", "httpProxy",
    "daita", "device"]

/-- Only objects get here. -/
def rawRequest : Deserializer RawRequest
  | .object members => do
    if !acceptsNames RAW_REQUEST_FIELDS members then none
    let id ← field (Lib.Serde.value toValue) members "id"
    let kind ← field Lib.Serde.string members "type"
    let protocol ← field (Lib.Serde.value toValue) members "protocol"
    let channel ← fieldOrNull (Lib.Serde.value toValue) members "channel"
    let mnemonic ← field Lib.Serde.string members "mnemonic"
    let selector ← field exitQuery members "selector"
    let entrySelector ← field entryQuery members "entrySelector"
    let httpProxy ← field Lib.Serde.bool members "httpProxy"
    let daita ← field Lib.Serde.bool members "daita"
    let device ← field (deviceHandoff C) members "device"
    return {
      id, kind, protocol, channel, mnemonic, selector, entrySelector, httpProxy, daita, device }
  | _ => none

/-- `IdOnly` by its one field. Only objects get here. -/
def idOnly : Deserializer (Option Value)
  | .object members => do
    if !acceptsNames ["id"] members then none
    field (Lib.Serde.value toValue) members "id"
  | _ => none

/-- `serde_json::from_slice` -/
def fromSlice {α : Type} (de : Deserializer α) (payload : Bytes) : Option α :=
  (C.read payload).bind de

def decodeRequest (payload : Bytes) : Decoded :=
  if !isObject payload then
    match fromSlice C some payload with
    | some _ => .ignored
    | none => .corrupt
  else
    match fromSlice C (rawRequest C) payload with
    | some raw => raw.decode
    | none =>
      match fromSlice C idOnly payload with
      | some (some id) =>
        if id.isNumber then .request { id, request := .refused "malformed request" } else .ignored
      | some none => .ignored
      | none => .corrupt

end

/-! ## What a payload is classified as -/

/-- What a payload with a document is to be decoded to. Of an `id` that repeats any value may
count. -/
inductive Classified : Option Json → Decoded → Prop
  | corrupt : Classified none .corrupt
  | ignored (h : ∀ members, document = .object members → valuesOf members "id" = [] ∨
      ∃ id ∈ valuesOf members "id", (toValue id).isNumber = false) :
    Classified (some document) .ignored
  | request (h : .number q ∈ valuesOf members "id") :
    Classified (some (.object members)) (.request { id := .number q, request })

/-- The names of an object are text, and its `id` is there once at most and text throughout. -/
structure IdReadable (members : List (Utf16 × Json)) : Prop where
  names : ∀ m ∈ members, m.1.WellFormed
  once : (valuesOf members "id").length ≤ 1
  text : ∀ id ∈ valuesOf members "id", isText id = true

/-! ## Reading the id -/

section
variable {C : Crates} {payload : Bytes} {members : List (Utf16 × Json)} {id : Option Value}

/-- What an `id` that is there is read as. -/
def idOf : Json → Option Value
  | .null => none
  | document => some (toValue document)

/-- What is decoded with an id that was read: only a number is one. -/
def answer (id : Option Value) (request : Request) : Decoded :=
  match id.filter Value.isNumber with
  | some id => .request { id, request }
  | none => .ignored

theorem option_value {document : Json} : Lib.Serde.option (Lib.Serde.value toValue) document =
    if isText document then some (idOf document) else none := by
  cases document with
  | null => rfl
  | bool _ | number _ => rfl
  | string _ | array _ | object _ =>
    simp only [Lib.Serde.option, Lib.Serde.value, idOf]
    split <;> rfl

theorem idOnly_eq (members : List (Utf16 × Json)) : idOnly (.object members) =
    if acceptsNames ["id"] members then field (Lib.Serde.value toValue) members "id" else none := by
  rw [idOnly]
  cases acceptsNames ["id"] members <;> rfl

/-- What reads as a whole request reads by its id alone, as the same id. -/
theorem idOnly_of_rawRequest {raw : RawRequest} (h : rawRequest C (.object members) = some raw) :
    idOnly (.object members) = some raw.id := by
  rw [rawRequest] at h
  cases hnames : acceptsNames RAW_REQUEST_FIELDS members with
  | false => simp [hnames] at h
  | true =>
    have hsub : [("id" : Utf16)] ⊆ RAW_REQUEST_FIELDS :=
      List.cons_subset.mpr ⟨List.mem_cons_self, List.nil_subset _⟩
    simp only [hnames, Bool.not_true, Bool.false_eq_true, if_false] at h
    obtain ⟨id, hid, h⟩ := Option.bind_eq_some_iff.mp h
    iterate 9 obtain ⟨_, -, h⟩ := Option.bind_eq_some_iff.mp h
    cases h
    rw [idOnly_eq, if_pos (Lib.Serde.acceptsNames_of_subset hsub hnames)]
    exact hid

/-- The id can be read exactly of the objects that say so. -/
@[simp] theorem idOnly_isSome_iff :
    (idOnly (.object members)).isSome = true ↔ IdReadable members := by
  have haccepts : acceptsNames ["id"] members = true ↔
      (∀ m ∈ members, m.1.WellFormed) ∧ (valuesOf members "id").length ≤ 1 := by
    simp [Lib.Serde.acceptsNames_iff]
  rw [idOnly_eq]
  constructor
  · intro h
    split at h
    · next hnames =>
      obtain ⟨htext, honce⟩ := haccepts.mp hnames
      refine ⟨htext, honce, fun id hid => ?_⟩
      rw [field] at h
      split at h
      · next hnone => rw [hnone] at hid; cases hid
      · next document rest hvalues =>
        rw [hvalues] at honce hid
        obtain rfl := List.length_eq_zero_iff.mp (Nat.le_zero.mp (Nat.le_of_succ_le_succ honce))
        cases List.mem_singleton.mp hid
        rw [option_value] at h
        split at h
        · assumption
        · cases h
    · cases h
  · rintro ⟨htext, honce, hid⟩
    rw [if_pos (haccepts.mpr ⟨htext, honce⟩), field]
    split
    · rfl
    · next document rest hvalues =>
      rw [option_value, if_pos (hid document (by rw [hvalues]; exact List.mem_cons_self))]
      rfl

/-- An id that was read is one of its values, or there is none. -/
theorem idOnly_values (h : idOnly (.object members) = some id) :
    (id = none ∧ valuesOf members "id" = []) ∨
      ∃ document ∈ valuesOf members "id", id = idOf document := by
  rw [idOnly_eq] at h
  split at h
  · rw [field] at h
    split at h
    · next hnone => exact .inl ⟨(Option.some.inj h).symm, hnone⟩
    · next document rest hvalues =>
      rw [option_value] at h
      split at h
      · refine .inr ⟨document, ?_, (Option.some.inj h).symm⟩
        rw [hvalues]
        exact List.mem_cons_self
      · cases h
  · cases h

theorem classified_answer (h : idOnly (.object members) = some id) (request : Request) :
    Classified (some (.object members)) (answer id request) := by
  rcases idOnly_values h with ⟨rfl, hnone⟩ | ⟨document, hmem, rfl⟩
  · refine .ignored fun members' heq => ?_
    cases heq
    exact .inl hnone
  · cases document with
    | number q => exact .request hmem
    | null | bool _ | string _ | array _ | object _ =>
      refine .ignored fun members' heq => ?_
      cases heq
      exact .inr ⟨_, hmem, rfl⟩

/-! ## Payloads -/

theorem decodeRequest_of_corrupt (h : C.read payload = none) :
    decodeRequest C payload = .corrupt := by
  have hslice {α : Type} (de : Deserializer α) : fromSlice C de payload = none := by
    rw [fromSlice, h, Option.bind_none]
  simp [decodeRequest, hslice]

theorem decodeRequest_of_not_object (h : C.read payload = some document)
    (hobject : ∀ members, document ≠ .object members) : decodeRequest C payload = .ignored := by
  have hfirst : isObject payload = false := by
    rw [← Bool.not_eq_true, C.read_isObject h]
    rintro ⟨members, rfl⟩
    exact hobject members rfl
  simp [decodeRequest, hfirst, fromSlice, h]

/-- Of an object: what its id makes of it when that can be read, else it is corrupt. -/
theorem decodeRequest_object (h : C.read payload = some (.object members)) :
    (∃ id request, idOnly (.object members) = some id ∧
      decodeRequest C payload = answer id request) ∨
    idOnly (.object members) = none ∧ decodeRequest C payload = .corrupt := by
  have hfirst : isObject payload = true := (C.read_isObject h).mpr ⟨members, rfl⟩
  have hslice {α : Type} (de : Deserializer α) : fromSlice C de payload = de (.object members) := by
    rw [fromSlice, h, Option.bind_some]
  simp only [decodeRequest, hfirst, hslice, Bool.not_true, Bool.false_eq_true, if_false]
  cases hraw : rawRequest C (.object members) with
  | some raw => exact .inl ⟨raw.id, raw.toRequest, idOnly_of_rawRequest hraw, rfl⟩
  | none =>
    cases hid : idOnly (.object members) with
    | none => exact .inr ⟨rfl, rfl⟩
    | some id =>
      refine .inl ⟨id, .refused "malformed request", rfl, ?_⟩
      cases id with
      | none => rfl
      | some id =>
        simp only [answer, Option.filter_some]
        split <;> rfl

/-- Every payload is classified by its document, but for objects whose names or `id` cannot be
read. -/
theorem decodeRequest_classified_iff (C : Crates) (payload : Bytes) :
    Classified (C.read payload) (decodeRequest C payload) ↔
      ∀ members, C.read payload = some (.object members) → IdReadable members := by
  cases hread : C.read payload with
  | none =>
    rw [decodeRequest_of_corrupt hread]
    exact iff_of_true .corrupt fun members h => by cases h
  | some document =>
    by_cases hobject : ∃ members, document = .object members
    · obtain ⟨members, rfl⟩ := hobject
      have hsome : (∀ members', some (Json.object members) = some (.object members') →
          IdReadable members') ↔ (idOnly (.object members)).isSome = true := by
        rw [idOnly_isSome_iff]
        constructor
        · exact fun h => h members rfl
        · rintro h _ heq
          cases heq
          exact h
      rw [hsome]
      rcases decodeRequest_object hread with ⟨id, request, hid, hdecoded⟩ | ⟨hid, hdecoded⟩
      · rw [hdecoded, hid]
        exact iff_of_true (classified_answer hid request) rfl
      · rw [hdecoded, hid]
        refine iff_of_false (fun h => ?_) (by simp)
        cases h
    · rw [decodeRequest_of_not_object hread fun members heq => hobject ⟨members, heq⟩]
      refine iff_of_true (.ignored fun members heq => absurd ⟨members, heq⟩ hobject) ?_
      intro members heq
      exact absurd ⟨members, Option.some.inj heq⟩ hobject

end

/-! ## A payload with two ids -/

def twoIds : Bytes := Utf16.utf8 "\x7b\"id\":1,\"id\":2\x7d"

/-- The crates as far as one payload goes. -/
def twoIdsCrates : Crates where
  read payload :=
    if payload = twoIds then some (.object [("id", .number 1), ("id", .number 2)]) else none
  deviceId := Lib.Serde.string
  read_isObject h := by
    split at h
    · next heq =>
      cases h
      rw [heq]
      exact iff_of_true (by decide +kernel) ⟨_, rfl⟩
    · cases h

/-- An object is taken for a corrupt stream. -/
theorem decodeRequest_twoIds :
    twoIdsCrates.read twoIds = some (.object [("id", .number 1), ("id", .number 2)]) ∧
      decodeRequest twoIdsCrates twoIds = .corrupt ∧
      ¬ Classified (twoIdsCrates.read twoIds) (decodeRequest twoIdsCrates twoIds) := by
  have hread : twoIdsCrates.read twoIds =
      some (.object [("id", .number 1), ("id", .number 2)]) := by
    simp [twoIdsCrates]
  have hcorrupt : decodeRequest twoIdsCrates twoIds = .corrupt := by decide +kernel
  refine ⟨hread, hcorrupt, fun h => ?_⟩
  rw [hread, hcorrupt] at h
  cases h

end WarrenSdk.NativeHost
