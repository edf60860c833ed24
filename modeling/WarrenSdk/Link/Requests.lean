import WarrenSdk.Extension.Messages
import WarrenSdk.Lib.SerdeFields
import WarrenSdk.NativeHost.Request

/-!
# What the helper reads of the extension's requests

The requests of `protocol.ts` as JSON, through `decode_request` of `protocol.rs`: the helper reads
every field as the extension wrote it. What it may refuse is the device of a `connect`, and then it
refuses that `connect` under its id.
-/

namespace WarrenSdk.Link
open Lib Extension
open NativeHost (Crates RawRequest decodeRequest)

def exitQuery (q : ExtensionExitQuery) : NativeHost.ExitQuery where
  exitPubkeyHex := q.exitPubkeyHex
  country := q.country
  city := q.city

def entryQuery (q : ExtensionEntryQuery) : NativeHost.EntryQuery where
  country := q.country
  city := q.city

/-- What the helper reads of a request. -/
inductive Renders : HostRequest → NativeHost.Request → Prop
  | hello (protocol : Nat) (channel : ProductChannel) :
    Renders (.hello protocol channel)
      (.hello (some (.number protocol)) (some (.string channel.asStr)))
  | status : Renders .status .status
  | connect (mnemonic : String) (selector : Option ExtensionExitQuery)
      (entrySelector : Option ExtensionEntryQuery) (httpProxy daita : Option Bool)
      (device : Option ExtensionDevice) (handoff : Option NativeHost.DeviceHandoff) :
    Renders (.connect mnemonic selector entrySelector httpProxy daita device)
      (.connect
        { mnemonic
          selector := selector.map exitQuery
          entrySelector := entrySelector.map entryQuery
          httpProxy
          daita
          device := handoff })
  | refused (mnemonic : String) (selector : Option ExtensionExitQuery)
      (entrySelector : Option ExtensionEntryQuery) (httpProxy daita : Option Bool)
      (device : ExtensionDevice) (reason : String) :
    Renders (.connect mnemonic selector entrySelector httpProxy daita (some device))
      (.refused reason)
  | disconnect : Renders .disconnect .disconnect
  | exits : Renders .exits .exits
  | account (mnemonic : String) : Renders (.account mnemonic) (.account mnemonic)

variable {C : Crates} {payload : Bytes} {id : Nat} {body : HostRequest}

/-! ## The parts of a request -/

theorem exitQuery_toJson (q : ExtensionExitQuery) :
    Serde.option NativeHost.exitQuery q.toJson = some (some (exitQuery q)) := by
  have hk : Json.HasKeys q.fields ["exitPubkeyHex", "country", "city"] := rfl
  have hn : ["exitPubkeyHex", "country", "city"].Nodup := by decide
  have hread {key : Utf16} {x : Option String} (h : (key, x.map .text) ∈ q.fields) :
      Serde.field Serde.string (Serde.membersOf q.fields) key = some x :=
    Serde.field_text hk hn h
  show (NativeHost.exitQuery (.object (Serde.membersOf q.fields))).map some = _
  rw [NativeHost.exitQuery, Serde.acceptsNames_membersOf hk hn,
    hread (.head _), hread (.tail _ (.head _)), hread (.tail _ (.tail _ (.head _)))]
  rfl

theorem entryQuery_toJson (q : ExtensionEntryQuery) :
    Serde.option NativeHost.entryQuery q.toJson = some (some (entryQuery q)) := by
  have hk : Json.HasKeys q.fields ["country", "city"] := rfl
  have hn : ["country", "city"].Nodup := by decide
  have hread {key : Utf16} {x : Option String} (h : (key, x.map .text) ∈ q.fields) :
      Serde.field Serde.string (Serde.membersOf q.fields) key = some x :=
    Serde.field_text hk hn h
  show (NativeHost.entryQuery (.object (Serde.membersOf q.fields))).map some = _
  rw [NativeHost.entryQuery, Serde.acceptsNames_membersOf hk hn,
    hread (.head _), hread (.tail _ (.head _))]
  rfl

/-! ## A request -/

/-- The names in a request. -/
def keys : HostRequest → List String
  | .hello .. => ["id", "type", "protocol", "channel"]
  | .connect .. =>
    ["id", "type", "mnemonic", "selector", "entrySelector", "httpProxy", "daita", "device"]
  | .account .. => ["id", "type", "mnemonic"]
  | .status | .disconnect | .exits => ["id", "type"]

theorem hasKeys_message (id : Nat) (body : HostRequest) :
    Json.HasKeys (body.message id) (keys body) := by
  cases body <;> rfl

theorem nodup_keys (body : HostRequest) : (keys body).Nodup := by
  cases body <;> simp [keys]

/-- A request is JSON that is read as it is written. -/
theorem plain_toJson (id : Nat) (body : HostRequest) : Json.Plain (body.toJson id) := by
  apply Json.plain_ofFields (nodup_keys body) (hasKeys_message id body)
  have hnumber (n : Nat) : Json.Plain (.number n) := by
    have h := Json.Plain.number (n : Int)
    rwa [Int.cast_natCast] at h
  have htext (s : String) : Json.Plain (.text s) := .string _
  have hexit (q : ExtensionExitQuery) : Json.Plain q.toJson := by
    have hk : Json.HasKeys q.fields ["exitPubkeyHex", "country", "city"] := rfl
    apply Json.plain_ofFields (by decide) hk
    exact .cons (Json.plain_map htext) (.cons (Json.plain_map htext)
      (.cons (Json.plain_map htext) .nil))
  have hentry (q : ExtensionEntryQuery) : Json.Plain q.toJson := by
    have hk : Json.HasKeys q.fields ["country", "city"] := rfl
    apply Json.plain_ofFields (by decide) hk
    exact .cons (Json.plain_map htext) (.cons (Json.plain_map htext) .nil)
  have hdevice (d : ExtensionDevice) : Json.Plain d.toJson := by
    have hk : Json.HasKeys [
        ("id", some (.text d.id)),
        ("name", some (.text d.name)),
        ("appVersion", some (.text d.appVersion))] ["id", "name", "appVersion"] := rfl
    apply Json.plain_ofFields (by decide) hk
    exact .cons (Json.plain_some (htext _)) (.cons (Json.plain_some (htext _))
      (.cons (Json.plain_some (htext _)) .nil))
  refine .cons (Json.plain_some (hnumber id)) (.cons (Json.plain_some (htext _)) ?_)
  cases body with
  | hello protocol channel =>
    exact .cons (Json.plain_some (hnumber _)) (.cons (Json.plain_some (htext _)) .nil)
  | connect mnemonic selector entrySelector httpProxy daita device =>
    refine .cons (Json.plain_some (htext _)) (.cons (Json.plain_map hexit) ?_)
    refine .cons (Json.plain_map hentry) (.cons (Json.plain_map .bool) ?_)
    exact .cons (Json.plain_map .bool) (.cons (Json.plain_map hdevice) .nil)
  | account mnemonic => exact .cons (Json.plain_some (htext _)) .nil
  | status | disconnect | exits => exact .nil

theorem not_mem_message {key : String} (h : key ∉ keys body) :
    Utf16.ofString key ∉ (body.message id).map Prod.fst := by
  rw [hasKeys_message id body]
  intro hmem
  obtain ⟨key', hkey', heq⟩ := List.mem_map.mp hmem
  exact h (Utf16.ofString_inj.mp heq ▸ hkey')

section
variable {value : Option Json} {α : Type} {de : Serde.Deserializer α}

theorem field_message {key : Utf16} (h : (key, value) ∈ body.message id) :
    Serde.field de (Serde.membersOf (body.message id)) key =
      value.elim (some none) (Serde.option de) :=
  Serde.field_membersOf (hasKeys_message id body) (nodup_keys body) h

theorem field_message_map {key : Utf16} {x : Option β} {f : β → Json} {g : β → α}
    (hf : ∀ b, Serde.option de (f b) = some (some (g b))) (h : (key, x.map f) ∈ body.message id) :
    Serde.field de (Serde.membersOf (body.message id)) key = some (x.map g) :=
  Serde.field_map (hasKeys_message id body) (nodup_keys body) hf h

theorem field_message_text {key : Utf16} {x : Option String}
    (h : (key, x.map .text) ∈ body.message id) :
    Serde.field Serde.string (Serde.membersOf (body.message id)) key = some x :=
  Serde.field_text (hasKeys_message id body) (nodup_keys body) h

theorem field_message_bool {key : Utf16} {x : Option Bool}
    (h : (key, x.map .bool) ∈ body.message id) :
    Serde.field Serde.bool (Serde.membersOf (body.message id)) key = some x :=
  Serde.field_bool (hasKeys_message id body) (nodup_keys body) h

theorem field_message_absent {key : String} (h : key ∉ keys body) :
    Serde.field de (Serde.membersOf (body.message id)) key = some none :=
  Serde.field_absent (not_mem_message h)

end

theorem option_value_text (s : String) : Serde.option (Serde.value NativeHost.toValue) (.text s) =
    some (some (.string s)) := by
  have hwell : (Utf16.ofString s).WellFormed := Utf16.ofChars_wellFormed _
  have htext : Serde.isText (.text s) = true := decide_eq_true hwell
  have hback : Utf16.codePoints (.ofString s) = s.toList := Utf16.codePoints_ofChars _
  have hvalue : NativeHost.toValue (.text s) = .string s := by
    rw [Json.text, NativeHost.toValue, hback, String.ofList_toList]
  rw [NativeHost.option_value, if_pos htext, NativeHost.idOf, hvalue]
  exact fun h => by cases h

theorem fieldOrNull_message_absent {α : Type} {de : Serde.Deserializer α} {key : String}
    (h : key ∉ keys body) :
    Serde.fieldOrNull de (Serde.membersOf (body.message id)) key = some none :=
  Serde.fieldOrNull_absent (not_mem_message h)

/-- The fields of a request as the helper reads them, with what it makes of the device. -/
def rawOf (id : Nat) (body : HostRequest) (handoff : Option NativeHost.DeviceHandoff) :
    RawRequest :=
  let raw : RawRequest := { id := some (.number id), kind := some body.type }
  match body with
  | .hello protocol channel =>
    { raw with protocol := some (.number protocol), channel := some (.string channel.asStr) }
  | .connect mnemonic selector entrySelector httpProxy daita _ =>
    { raw with
      mnemonic := some mnemonic
      selector := selector.map exitQuery
      entrySelector := entrySelector.map entryQuery
      httpProxy
      daita
      device := handoff }
  | .account mnemonic => { raw with mnemonic := some mnemonic }
  | .status | .disconnect | .exits => raw

/-- What the helper makes of the device, if it can read it. -/
def handoffOf (C : Crates) : HostRequest → Option (Option NativeHost.DeviceHandoff)
  | .connect _ _ _ _ _ (some device) => (NativeHost.deviceHandoff C device.toJson).map some
  | _ => some none

/-- Every field is read as it was written, but for the device. -/
theorem rawRequest_toJson (C : Crates) (id : Nat) (body : HostRequest) :
    NativeHost.rawRequest C (body.toJson id) = (handoffOf C body).map (rawOf id body) := by
  have hnames := Serde.acceptsNames_membersOf (hasKeys_message id body) (nodup_keys body)
    NativeHost.RAW_REQUEST_FIELDS
  show NativeHost.rawRequest C (.object (Serde.membersOf (body.message id))) = _
  rw [NativeHost.rawRequest, hnames, field_message (.head _),
    field_message_text (x := some body.type) (.tail _ (.head _))]
  cases body with
  | status | disconnect | exits =>
    iterate 7 rw [field_message_absent (by simp [keys])]
    rw [fieldOrNull_message_absent (by simp [keys])]
    rfl
  | account mnemonic =>
    rw [field_message_text (x := some mnemonic) (.tail _ (.tail _ (.head _)))]
    iterate 6 rw [field_message_absent (by simp [keys])]
    rw [fieldOrNull_message_absent (by simp [keys])]
    rfl
  | hello protocol channel =>
    have hchannel : Serde.fieldOrNull (Serde.value NativeHost.toValue)
        (Serde.membersOf ((HostRequest.hello protocol channel).message id)) "channel" =
          some (some (.string channel.asStr)) := by
      rw [Serde.fieldOrNull_membersOf (hasKeys_message id _) (nodup_keys _)
        (.tail _ (.tail _ (.tail _ (.head _))))]
      exact option_value_text _
    rw [hchannel, field_message (.tail _ (.tail _ (.head _)))]
    iterate 6 rw [field_message_absent (by simp [keys])]
    rfl
  | connect mnemonic selector entrySelector httpProxy daita device =>
    rw [field_message_absent (by simp [keys]), fieldOrNull_message_absent (by simp [keys]),
      field_message_text (x := some mnemonic) (.tail _ (.tail _ (.head _))),
      field_message_map exitQuery_toJson (x := selector) (.tail _ (.tail _ (.tail _ (.head _)))),
      field_message_map entryQuery_toJson (x := entrySelector)
        (.tail _ (.tail _ (.tail _ (.tail _ (.head _))))),
      field_message_bool (x := httpProxy)
        (.tail _ (.tail _ (.tail _ (.tail _ (.tail _ (.head _)))))),
      field_message_bool (x := daita)
        (.tail _ (.tail _ (.tail _ (.tail _ (.tail _ (.tail _ (.head _))))))),
      field_message (.tail _ (.tail _ (.tail _ (.tail _ (.tail _ (.tail _ (.tail _ (.head _))))))))]
    cases device with
    | none => rfl
    | some device =>
      show _ = ((NativeHost.deviceHandoff C device.toJson).map some).map _
      have hoption : Serde.option (NativeHost.deviceHandoff C) device.toJson =
          (NativeHost.deviceHandoff C device.toJson).map some := rfl
      simp only [Option.map_some, Option.elim_some, hoption]
      cases NativeHost.deviceHandoff C device.toJson <;> rfl

theorem idOnly_toJson (id : Nat) (body : HostRequest) :
    NativeHost.idOnly (body.toJson id) = some (some (.number id)) := by
  show NativeHost.idOnly (.object (Serde.membersOf (body.message id))) = _
  rw [NativeHost.idOnly_eq,
    if_pos (Serde.acceptsNames_membersOf (hasKeys_message id body) (nodup_keys body) _),
    field_message (.head _)]
  rfl

theorem decode_rawOf (id : Nat) (body : HostRequest) (handoff : Option NativeHost.DeviceHandoff) :
    (rawOf id body handoff).decode =
      .request { id := .number id, request := (rawOf id body handoff).toRequest } := by
  cases body <;> rfl

theorem renders_rawOf (h : handoffOf C body = some handoff) :
    Renders body (rawOf id body handoff).toRequest := by
  cases body with
  | hello protocol channel => exact .hello protocol channel
  | status => exact .status
  | disconnect => exact .disconnect
  | exits => exact .exits
  | account mnemonic => exact .account mnemonic
  | connect mnemonic selector entrySelector httpProxy daita device =>
    cases device with
    | none =>
      cases h
      exact .connect mnemonic selector entrySelector httpProxy daita none none
    | some device =>
      show Renders _ (if handoff.any (!·.isComplete) then _ else _)
      split
      · exact .refused ..
      · exact .connect mnemonic selector entrySelector httpProxy daita (some device) handoff

/-- The helper takes every request of the extension's under its id, as it was written. -/
theorem decodeRequest_toJson (h : C.read payload = some (body.toJson id)) :
    ∃ request, decodeRequest C payload = .request { id := .number id, request } ∧
      Renders body request := by
  have hfirst : NativeHost.isObject payload = true := (C.read_isObject h).mpr ⟨_, rfl⟩
  have hslice {α : Type} (de : Serde.Deserializer α) :
      NativeHost.fromSlice C de payload = de (body.toJson id) := by
    rw [NativeHost.fromSlice, h, Option.bind_some]
  rw [decodeRequest, hfirst, hslice, hslice, hslice, rawRequest_toJson, idOnly_toJson]
  cases hhandoff : handoffOf C body with
  | some handoff =>
    exact ⟨_, decode_rawOf id body handoff, renders_rawOf hhandoff⟩
  | none =>
    -- Only a device can make a request one that cannot be read.
    refine ⟨.refused "malformed request", rfl, ?_⟩
    unfold handoffOf at hhandoff
    split at hhandoff
    · exact .refused ..
    · cases hhandoff

end WarrenSdk.Link
