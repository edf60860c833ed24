import Mathlib.Data.List.DropRight
import WarrenSdk.Lib.JsonLayout
import WarrenSdk.Lib.Serde
import WarrenSdk.Lib.Utf8
import WarrenSdk.NativeHost.Session

/-!
# The extensions that may call (`ids.rs`)

The ids that are baked for a channel, and those recorded at install time. Whatever a record holds,
only ids that are well formed are taken from it; a caller is named on the command line.
-/

namespace WarrenSdk.NativeHost
open Lib

structure BakedIds where
  chromium : List String
  gecko : List String

def bakedIds : Channel → BakedIds
  | .beta => ⟨["dgkleicjbkfinjhhhmalipaepnlchfib"], ["vpn-beta@warrenbrowse.com"]⟩
  | .prod => ⟨["icngiamijikflhcilcgfpeipelhomldk"], ["vpn@warrenbrowse.com"]⟩

def isChromiumId (id : String) : Bool :=
  id.toList.length = 32 && id.toList.all fun c => 'a' ≤ c && c ≤ 'p'

def isHexDigit (c : Char) : Bool := c.isDigit || 'a' ≤ c && c ≤ 'f' || 'A' ≤ c && c ≤ 'F'

/-- What is between braces. -/
def braced? : List Char → Option (List Char)
  | '{' :: cs => if cs.getLast? = some '}' then some cs.dropLast else none
  | _ => none

def isBracedUuid (inner : List Char) : Bool :=
  inner.length = 36 && inner.zipIdx.all fun (c, i) =>
    ([8, 13, 18, 23].contains i == (c == '-')) && (c == '-' || isHexDigit c)

/-- `str::split_once` -/
def splitOnce (sep : Char) (cs : List Char) : Option (List Char × List Char) :=
  match cs.dropWhile (· ≠ sep) with
  | [] => none
  | _ :: rest => some (cs.takeWhile (· ≠ sep), rest)

def isGeckoId (id : String) : Bool :=
  match braced? id.toList with
  | some inner => isBracedUuid inner
  | none =>
    match splitOnce '@' id.toList with
    | none => false
    | some (name, domain) =>
      (name ≠ [] && name.all fun c => c.isAlphanum || ['.', '_', '+', '-'].contains c) &&
        (domain ≠ [] && domain.all fun c => c.isAlphanum || ['.', '-'].contains c)

/-! ## The record -/

structure ExtraIds where
  extensionIds : List String := []
  geckoIds : List String := []
deriving DecidableEq

/-- `to_vec_pretty` -/
def toVecPretty (j : Json) : Bytes := Utf16.utf8 (Json.pretty j)

/-- What is used of the reader of `serde_json`, whose documents have a string that is no Unicode as
one with lone surrogates: a document of texts, without a name that repeats, is read back. -/
structure SerdeJson where
  fromSlice : Bytes → Option Json
  fromSlice_toVecPretty : Json.Plain j → Serde.isText j = true → fromSlice (toVecPretty j) = some j

/-- A reader of texts without repeated names. -/
def sampleSerdeJson : SerdeJson where
  fromSlice bytes := Json.parse (Utf8.decode bytes)
  fromSlice_toVecPretty {j} h _ := by
    have hwell : Utf16.toWellFormed (Json.pretty j) = Json.pretty j :=
      Json.prettyFrom_wellFormed h 0
    rw [toVecPretty, Utf8.decode_utf8, hwell, Json.parse_pretty h]

namespace ExtraIds

def FILE_NAME : String := "warren-host.json"

def strings (ids : List String) : Json := .array (ids.map fun id => .string (.ofString id))

/-- The derived serializer. -/
def toJson (ids : ExtraIds) : Json :=
  .object [("extensionIds", strings ids.extensionIds), ("geckoIds", strings ids.geckoIds)]

/-- The derived deserializer. -/
def ofJson : Serde.Deserializer ExtraIds
  | .object members => do
    if !Serde.acceptsNames ["extensionIds", "geckoIds"] members then none
    let extensionIds ← Serde.fieldOrDefault (Serde.vec Serde.string) [] members "extensionIds"
    let geckoIds ← Serde.fieldOrDefault (Serde.vec Serde.string) [] members "geckoIds"
    return { extensionIds, geckoIds }
  | .array [] => some {}
  | .array [extensionIds] => do
    return { extensionIds := ← Serde.vec Serde.string extensionIds }
  | .array [extensionIds, geckoIds] => do
    let extensionIds ← Serde.vec Serde.string extensionIds
    let geckoIds ← Serde.vec Serde.string geckoIds
    return { extensionIds, geckoIds }
  | _ => none

/-- `load`, of what was read of the file. -/
def load (S : SerdeJson) (bytes : Option Bytes) : ExtraIds :=
  match (bytes.bind S.fromSlice).bind ofJson with
  | none => {}
  | some record => {
      extensionIds := record.extensionIds.filter isChromiumId
      geckoIds := record.geckoIds.filter isGeckoId }

/-- The ids of a list that another does not have yet, put behind it. -/
def mergedIds (ids : List String) : List String → List String
  | [] => ids
  | id :: more => mergedIds (if ids.contains id then ids else ids ++ [id]) more

def merged (self other : ExtraIds) : ExtraIds where
  extensionIds := mergedIds self.extensionIds other.extensionIds
  geckoIds := mergedIds self.geckoIds other.geckoIds

end ExtraIds

def BakedIds.toExtra (baked : BakedIds) : ExtraIds where
  extensionIds := baked.chromium
  geckoIds := baked.gecko

/-! ## Callers -/

inductive Caller
  | chromium (id : String)
  | firefox (id : String)
deriving DecidableEq

def stripPrefix? (start text : List Char) : Option (List Char) :=
  if start <+: text then some (text.drop start.length) else none

def ORIGIN_START : String := "chrome-extension://"

def callerFromArgs (args : List String) : Option Caller :=
  match args.findSome? fun a => stripPrefix? ORIGIN_START.toList a.toList with
  | some origin => some (.chromium (.ofList (origin.rdropWhile (· = '/'))))
  | none =>
    match args with
    | manifest :: id :: _ =>
      if ".json".toList <:+ manifest.toList.map Char.toLower then some (.firefox id) else none
    | _ => none

structure Allowlist where
  chromium : List String
  gecko : List String
deriving DecidableEq

namespace Allowlist

def new (channel : Channel) (extra : ExtraIds) : Allowlist :=
  let own := (bakedIds channel).toExtra.merged extra
  ⟨own.extensionIds, own.geckoIds⟩

def admits (allow : Allowlist) : Caller → Bool
  | .chromium id => allow.chromium.contains id
  | .firefox id => allow.gecko.contains id

/-- The origin of an extension. -/
def origin (id : String) : String := ORIGIN_START ++ id ++ "/"

def chromiumOrigins (allow : Allowlist) : List String := allow.chromium.map origin

end Allowlist

/-! ## Merging -/

namespace ExtraIds

/-- All ids are well formed. -/
structure Valid (ids : ExtraIds) : Prop where
  extensionIds : ∀ id ∈ ids.extensionIds, isChromiumId id = true
  geckoIds : ∀ id ∈ ids.geckoIds, isGeckoId id = true

@[simp] theorem mem_mergedIds {ids more : List String} {id : String} :
    id ∈ mergedIds ids more ↔ id ∈ ids ∨ id ∈ more := by
  induction more generalizing ids with
  | nil => simp [mergedIds]
  | cons next more ih =>
    rw [mergedIds, ih, List.mem_cons]
    split
    · next hin =>
      have hin : next ∈ ids := List.contains_iff_mem.mp hin
      constructor
      · exact Or.imp_right .inr
      · rintro (h | rfl | h)
        · exact .inl h
        · exact .inl hin
        · exact .inr h
    · rw [List.mem_append, List.mem_singleton, or_assoc]

theorem mergedIds_of_subset {ids more : List String} (h : more ⊆ ids) :
    mergedIds ids more = ids := by
  induction more with
  | nil => rfl
  | cons next more ih =>
    have hin : ids.contains next = true := List.contains_iff_mem.mpr (h List.mem_cons_self)
    rw [mergedIds, if_pos hin, ih fun _ hid => h (List.mem_cons_of_mem _ hid)]

/-- What is merged again adds nothing. -/
theorem merged_merged (ids more : ExtraIds) : (ids.merged more).merged more = ids.merged more := by
  have hagain (ids more : List String) : mergedIds (mergedIds ids more) more = mergedIds ids more :=
    mergedIds_of_subset fun _ hid => mem_mergedIds.mpr (.inr hid)
  exact congrArg₂ ExtraIds.mk (hagain _ _) (hagain _ _)

/-- The callers that the ids are of. -/
def names (ids : ExtraIds) : Caller → Prop
  | .chromium id => id ∈ ids.extensionIds
  | .firefox id => id ∈ ids.geckoIds

@[simp] theorem names_merged {ids more : ExtraIds} {caller : Caller} :
    (ids.merged more).names caller ↔ ids.names caller ∨ more.names caller := by
  cases caller with
  | chromium | firefox => exact mem_mergedIds

theorem Valid.merged {ids more : ExtraIds} (h : ids.Valid) (h' : more.Valid) :
    (ids.merged more).Valid where
  extensionIds _ hid := (mem_mergedIds.mp hid).elim (h.extensionIds _) (h'.extensionIds _)
  geckoIds _ hid := (mem_mergedIds.mp hid).elim (h.geckoIds _) (h'.geckoIds _)

theorem Valid.empty : ({} : ExtraIds).Valid := ⟨nofun, nofun⟩

/-- Whatever a record holds, only well-formed ids are taken from it. -/
theorem valid_load (S : SerdeJson) (bytes : Option Bytes) : (load S bytes).Valid := by
  unfold load
  split
  · exact .empty
  · exact ⟨fun _ hid => (List.mem_filter.mp hid).2, fun _ hid => (List.mem_filter.mp hid).2⟩

/-! ## The record is read back -/

theorem plain_strings (ids : List String) : Json.Plain (strings ids) := by
  refine .array fun item hitem => ?_
  obtain ⟨id, -, rfl⟩ := List.mem_map.mp hitem
  exact .string _

theorem plain_toJson (ids : ExtraIds) : Json.Plain ids.toJson := by
  have hkeys : ([.ofString "extensionIds", .ofString "geckoIds"] : List Utf16).Nodup := by decide
  refine .object hkeys ?_
  simp only [List.forall_mem_cons]
  exact ⟨plain_strings _, plain_strings _, nofun⟩

theorem isText_toJson (ids : ExtraIds) : Serde.isText ids.toJson = true := by
  simp only [toJson, strings, Serde.isText, Serde.haveTexts, Serde.areTexts_strings]
  decide

theorem ofJson_toJson (ids : ExtraIds) : ofJson ids.toJson = some ids := by
  have hnames (a b : Json) : Serde.acceptsNames ["extensionIds", "geckoIds"]
      [("extensionIds", a), ("geckoIds", b)] = true := rfl
  have hvec (ids : List String) : Serde.vec Serde.string (strings ids) = some ids :=
    Serde.vec_map Serde.string_ofString ids
  have hfirst (a b : Json) : Serde.valuesOf [("extensionIds", a), ("geckoIds", b)] "extensionIds" =
      [a] := rfl
  have hsecond (a b : Json) : Serde.valuesOf [("extensionIds", a), ("geckoIds", b)] "geckoIds" =
      [b] := rfl
  simp only [toJson, ofJson, hnames, Serde.fieldOrDefault, hfirst, hsecond, hvec]
  rfl

/-- A record of well-formed ids is read back as it was written. -/
theorem load_toVecPretty (S : SerdeJson) {ids : ExtraIds} (h : ids.Valid) :
    load S (some (toVecPretty ids.toJson)) = ids := by
  have hread : S.fromSlice (toVecPretty ids.toJson) = some ids.toJson :=
    S.fromSlice_toVecPretty ids.plain_toJson ids.isText_toJson
  rw [load, Option.bind_some, hread, Option.bind_some, ofJson_toJson]
  simp only
  rw [List.filter_eq_self.mpr h.extensionIds, List.filter_eq_self.mpr h.geckoIds]

end ExtraIds

theorem valid_bakedIds (channel : Channel) : (bakedIds channel).toExtra.Valid := by
  cases channel with
  | beta | prod => exact ⟨by decide, by decide⟩

theorem admits_new {channel : Channel} {extra : ExtraIds} {caller : Caller} :
    (Allowlist.new channel extra).admits caller = true ↔
      (bakedIds channel).toExtra.names caller ∨ extra.names caller := by
  rw [← ExtraIds.names_merged]
  cases caller with
  | chromium | firefox => exact List.contains_iff_mem

/-! ## Who is named -/

@[simp] theorem stripPrefix?_append (start text : List Char) :
    stripPrefix? start (start ++ text) = some text := by
  rw [stripPrefix?, if_pos (List.prefix_append ..), List.drop_left]

theorem toList_origin (id : String) :
    (Allowlist.origin id).toList = ORIGIN_START.toList ++ (id.toList ++ ['/']) := by
  have hslash : "/".toList = ['/'] := rfl
  rw [Allowlist.origin, String.toList_append, String.toList_append, List.append_assoc, hslash]

/-- A well-formed id does not end in a slash. -/
theorem rdropWhile_of_isChromiumId {id : String} (h : isChromiumId id = true) :
    (id.toList ++ ['/']).rdropWhile (· = '/') = id.toList := by
  rw [List.rdropWhile_concat_pos _ _ _ (by decide), List.rdropWhile_eq_self_iff]
  intro hne hslash
  simp only [isChromiumId, Bool.and_eq_true, List.all_eq_true] at h
  have hlast := h.2 _ (List.getLast_mem hne)
  rw [of_decide_eq_true hslash] at hlast
  exact absurd hlast (by decide)

/-- A launch for an extension names it, whatever else stands on the command line. -/
theorem callerFromArgs_origin {id : String} (h : isChromiumId id = true) (more : List String) :
    callerFromArgs (Allowlist.origin id :: more) = some (.chromium id) := by
  unfold callerFromArgs
  rw [List.findSome?_cons, toList_origin, stripPrefix?_append]
  simp only
  rw [rdropWhile_of_isChromiumId h, String.ofList_toList]

/-- An argument that is no origin. -/
def NoOrigin (a : String) : Prop := ¬ ORIGIN_START.toList <+: a.toList

theorem findSome?_of_noOrigin {args : List String} (h : ∀ a ∈ args, NoOrigin a) :
    (args.findSome? fun a => stripPrefix? ORIGIN_START.toList a.toList) = none := by
  rw [List.findSome?_eq_none_iff]
  intro a ha
  exact if_neg (h a ha)

theorem callerFromArgs_firefox {manifest id : String} {more : List String}
    (h : ∀ a ∈ manifest :: id :: more, NoOrigin a)
    (hmanifest : ".json".toList <:+ manifest.toList.map Char.toLower) :
    callerFromArgs (manifest :: id :: more) = some (.firefox id) := by
  unfold callerFromArgs
  rw [findSome?_of_noOrigin h]
  exact if_pos hmanifest

end WarrenSdk.NativeHost
