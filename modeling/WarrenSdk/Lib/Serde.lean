import WarrenSdk.Lib.Json

/-!
# Derived deserializers

How values of Rust are read from a JSON document by deserializers that are derived. A document keeps
the members of its objects as they are written, with names that repeat, and its strings with the
surrogates that stand alone: a name of a derived struct may not repeat, and no such string is text.
Where a deserializer fails is not told.
-/

namespace WarrenSdk.Lib.Serde

abbrev Deserializer (α : Type*) := Json → Option α

variable {α : Type*}

/-- `String` -/
def string : Deserializer String
  | .string s => if s.WellFormed then some (.ofList (Utf16.codePoints s)) else none
  | _ => none

/-- `bool` -/
def bool : Deserializer Bool
  | .bool b => some b
  | _ => none

/-- `Option<T>` -/
def option (de : Deserializer α) : Deserializer (Option α)
  | .null => some none
  | document => (de document).map some

/-- `Vec<T>` -/
def vec (de : Deserializer α) : Deserializer (List α)
  | .array items => items.mapM de
  | _ => none

mutual

/-- Whether all names and strings of a document are text. -/
def isText : Json → Bool
  | .null | .bool _ | .number _ => true
  | .string s => s.WellFormed
  | .array items => areTexts items
  | .object members => haveTexts members

def areTexts : List Json → Bool
  | [] => true
  | item :: items => isText item && areTexts items

def haveTexts : List (Utf16 × Json) → Bool
  | [] => true
  | (name, value) :: members => decide name.WellFormed && isText value && haveTexts members

end

/-- `Value`, of which `f` is kept. -/
def value (f : Json → α) : Deserializer α := fun document =>
  if isText document then some (f document) else none

/-! ## Structs -/

/-- The values under a name. -/
def valuesOf (members : List (Utf16 × Json)) (name : Utf16) : List Json :=
  (members.filter (·.1 = name)).map (·.2)

/-- Whether the names of an object are text, and none that is known repeats. -/
def acceptsNames (known : List Utf16) (members : List (Utf16 × Json)) : Bool :=
  members.all (fun m => m.1.WellFormed) && known.all fun name => (valuesOf members name).length ≤ 1

/-- A field of type `Option<T>`: it may be absent, or `null`. -/
def field (de : Deserializer α) (members : List (Utf16 × Json)) (name : Utf16) :
    Option (Option α) :=
  match valuesOf members name with
  | [] => some none
  | document :: _ => option de document

/-- A field that may be absent, and keeps a `null`. -/
def fieldOrNull (de : Deserializer α) (members : List (Utf16 × Json)) (name : Utf16) :
    Option (Option α) :=
  match valuesOf members name with
  | [] => some none
  | document :: _ => (de document).map some

/-- A field that may be absent, and is `default` then. -/
def fieldOrDefault (de : Deserializer α) (default : α) (members : List (Utf16 × Json))
    (name : Utf16) : Option α :=
  match valuesOf members name with
  | [] => some default
  | document :: _ => de document

/-- A field that must be there. -/
def required (de : Deserializer α) (members : List (Utf16 × Json)) (name : Utf16) : Option α :=
  (valuesOf members name).head?.bind de

theorem acceptsNames_iff {known : List Utf16} {members : List (Utf16 × Json)} :
    acceptsNames known members = true ↔ (∀ m ∈ members, m.1.WellFormed) ∧
      ∀ name ∈ known, (valuesOf members name).length ≤ 1 := by
  simp [acceptsNames]

/-- A struct of fewer fields accepts what one of more does. -/
theorem acceptsNames_of_subset {known known' : List Utf16} (h : known ⊆ known')
    {members : List (Utf16 × Json)} (hm : acceptsNames known' members = true) :
    acceptsNames known members = true := by
  obtain ⟨htext, honce⟩ := acceptsNames_iff.mp hm
  exact acceptsNames_iff.mpr ⟨htext, fun name hname => honce name (h hname)⟩

theorem string_ofString (s : String) : string (.string (.ofString s)) = some s := by
  have hwell : (Utf16.ofString s).WellFormed := Utf16.ofChars_wellFormed _
  have hback : Utf16.codePoints (.ofString s) = s.toList := Utf16.codePoints_ofChars _
  rw [string, if_pos hwell, hback, String.ofList_toList]

theorem vec_map {de : Deserializer α} {f : α → Json} (h : ∀ a, de (f a) = some a) (as : List α) :
    vec de (.array (as.map f)) = some as := by
  induction as with
  | nil => rfl
  | cons a as ih =>
    have hrest : (as.map f).mapM de = some as := ih
    rw [vec, List.map_cons, List.mapM_cons, h, hrest]
    rfl

theorem areTexts_strings (strings : List String) :
    areTexts (strings.map fun s => .string (.ofString s)) = true := by
  induction strings with
  | nil => rfl
  | cons s strings ih =>
    have hwell : (Utf16.ofString s).WellFormed := Utf16.ofChars_wellFormed _
    rw [List.map_cons, areTexts, isText, ih, Bool.and_true]
    exact decide_eq_true hwell

end WarrenSdk.Lib.Serde
