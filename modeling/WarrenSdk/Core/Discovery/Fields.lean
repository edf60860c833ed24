import WarrenSdk.Core.Identity.Ss58
import WarrenSdk.Lib.Hex
import WarrenSdk.Lib.JsonForm
import WarrenSdk.Lib.Number

/-!
# Fields of signed documents (`discovery/verify.ts`, `discovery/multihop.ts`)

What the verifiers of the relay list and of the directory share: the parts of the platform that they
call, and how they read the fields of a document. An absent field is `none`; `fail` makes the error
of a malformed document.
-/

namespace WarrenSdk.Core.Discovery
open Lib

structure Platform where
  /-- `JSON.parse`, `none` where it throws. -/
  parse : Utf16 → Option Json
  /-- `toLowerCase` -/
  lower : Utf16.LowerCase
  hex : Hex.Codec
  /-- Whether `new URL` takes the text. -/
  isUrl : Utf16 → Bool
  /-- Whether `ed25519.ExtendedPoint.fromHex` takes the key. -/
  isPoint : Bytes → Bool
  /-- `ed25519.verify` of a signature, a message and a public key, `none` where it throws. -/
  verify : Bytes → Bytes → Bytes → Option Bool
  base58 : Ss58.Base58
  blake2b : Bytes → Octets 64

/-- Seven days. -/
def MAX_VALIDITY_SECS : Int := 7 * 24 * 60 * 60

/-- The numbers that `asU64` takes: the safe integers that are not negative. -/
abbrev U64 := { n : Nat // n < MAX_EXACT }

section
variable (fail : Utf16 → ε)

/-- The members of an object that has all the required fields, and none but these and the optional
ones. -/
def asObject (v : Option Json) (required optional : List Utf16) (ctx : Utf16) :
    Except ε (List (Utf16 × Json)) :=
  match v with
  | some (.object record) =>
    match record.find? fun m => !required.contains m.1 && !optional.contains m.1 with
    | some (key, _) =>
      .error (fail (("unknown field \"" : Utf16) ++ key ++ ("\" in " : Utf16) ++ ctx))
    | none =>
      match required.find? fun key => (Json.member record key).isNone with
      | some key =>
        .error (fail (("missing field \"" : Utf16) ++ key ++ ("\" in " : Utf16) ++ ctx))
      | none => .ok record
  | _ => .error (fail (ctx ++ (" must be an object" : Utf16)))

def asArray (v : Option Json) (ctx : Utf16) : Except ε (List Json) :=
  match v with
  | some (.array items) => .ok items
  | _ => .error (fail (ctx ++ (" must be an array" : Utf16)))

def asString (v : Option Json) (ctx : Utf16) : Except ε Utf16 :=
  match v with
  | some (.string s) => .ok s
  | _ => .error (fail (ctx ++ (" must be a string" : Utf16)))

def asU64 (v : Option Json) (ctx : Utf16) : Except ε U64 :=
  match v.bind Json.nat? with
  | some n =>
    if h : n < MAX_EXACT then .ok ⟨n, h⟩
    else .error (fail (ctx ++ (" must be a non-negative integer" : Utf16)))
  | none => .error (fail (ctx ++ (" must be a non-negative integer" : Utf16)))

def asBool (v : Option Json) (ctx : Utf16) : Except ε Bool :=
  match v with
  | some (.bool b) => .ok b
  | _ => .error (fail (ctx ++ (" must be a boolean" : Utf16)))

/-- A field that may be absent. -/
def ifPresent (v : Option Json) (read : Option Json → Except ε α) : Except ε (Option α) :=
  match v with
  | some v => some <$> read (some v)
  | none => .ok none

/-- The items of an array, each read with its index. -/
def readAll (read : Json → Nat → Except ε α) (items : List Json) : Except ε (List α) :=
  items.zipIdx.mapM fun x => read x.1 x.2

end

/-! ## Fields that are written -/

def text (s : Utf16) : Option Json := some (.string s)

def number (n : U64) : Option Json := some (.number (n.1 : Nat))

/-! ## Pins -/

/-- Whether a server key is pinned: any is, when no pins are given. -/
def isPinned (lower : Utf16.LowerCase) (pins : Option (List Utf16)) (serverPubkeyHex : Utf16) :
    Bool :=
  match pins with
  | none | some [] => true
  | some pins => pins.any fun p => lower p = lower serverPubkeyHex

variable {fail : Utf16 → ε} {ctx : Utf16}

theorem isPinned_iff {lower : Utf16.LowerCase} {pins : Option (List Utf16)} {server : Utf16} :
    isPinned lower pins server = true ↔
      ∀ p ps, pins = some (p :: ps) → ∃ q ∈ p :: ps, lower q = lower server := by
  unfold isPinned
  split
  · exact iff_of_true rfl fun p ps h => by cases h
  · exact iff_of_true rfl fun p ps h => by cases h
  · next qs hne =>
    rw [List.any_eq_true]
    constructor
    · rintro ⟨q, hq, heq⟩ p ps h
      cases h
      exact ⟨q, hq, of_decide_eq_true heq⟩
    · intro h
      obtain _ | ⟨p, ps⟩ := qs
      · exact absurd rfl hne
      · obtain ⟨q, hq, heq⟩ := h p ps rfl
        exact ⟨q, hq, decide_eq_true heq⟩

theorem mapM_eq_ok {f : α → Except ε β} {xs : List α} {ys : List β} (h : xs.mapM f = .ok ys) :
    List.Forall₂ (fun x y => f x = .ok y) xs ys := by
  induction xs generalizing ys with
  | nil =>
    cases h
    exact .nil
  | cons x xs ih =>
    rw [List.mapM_cons, bind_eq_ok] at h
    obtain ⟨y, hy, h⟩ := h
    obtain ⟨ys', hys, h⟩ := bind_eq_ok.mp h
    cases h
    exact .cons hy (ih hys)

theorem readAll_spec {read : Json → Nat → Except ε α} {items : List Json} {xs : List α}
    (h : readAll read items = .ok xs) :
    List.Forall₂ (fun item x => read item.1 item.2 = .ok x) items.zipIdx xs :=
  mapM_eq_ok h

/-- What holds of each item that is read holds of them all. -/
theorem readAll_map {read : Json → Nat → Except ε α} {items : List Json} {xs : List α}
    (h : readAll read items = .ok xs) {f : Json → β} {g : α → β}
    (heq : ∀ item i x, read item i = .ok x → f item = g x) : items.map f = xs.map g := by
  have hfst : items.map f = items.zipIdx.map fun x => f x.1 := by
    conv_lhs => rw [← List.zipIdx_map_fst 0 items, List.map_map]
    rfl
  rw [hfst]
  have hall := readAll_spec h
  clear h hfst
  generalize items.zipIdx = items at hall
  induction hall with
  | nil => rfl
  | cons hx _ ih => rw [List.map_cons, List.map_cons, heq _ _ _ hx, ih]

theorem asObject_eq_ok {v : Option Json} {required optional : List Utf16}
    {record : List (Utf16 × Json)} (h : asObject fail v required optional ctx = .ok record) :
    v = some (.object record) := by
  unfold asObject at h
  split at h
  · split at h
    · cases h
    · split at h <;> cases h
      rfl
  · cases h

theorem asArray_eq_ok {v : Option Json} {items : List Json} (h : asArray fail v ctx = .ok items) :
    v = some (.array items) := by
  unfold asArray at h
  split at h <;> cases h
  rfl

theorem asString_eq_ok {v : Option Json} {s : Utf16} (h : asString fail v ctx = .ok s) :
    v = some (.string s) := by
  unfold asString at h
  split at h <;> cases h
  rfl

theorem asU64_eq_ok {v : Option Json} {n : U64} (h : asU64 fail v ctx = .ok n) :
    v.bind Json.nat? = some n.1 := by
  unfold asU64 at h
  split at h
  · next m hm =>
    split at h <;> cases h
    exact hm
  · cases h

end WarrenSdk.Core.Discovery
