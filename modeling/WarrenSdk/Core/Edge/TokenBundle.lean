import Std.Data.String.ToNat
import WarrenSdk.Core.Edge.TokenManager

/-!
# Loading what was saved

A manager constructed over the bundle of another holds the same tokens.
-/

namespace WarrenSdk.Core
open Lib

variable {E : Encodings}

/-! ## Keys and tokens -/

theorem codePoints_ofString (s : String) : Utf16.codePoints (.ofString s) = s.toList :=
  Utf16.codePoints_ofChars _

namespace TokenManager

theorem epochOfKey_keyOfEpoch (epoch : Nat) : epochOfKey (keyOfEpoch epoch) = some epoch := by
  have hdigits : (toString epoch).toList.all Char.isDigit = true := by
    rw [List.all_eq_true]
    intro c hc
    exact Nat.isDigit_of_mem_toDigits (by decide : 0 < 10) le_rfl (by simpa using hc)
  have hne : (toString epoch).toList ≠ [] := by simp
  simp only [epochOfKey, keyOfEpoch, codePoints_ofString, hdigits, if_true, hne, if_false,
    String.ofList_toList]
  exact Nat.toNat?_repr epoch

theorem loadToken_base64 (token : TokenBytes) :
    loadToken E (.string (E.base64 token.1)) = some token := by
  simp only [loadToken, E.unbase64_base64, token.2, dite_true]

theorem filterMap_loadToken (tokens : List TokenBytes) :
    (tokens.map fun t => Json.string (E.base64 t.1)).filterMap (loadToken E) = tokens := by
  rw [List.filterMap_map]
  have hload : loadToken E ∘ (fun t : TokenBytes => Json.string (E.base64 t.1)) = some :=
    funext loadToken_base64
  rw [hload, List.filterMap_some]

/-! ## The stock -/

/-- The tokens a manager holds for an epoch. -/
def stored (m : TokenManager) (epoch : Nat) : List TokenBytes := (m.store.get epoch).getD []

/-- One member of the saved `epochs`. -/
def epochMember (E : Encodings) (entry : Nat × List TokenBytes) : Utf16 × Json :=
  (keyOfEpoch entry.1, .array (entry.2.map fun t => .string (E.base64 t.1)))

theorem loadEpoch_epochMember (store : OrderedMap Nat (List TokenBytes)) (epoch j : Nat)
    (tokens : List TokenBytes) :
    ((loadEpoch E store (epochMember E (epoch, tokens))).get j).getD [] =
      if j = epoch ∧ tokens ≠ [] then tokens else (store.get j).getD [] := by
  simp only [loadEpoch, epochMember, epochOfKey_keyOfEpoch, filterMap_loadToken]
  cases tokens with
  | nil => simp
  | cons token tokens =>
    rw [if_pos (by simp), OrderedMap.get_set]
    by_cases hj : j = epoch <;> simp [hj]

theorem foldl_loadEpoch {entries : List (Nat × List TokenBytes)}
    (hnodup : (entries.map Prod.fst).Nodup) (store : OrderedMap Nat (List TokenBytes)) (j : Nat) :
    (((entries.map (epochMember E)).foldl (loadEpoch E) store).get j).getD [] =
      let held := ((entries.find? (·.1 = j)).map (·.2)).getD []
      if held = [] then (store.get j).getD [] else held := by
  induction entries generalizing store with
  | nil => rfl
  | cons entry entries ih =>
    obtain ⟨epoch, tokens⟩ := entry
    obtain ⟨hnotin, hnodup⟩ := List.nodup_cons.mp hnodup
    rw [List.map_cons, List.foldl_cons, ih hnodup, loadEpoch_epochMember, List.find?_cons]
    rcases eq_or_ne j epoch with rfl | hj
    · have hrest : entries.find? (fun entry => decide (entry.1 = j)) = none := by
        rw [List.find?_eq_none]
        intro entry hentry h
        exact hnotin (List.mem_map.mpr ⟨entry, hentry, of_decide_eq_true h⟩)
      by_cases htokens : tokens = [] <;> simp [hrest, htokens]
    · simp [hj, hj.symm]

/-- The members of `epochs` that are loaded. -/
def loadedEpochs : Option Json → List (Utf16 × Json)
  | some (.object bundle) =>
    if (Json.member bundle (.ofString "v")).bind Json.nat? = some BUNDLE_VERSION then
      ((Json.member bundle (.ofString "epochs")).map objectEntries).getD []
    else []
  | _ => []

@[simp] theorem store_loadEpochSecs (bundle : List (Utf16 × Json)) (m : TokenManager) :
    (loadEpochSecs bundle m).store = m.store := by
  unfold loadEpochSecs
  split
  · split <;> rfl
  · rfl

theorem store_loadPersisted (raw : Option Json) (m : TokenManager) :
    (loadPersisted E raw m).store = (loadedEpochs raw).foldl (loadEpoch E) m.store := by
  rcases raw with _ | (_ | _ | _ | _ | _ | bundle)
  case some.object =>
    by_cases hv : (Json.member bundle (.ofString "v")).bind Json.nat? = some BUNDLE_VERSION
    · cases he : Json.member bundle (.ofString "epochs") <;>
        simp [loadPersisted, loadedEpochs, hv, he]
    · simp [loadPersisted, loadedEpochs, hv]
  all_goals rfl

theorem loadedEpochs_bundle (m : TokenManager) :
    loadedEpochs (some (m.bundle E)) = m.store.entries.map (epochMember E) := by
  have hv (rest : List (Utf16 × Json)) :
      Json.member ((.ofString "v", .number BUNDLE_VERSION) :: rest) (.ofString "v") =
        some (.number BUNDLE_VERSION) := rfl
  have hepochs (v secs epochs : Json) :
      Json.member [(.ofString "v", v), (.ofString "epochSecs", secs), (.ofString "epochs", epochs)]
        (.ofString "epochs") = some epochs := rfl
  simp only [loadedEpochs, bundle, hv, hepochs, Option.bind_some, Json.nat?_natCast, if_true]
  rfl

/-- Constructing a manager over what another saved brings its tokens back. -/
theorem stored_new_bundle (options : TokenManagerOptions) (m : TokenManager) :
    (TokenManager.new E options (some (m.bundle E))).stored = m.stored := by
  funext epoch
  rw [stored, new, store_loadPersisted, loadedEpochs_bundle, foldl_loadEpoch m.store.nodup]
  simp only [OrderedMap.get_empty, Option.getD_none]
  split
  next hempty => exact hempty.symm
  next => rfl

/-- What a new manager holds, whatever its options. -/
theorem stored_new (options options' : TokenManagerOptions) (raw : Option Json) :
    (TokenManager.new E options raw).stored = (TokenManager.new E options' raw).stored := by
  funext epoch
  rw [stored, stored, new, new, store_loadPersisted, store_loadPersisted]

/-- Loading changes the stock and the epoch length only. -/
theorem loadPersisted_eq (raw : Option Json) (m : TokenManager) :
    ∃ store epochSecs, loadPersisted E raw m = { m with store, epochSecs } := by
  have hsecs (bundle : List (Utf16 × Json)) :
      ∃ epochSecs, loadEpochSecs bundle m = { m with epochSecs } := by
    unfold loadEpochSecs
    split
    · split
      · exact ⟨_, rfl⟩
      · exact ⟨_, rfl⟩
    · exact ⟨_, rfl⟩
  unfold loadPersisted
  split
  next bundle =>
    obtain ⟨epochSecs, hsecs⟩ := hsecs bundle
    simp only [hsecs]
    split
    · split
      · exact ⟨_, _, rfl⟩
      · exact ⟨_, _, rfl⟩
    · exact ⟨_, _, rfl⟩
  · exact ⟨_, _, rfl⟩

/-- What a new manager holds beside the stock. -/
theorem new_eq (options : TokenManagerOptions) (raw : Option Json) :
    ∃ store epochSecs, TokenManager.new E options raw =
      { rotation := options.rotation, blindingKey := options.blindingKey, device := options.device
        store, epochSecs } :=
  loadPersisted_eq raw _

/-- A stock of the epoch 7. -/
def sampleStock (count : Nat) : TokenManager where
  rotation := 0
  blindingKey := none
  device := none
  epochSecs := some 3600
  store := OrderedMap.empty.set 7 (.replicate count ⟨.replicate TOKEN_LEN 1, List.length_replicate⟩)

end TokenManager

end WarrenSdk.Core
