import WarrenSdk.Lib.Bytes

/-!
# Streams that are read in pieces

A reader is asked for some octets and hands over as many of them as it likes, none only where the
stream has ended. Reading on until enough are there gives what the stream begins with, whatever the
pieces (`Delivers.fill`).
-/

namespace WarrenSdk.Lib

/-- A reader, which fails or gives at most as many octets as it is asked for. -/
structure Reader (σ : Type u) (ε : Type v) where
  read : σ → (capacity : Nat) → Except ε ({ bs : Bytes // bs.length ≤ capacity } × σ)

namespace Reader

variable {σ : Type u} {ε : Type v}

/-- Reads until `need` octets are there or the stream ends. -/
def fill (R : Reader σ ε) (need : Nat) (s : σ) : Except ε (Bytes × σ) :=
  if need = 0 then .ok ([], s)
  else
    match R.read s need with
    | .error e => .error e
    | .ok (bytes, s) =>
      if bytes.1 = [] then .ok ([], s)
      else
        match fill R (need - bytes.1.length) s with
        | .error e => .error e
        | .ok (more, s) => .ok (bytes.1 ++ more, s)
termination_by need
decreasing_by
  have hpos := List.length_pos_iff.mpr ‹¬ bytes.1 = []›
  omega

/-- The reader never fails, and hands over `content` from the front on. -/
structure Delivers (R : Reader σ ε) (content : σ → Bytes) : Prop where
  read : ∀ s capacity, ∃ bytes s', R.read s capacity = .ok (bytes, s') ∧
    content s = bytes.1 ++ content s' ∧ (0 < capacity → content s ≠ [] → bytes.1 ≠ [])

theorem Delivers.fill {R : Reader σ ε} {content : σ → Bytes} (h : R.Delivers content) (need : Nat)
    (s : σ) : ∃ s', R.fill need s = .ok ((content s).take need, s') ∧
      content s' = (content s).drop need := by
  induction need using Nat.strong_induction_on generalizing s with
  | h need ih =>
    unfold Reader.fill
    split
    · next hzero =>
      subst hzero
      exact ⟨s, rfl, rfl⟩
    · next hne =>
      obtain ⟨bytes, s', hread, hcontent, hprogress⟩ := h.read s need
      rw [hread]
      dsimp only
      split
      · next hnil =>
        have hend : content s = [] := by
          by_contra hsome
          exact hprogress (by omega) hsome hnil
        rw [hnil, hend] at hcontent
        exact ⟨s', by rw [hend, List.take_nil], by rw [hend, List.drop_nil]; exact hcontent.symm⟩
      · next hsome =>
        have hpos := List.length_pos_iff.mpr hsome
        have hle := bytes.2
        obtain ⟨t, hfill, hrest⟩ := ih (need - bytes.1.length) (by omega) s'
        rw [hfill]
        refine ⟨t, ?_, ?_⟩
        · rw [hcontent, List.take_append, List.take_of_length_le hle]
        · rw [hrest, hcontent, List.drop_append, List.drop_of_length_le hle, List.nil_append]

end Reader

/-- The rest of a stream and the sizes of the pieces it is handed over in, as long as there are any;
no piece is empty. -/
def piecesReader : Reader (Bytes × List Nat) ε where
  read s capacity := .ok
    (⟨s.1.take (min capacity (s.2.headD 0 + 1)), by rw [List.length_take]; omega⟩,
      (s.1.drop (min capacity (s.2.headD 0 + 1)), s.2.tail))

theorem piecesReader_delivers : (piecesReader (ε := ε)).Delivers Prod.fst where
  read s capacity := by
    refine ⟨_, _, rfl, (List.take_append_drop ..).symm, fun hpos hne hnil => ?_⟩
    have hlength := congrArg List.length hnil
    have hsome := List.length_pos_iff.mpr hne
    rw [List.length_take, List.length_nil] at hlength
    omega

end WarrenSdk.Lib
