import WarrenSdk.Core.Edge.FrameForms

/-!
# Frames that are still incomplete

A frame of `/v1` tells its end: its decoder refuses every part of the frame's octets that lacks the
last of them, and says that it is truncated.
-/

namespace WarrenSdk.Core
open Lib Cursor

/-- A `RangeError` whose message begins so. -/
def Truncation (e : Failure) : Prop := ∃ text, e = .range ("truncated" ++ text)

theorem truncation_field (n : Nat) (what : String) :
    Truncation (.range s!"truncated frame: need {n} more bytes for {what}") := by
  refine ⟨" frame: need " ++ (toString n ++ (" more bytes for " ++ what)), ?_⟩
  have hhead : "truncated frame: need " = "truncated" ++ " frame: need " := by decide
  simp only [toString, hhead, String.append_assoc]

theorem truncation_leb128 : Truncation (.range "truncated LEB128 integer") :=
  ⟨" LEB128 integer", by decide⟩

theorem decodeGroups_waits {w y : Bytes} (hleb : IsLeb w) (hshift : shift = 7 * length)
    (hlength : length + w.length ≤ 10) (hy : y <+: w) (hne : y ≠ w) (value : Nat) :
    decodeGroups value shift length y = .error (.range "truncated LEB128 integer") := by
  induction w generalizing y value shift length with
  | nil => exact hleb.elim
  | cons b w ih =>
    cases y with
    | nil => rfl
    | cons c y =>
      obtain ⟨rfl, hyw⟩ := List.cons_prefix_cons.mp hy
      cases w with
      | nil =>
        have hnil := List.prefix_nil.mp hyw
        subst hnil
        exact absurd rfl hne
      | cons d w =>
        obtain ⟨hhigh, htail⟩ := hleb
        simp only [List.length_cons] at hlength
        rw [decodeGroups, if_neg (mt (and_high c).mp (Nat.not_lt.mpr hhigh)), if_neg (by omega)]
        refine ih htail (by omega) (by rw [List.length_cons]; omega) hyw ?_ _
        exact fun heq => hne (congrArg (c :: ·) heq)

theorem takes_leb128 {w : Bytes} (h : IsVarint w) : Takes Truncation takeLeb128 w (ofLeb w) where
  takes rest := takeLeb128_eq_ok.mpr ⟨w, rfl, h, rfl⟩
  waits y hy hne := by
    refine ⟨_, ?_, truncation_leb128⟩
    have hgroups := decodeGroups_waits h.1 rfl (by rw [Nat.zero_add]; exact h.2) hy hne 0
    rw [takeLeb128, decodeLeb128, hgroups]
    rfl

theorem takes_field (x : Bytes) (h : x.length = n) (what : String) :
    Takes Truncation (takeField n what) x x := by
  subst h
  exact takes_slice (truncation_field _ _) x

theorem takes_sized {len field : Bytes} (h : Sizes len field) (what : String) :
    Takes Truncation (takeSized what) (len ++ field) field :=
  (takes_leb128 h.1).bind (takes_field field h.2.symm what)

theorem takes_version (h : version < 256) (unsupported : String) :
    Takes Truncation (takeVersion version unsupported) [UInt8.ofNat version] version := by
  have hback : (UInt8.ofNat version).toNat = version := UInt8.toNat_ofNat_of_lt' h
  have hfield := takes_field [UInt8.ofNat version] rfl "version"
  have hpure : Takes Truncation
      (if (UInt8.ofNat version).toNat = version then pure (UInt8.ofNat version).toNat
        else throw (.range s!"{unsupported} {(UInt8.ofNat version).toNat}") : Cursor Failure Nat)
      [] version := by
    rw [hback, if_pos rfl]
    exact takes_pure version
  exact hfield.bind hpure

/-- The decoder of `/v1` waits for the last octet of a frame. -/
theorem decodeMultihopFrame_waits {w : Wire} (h : w.Valid) {b : Uint8Array} (hb : b.1 <+: w.bytes)
    (hne : b.1 ≠ w.bytes) : ∃ e, decodeMultihopFrame b = .error e ∧ Truncation e := by
  unfold decodeMultihopFrame
  refine Ends.all_waits (x := w.bytes) (a := w.frame) ?_ hb hne
  have hbytes : w.bytes = [UInt8.ofNat WARREN_HPKE_VERSION] ++ (w.exitId ++ (w.epoch ++ (w.seq ++
      (w.encapsulatedKey ++ (w.aeadTag ++ (w.ctLen ++ w.ciphertext ++ [])))))) := by
    simp only [Wire.bytes, Wire.body, List.append_nil, List.singleton_append]
  rw [hbytes]
  refine (takes_version (by decide) _).bind_ends ?_
  refine (takes_field w.exitId h.exitId _).bind_ends ?_
  refine (takes_leb128 h.epoch).bind_ends ?_
  refine (takes_leb128 h.seq).bind_ends ?_
  refine (takes_field w.encapsulatedKey h.encapsulatedKey _).bind_ends ?_
  refine (takes_field w.aeadTag h.aeadTag _).bind_ends ?_
  exact (takes_sized h.ciphertext _).bind_ends (.nil rfl)

end WarrenSdk.Core
