import WarrenSdk.Core.Edge.FrameForms
import WarrenSdk.Core.Edge.PqSeal

/-!
# The slots of received frames

The seals pack an epoch into 32 bits and a number into 64, and the decoders take wider ones. Two
frames have export infos, keys and associated data of their own exactly if their slots differ, which
are the epoch and the number as they are packed.
-/

namespace WarrenSdk.Core
open Lib

namespace Seal

/-- Nothing of `f` is used for `g`, which no session opens if it is a copy of `f` in another
slot. -/
structure Apart (K : Hkdf) (A : Aead) (f g : WarrenMultihopFrame) : Prop where
  exportInfo : composeExportInfo f.epoch f.seq ≠ composeExportInfo g.epoch g.seq
  exportInfoReverse : composeExportInfoReverse f.epoch f.seq ≠
    composeExportInfoReverse g.epoch g.seq
  aad (exitId exitId' : Octets EXIT_ID_LEN) :
    composeAad exitId f.epoch f.seq ≠ composeAad exitId' g.epoch g.seq
  key (secret : Bytes) :
    exportSecret K secret (composeExportInfo f.epoch f.seq) PER_PACKET_KEY_LEN ≠
      exportSecret K secret (composeExportInfo g.epoch g.seq) PER_PACKET_KEY_LEN
  keyReverse (secret : Bytes) :
    exportSecret K secret (composeExportInfoReverse f.epoch f.seq) PER_PACKET_KEY_LEN ≠
      exportSecret K secret (composeExportInfoReverse g.epoch g.seq) PER_PACKET_KEY_LEN
  relabelled (s : WarrenClientSession) (payload : Bytes) :
    g = { f with epoch := g.epoch, seq := g.seq } → s.openResponse K A f = .ok payload →
      ∃ e, s.openResponse K A g = .error e

end Seal

namespace PqSeal

/-- As for `/v1`. -/
structure Apart (K : Hkdf) (A : Aead) (f g : WarrenMultihopFrameV2) : Prop where
  exportInfo : composeExportInfo f.epoch f.seq ≠ composeExportInfo g.epoch g.seq
  exportInfoReverse : composeExportInfoReverse f.epoch f.seq ≠
    composeExportInfoReverse g.epoch g.seq
  aad (exitId exitId' : Octets EXIT_ID_LEN) :
    composeAad exitId f.epoch f.seq ≠ composeAad exitId' g.epoch g.seq
  key (secret : Bytes) : derivePerPacketKey K secret (composeExportInfo f.epoch f.seq) ≠
    derivePerPacketKey K secret (composeExportInfo g.epoch g.seq)
  keyReverse (secret : Bytes) : derivePerPacketKey K secret
    (composeExportInfoReverse f.epoch f.seq) ≠
    derivePerPacketKey K secret (composeExportInfoReverse g.epoch g.seq)
  relabelled (s : WarrenPqClientSession) (payload : Bytes) :
    g = { f with epoch := g.epoch, seq := g.seq } → s.openResponse K A f = .ok payload →
      ∃ e, s.openResponse K A g = .error e

end PqSeal

variable {K : Hkdf} {A : Aead}

theorem exists_error_of_ne_ok {x : Except Failure α} (h : ∀ a, x ≠ .ok a) : ∃ e, x = .error e := by
  cases x with
  | error e => exact ⟨e, rfl⟩
  | ok a => exact absurd rfl (h a)

/-- A ciphertext that opens in one slot opens in no other, with whatever keys. -/
theorem not_openDetached_of_slot_ne (hA : A.Ideal AEAD_TAG_LEN) {exitId : Octets EXIT_ID_LEN}
    {e e' : Rat} {n n' : Int} (hne : slot e n ≠ slot e' n')
    (ho : openDetached A key (slotAad aad exitId e n) ct tag = .ok p) (p' : Bytes) :
    openDetached A key' (slotAad aad exitId e' n') ct tag ≠ .ok p' := by
  intro ho'
  have haad := (hA.decrypt_inj (openDetached_eq_ok.mp ho).2 (openDetached_eq_ok.mp ho').2).2
  exact hne (slotAad_eq_iff.mp haad).2

theorem WarrenClientSession.openResponse_eq_ok {s : WarrenClientSession}
    {frame : WarrenMultihopFrame} : s.openResponse K A frame = .ok payload ↔
      frame.exitId = s.exitId.1 ∧
        openDetached A (exportSecret K s.sender.exporterSecret
          (Seal.composeExportInfoReverse frame.epoch frame.seq) PER_PACKET_KEY_LEN)
          (Seal.composeAad s.exitId frame.epoch frame.seq) frame.ciphertext frame.aeadTag =
            .ok payload := by
  unfold openResponse
  split
  · next hne =>
    constructor
    · intro h
      cases h
    · exact fun h => absurd h.1 hne
  · next heq => exact ⟨fun h => ⟨not_not.mp heq, h⟩, fun h => h.2⟩

theorem Seal.apart_iff (hK : K.Ideal) (hA : A.Ideal AEAD_TAG_LEN) (f g : WarrenMultihopFrame) :
    Seal.Apart K A f g ↔ slot f.epoch f.seq ≠ slot g.epoch g.seq := by
  constructor
  · exact fun h hslot => h.exportInfo (exportInfo_eq_iff.mpr hslot)
  · intro hslot
    have hinfo := mt (@exportInfo_eq_iff WARREN_HPKE_AAD_V1 _ _ _ _).mp hslot
    have hreverse := mt (@exportInfoReverse_eq_iff WARREN_HPKE_AAD_V1 _ _ _ _).mp hslot
    refine
      { exportInfo := hinfo
        exportInfoReverse := hreverse
        aad := fun exitId exitId' h => hslot (slotAad_eq_iff.mp h).2
        key := fun secret h => hinfo ((exportSecret_eq_iff hK).mp h)
        keyReverse := fun secret h => hreverse ((exportSecret_eq_iff hK).mp h)
        relabelled := ?_ }
    intro s payload hg ho
    apply exists_error_of_ne_ok
    intro p hp
    have ho := (WarrenClientSession.openResponse_eq_ok.mp ho).2
    have hp := (WarrenClientSession.openResponse_eq_ok.mp hp).2
    rw [hg] at hp
    exact not_openDetached_of_slot_ne hA hslot ho p hp

theorem PqSeal.apart_iff (hK : K.Ideal) (hA : A.Ideal AEAD_TAG_LEN) (f g : WarrenMultihopFrameV2) :
    PqSeal.Apart K A f g ↔ slot f.epoch f.seq ≠ slot g.epoch g.seq := by
  constructor
  · exact fun h hslot => h.exportInfo (exportInfo_eq_iff.mpr hslot)
  · intro hslot
    have hinfo := mt (@exportInfo_eq_iff WARREN_PQ_HPKE_AAD_V2 _ _ _ _).mp hslot
    have hreverse := mt (@exportInfoReverse_eq_iff WARREN_PQ_HPKE_AAD_V2 _ _ _ _).mp hslot
    refine
      { exportInfo := hinfo
        exportInfoReverse := hreverse
        aad := fun exitId exitId' h => hslot (slotAad_eq_iff.mp h).2
        key := fun secret h => hinfo ((derivePerPacketKey_eq_iff hK).mp h).2
        keyReverse := fun secret h => hreverse ((derivePerPacketKey_eq_iff hK).mp h).2
        relabelled := ?_ }
    intro s payload hg ho
    apply exists_error_of_ne_ok
    intro p hp
    obtain ⟨-, -, _, -, ho⟩ := WarrenPqClientSession.openResponse_eq_ok.mp ho
    obtain ⟨-, -, _, -, hp⟩ := WarrenPqClientSession.openResponse_eq_ok.mp hp
    rw [hg] at hp
    exact not_openDetached_of_slot_ne hA hslot ho p hp

/-- Frames that the decoders take are apart exactly if their slots differ, and the keys of the two
directions always are. -/
theorem apart_iff_slot_ne (K : Hkdf) (A : Aead) (hK : K.Ideal) (hA : A.Ideal AEAD_TAG_LEN) :
    (∀ b b' f g, decodeMultihopFrame b = .ok f → decodeMultihopFrame b' = .ok g →
      (Seal.Apart K A f g ↔ slot f.epoch f.seq ≠ slot g.epoch g.seq)) ∧
    (∀ b b' f g, decodeMultihopFrameV2 b = .ok f → decodeMultihopFrameV2 b' = .ok g →
      (PqSeal.Apart K A f g ↔ slot f.epoch f.seq ≠ slot g.epoch g.seq)) ∧
    ∀ epoch epoch' seq seq' secret,
      Seal.composeExportInfo epoch seq ≠ Seal.composeExportInfoReverse epoch' seq' ∧
      exportSecret K secret (Seal.composeExportInfo epoch seq) PER_PACKET_KEY_LEN ≠
        exportSecret K secret (Seal.composeExportInfoReverse epoch' seq') PER_PACKET_KEY_LEN ∧
      PqSeal.composeExportInfo epoch seq ≠ PqSeal.composeExportInfoReverse epoch' seq' ∧
      PqSeal.derivePerPacketKey K secret (PqSeal.composeExportInfo epoch seq) ≠
        PqSeal.derivePerPacketKey K secret (PqSeal.composeExportInfoReverse epoch' seq') := by
  refine ⟨fun _ _ f g _ _ => Seal.apart_iff hK hA f g,
    fun _ _ f g _ _ => PqSeal.apart_iff hK hA f g, fun epoch epoch' seq seq' secret => ?_⟩
  have hv1 : Seal.composeExportInfo epoch seq ≠ Seal.composeExportInfoReverse epoch' seq' :=
    exportInfo_ne_reverse _ _ _ _ _
  have hv2 : PqSeal.composeExportInfo epoch seq ≠ PqSeal.composeExportInfoReverse epoch' seq' :=
    exportInfo_ne_reverse _ _ _ _ _
  exact ⟨hv1, mt (exportSecret_eq_iff hK).mp hv1, hv2,
    fun h => hv2 ((PqSeal.derivePerPacketKey_eq_iff hK).mp h).2⟩

theorem apart_zeroFrame :
    Seal.Apart recordHkdf (recordAead AEAD_TAG_LEN) (zeroFrame [0]).frame
        (zeroFrame [1]).frame := by
  have hd (epoch : Bytes) (h : IsVarint epoch) (hlt : (zeroFrame epoch).bytes.length < MAX_EXACT) :
      decodeMultihopFrame ⟨(zeroFrame epoch).bytes, hlt⟩ = .ok (zeroFrame epoch).frame :=
    decode_zeroFrame h rfl
  have hslots := (apart_iff_slot_ne _ _ ideal_recordHkdf (ideal_recordAead AEAD_TAG_LEN)).1
  exact (hslots _ _ _ _ (hd [0] (by decide) (by decide)) (hd [1] (by decide) (by decide))).mpr
    (by decide +kernel)

/-- The frames of the epochs 0 and 2 ^ 32 have one export info. -/
theorem not_exportInfo_ne_wrappedEpoch :
    ¬ ∀ b b' f g, decodeMultihopFrame b = .ok f → decodeMultihopFrame b' = .ok g →
      (f.epoch, f.seq) ≠ (g.epoch, g.seq) →
        Seal.composeExportInfo f.epoch f.seq ≠ Seal.composeExportInfo g.epoch g.seq := by
  intro h
  let wrapped : Bytes := [0x80, 0x80, 0x80, 0x80, 0x10]
  have hd : decodeMultihopFrame ⟨(zeroFrame [0]).bytes, by decide⟩ = .ok (zeroFrame [0]).frame :=
    decode_zeroFrame isVarint_zero rfl
  have hd' : decodeMultihopFrame ⟨(zeroFrame wrapped).bytes, by decide⟩ =
      .ok (zeroFrame wrapped).frame := decode_zeroFrame (show IsVarint wrapped by decide) rfl
  refine h _ _ _ _ hd hd' (by decide +kernel) (exportInfo_eq_iff.mpr ?_)
  simp only [Wire.frame, slot_natCast]
  decide

end WarrenSdk.Core
