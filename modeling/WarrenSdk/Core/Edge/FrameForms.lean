import WarrenSdk.Core.Edge.Frame

/-!
# The forms of a frame

What an encoder makes of a frame is the frame's canonical form, which the decoder of the same
version takes back, if that version's frames may be so long, and the other decoder never takes. The
decoders take other forms of the same frame as well.
-/

namespace WarrenSdk.Core
open Lib

/-! ## Encoding -/

/-- The canonical parts of a frame of the epoch `e` and the number `n`. -/
def WarrenMultihopFrame.wire (f : WarrenMultihopFrame) (e n : Nat) : Wire where
  exitId := f.exitId
  epoch := toLeb e
  seq := toLeb n
  encapsulatedKey := f.encapsulatedKey
  aeadTag := f.aeadTag
  ctLen := toLeb f.ciphertext.length
  ciphertext := f.ciphertext

def WarrenMultihopFrameV2.wire (f : WarrenMultihopFrameV2) (e n : Nat) : WireV2 where
  exitId := f.exitId
  epoch := toLeb e
  seq := toLeb n
  encapsulatedKey := f.encapsulatedKey
  pqCtLen := toLeb f.pqCt.length
  pqCt := f.pqCt
  aeadTag := f.aeadTag
  ctLen := toLeb f.ciphertext.length
  ciphertext := f.ciphertext

@[simp] theorem newUint8Array_eq_ok {bytes : Bytes} {b : Uint8Array} :
    newUint8Array bytes = .ok b ↔ b.1 = bytes := by
  unfold newUint8Array
  split
  · next h =>
    constructor
    · intro he
      cases he
      rfl
    · rintro rfl
      rfl
  · next h =>
    constructor
    · intro he
      cases he
    · rintro rfl
      exact absurd b.2 h

theorem encodeMultihopFrame_eq_ok {f : WarrenMultihopFrame} {b : Uint8Array} :
    encodeMultihopFrame f = .ok b ↔ f.exitId.length = EXIT_ID_LEN ∧
      f.encapsulatedKey.length = ENCAPSULATED_KEY_LEN ∧ f.aeadTag.length = AEAD_TAG_LEN ∧
        ∃ e n : Nat, f.epoch = e ∧ f.seq = n ∧
            b.1 = UInt8.ofNat f.version :: (f.wire e n).body := by
  simp only [encodeMultihopFrame, bind_eq_ok, expectLen_eq_ok, encodeLeb128Number_eq_ok,
    encodeLeb128_eq_ok, newUint8Array_eq_ok]
  constructor
  · rintro ⟨-, hexit, -, hkey, -, htag, _, ⟨e, he, rfl⟩, _, ⟨n, hn, rfl⟩, _, ⟨len, hlen, rfl⟩, hb⟩
    obtain rfl := Int.ofNat_inj.mp hlen
    exact ⟨hexit, hkey, htag, e, n, he, hn, hb⟩
  · rintro ⟨hexit, hkey, htag, e, n, he, hn, hb⟩
    exact ⟨(), hexit, (), hkey, (), htag, _, ⟨e, he, rfl⟩, _, ⟨n, hn, rfl⟩, _, ⟨_, rfl, rfl⟩, hb⟩

theorem encodeMultihopFrameV2_eq_ok {f : WarrenMultihopFrameV2} {b : Uint8Array} :
    encodeMultihopFrameV2 f = .ok b ↔ f.exitId.length = EXIT_ID_LEN ∧
      f.encapsulatedKey.length = ENCAPSULATED_KEY_LEN ∧ f.aeadTag.length = AEAD_TAG_LEN ∧
        ∃ e n : Nat, f.epoch = e ∧ f.seq = n ∧
            b.1 = UInt8.ofNat f.version :: (f.wire e n).body := by
  simp only [encodeMultihopFrameV2, bind_eq_ok, expectLen_eq_ok, encodeLeb128Number_eq_ok,
    encodeLeb128_eq_ok, newUint8Array_eq_ok]
  constructor
  · rintro ⟨-, hexit, -, hkey, -, htag, _, ⟨e, he, rfl⟩, _, ⟨n, hn, rfl⟩, _, ⟨pq, hpq, rfl⟩, _,
      ⟨len, hlen, rfl⟩, hb⟩
    obtain rfl := Int.ofNat_inj.mp hlen
    obtain rfl := Int.ofNat_inj.mp hpq
    exact ⟨hexit, hkey, htag, e, n, he, hn, hb⟩
  · rintro ⟨hexit, hkey, htag, e, n, he, hn, hb⟩
    exact ⟨(), hexit, (), hkey, (), htag, _, ⟨e, he, rfl⟩, _, ⟨n, hn, rfl⟩, _, ⟨_, rfl, rfl⟩, _,
      ⟨_, rfl, rfl⟩, hb⟩

/-! ## The canonical form -/

theorem isVarint_toLeb (h : n < 2 ^ 64) : IsVarint (toLeb n) := by
  have hlt : n < 128 ^ (9 + 1) := Nat.lt_trans h (by decide)
  exact ⟨isLeb_toLeb n, length_toLeb_le hlt⟩

/-- A field that fits an array is sized by the shortest form of its length. -/
theorem sizes_toLeb {field : Bytes} (h : field.length < MAX_EXACT) :
    Sizes (toLeb field.length) field := by
  refine ⟨isVarint_toLeb (Nat.lt_trans h (by decide)), ?_⟩
  rw [ofLeb_toLeb, toNumber_of_lt h]

/-- A field is as long as its length says. -/
theorem Sizes.ofLeb_eq {len field : Bytes} (h : Sizes len field) (hlt : field.length < MAX_EXACT) :
    ofLeb len = field.length := by
  have heq := toNumber_eq_of_lt (n := ofLeb len) (by rw [h.2]; exact hlt)
  rw [← heq, h.2]

theorem Wire.ciphertext_lt {w : Wire} (h : w.bytes.length < MAX_EXACT) :
    w.ciphertext.length < MAX_EXACT := by
  simp only [Wire.bytes, Wire.body, List.length_cons, List.length_append] at h
  omega

theorem WireV2.lengths_lt {w : WireV2} (h : w.bytes.length < MAX_EXACT) :
    w.pqCt.length < MAX_EXACT ∧ w.ciphertext.length < MAX_EXACT := by
  simp only [WireV2.bytes, WireV2.body, List.length_cons, List.length_append] at h
  omega

theorem epoch_lt {q : Rat} {e : Nat} (he : q = e) (h : q < 2 ^ 32) : e < 2 ^ 32 := by
  subst he
  exact_mod_cast h

theorem seq_lt {i : Int} {n : Nat} (hn : i = n) (h : i < 2 ^ 64) : n < 2 ^ 64 := by
  subst hn
  exact_mod_cast h

theorem decodeMultihopFrame_encode {f : WarrenMultihopFrame} {b : Uint8Array}
    (hv : f.version = WARREN_HPKE_VERSION) (h : encodeMultihopFrame f = .ok b)
    (hepoch : f.epoch < 2 ^ 32) (hseq : f.seq < 2 ^ 64) : decodeMultihopFrame b = .ok f := by
  obtain ⟨hexit, hkey, htag, e, n, he, hn, hb⟩ := encodeMultihopFrame_eq_ok.mp h
  have hbytes : (f.wire e n).bytes = b.1 := by
    rw [hb, hv]
    rfl
  have he32 := epoch_lt he hepoch
  have hct : f.ciphertext.length < MAX_EXACT := Wire.ciphertext_lt (w := f.wire e n) (hbytes ▸ b.2)
  refine decodeMultihopFrame_eq_ok.mpr ⟨f.wire e n, ?_, hbytes, ?_⟩
  · exact
      { exitId := hexit
        epoch := isVarint_toLeb (Nat.lt_trans he32 (by decide))
        seq := isVarint_toLeb (seq_lt hn hseq)
        encapsulatedKey := hkey
        aeadTag := htag
        ciphertext := sizes_toLeb hct }
  · have hexact : toNumber e = e := toNumber_of_lt (Nat.lt_trans he32 (by decide))
    simp only [Wire.frame, WarrenMultihopFrame.wire, ofLeb_toLeb, hexact, ← he, ← hn, ← hv]

theorem decodeMultihopFrameV2_encode {f : WarrenMultihopFrameV2} {b : Uint8Array}
    (hv : f.version = WARREN_HPKE_VERSION_V2) (h : encodeMultihopFrameV2 f = .ok b)
    (hepoch : f.epoch < 2 ^ 32) (hseq : f.seq < 2 ^ 64) (hlen : b.1.length ≤ MAX_FRAME_SIZE) :
    decodeMultihopFrameV2 b = .ok f := by
  obtain ⟨hexit, hkey, htag, e, n, he, hn, hb⟩ := encodeMultihopFrameV2_eq_ok.mp h
  have hbytes : (f.wire e n).bytes = b.1 := by
    rw [hb, hv]
    rfl
  have he32 := epoch_lt he hepoch
  obtain ⟨hpq, hct⟩ := WireV2.lengths_lt (w := f.wire e n) (hbytes ▸ b.2)
  refine decodeMultihopFrameV2_eq_ok.mpr ⟨hlen, f.wire e n, ?_, hbytes, ?_⟩
  · exact
      { exitId := hexit
        epoch := isVarint_toLeb (Nat.lt_trans he32 (by decide))
        seq := isVarint_toLeb (seq_lt hn hseq)
        encapsulatedKey := hkey
        pqCt := sizes_toLeb hpq
        aeadTag := htag
        ciphertext := sizes_toLeb hct }
  · have hexact : toNumber e = e := toNumber_of_lt (Nat.lt_trans he32 (by decide))
    simp only [WireV2.frame, WarrenMultihopFrameV2.wire, ofLeb_toLeb, hexact, ← he, ← hn, ← hv]

theorem decodeMultihopFrame_version {b : Uint8Array} (h : decodeMultihopFrame b = .ok f) :
    b.1.head? = some (UInt8.ofNat WARREN_HPKE_VERSION) := by
  obtain ⟨w, -, hw, -⟩ := decodeMultihopFrame_eq_ok.mp h
  exact congrArg List.head? hw.symm

theorem decodeMultihopFrameV2_version {b : Uint8Array} (h : decodeMultihopFrameV2 b = .ok f) :
    b.1.head? = some (UInt8.ofNat WARREN_HPKE_VERSION_V2) := by
  obtain ⟨-, w, -, hw, -⟩ := decodeMultihopFrameV2_eq_ok.mp h
  exact congrArg List.head? hw.symm

theorem version_ne : some (UInt8.ofNat WARREN_HPKE_VERSION) ≠
    some (UInt8.ofNat WARREN_HPKE_VERSION_V2) := by
  decide

/-- A decoder takes back what the encoder of its version made, but for frames of `/v2` that are too
long, and takes nothing that the other encoder made. -/
theorem decode_encode :
    (∀ f b, f.version = WARREN_HPKE_VERSION → encodeMultihopFrame f = .ok b → f.epoch < 2 ^ 32 →
      f.seq < 2 ^ 64 → decodeMultihopFrame b = .ok f ∧ ∀ g, decodeMultihopFrameV2 b ≠ .ok g) ∧
    (∀ f b, f.version = WARREN_HPKE_VERSION_V2 → encodeMultihopFrameV2 f = .ok b →
      f.epoch < 2 ^ 32 →
      f.seq < 2 ^ 64 → (decodeMultihopFrameV2 b = .ok f ↔ b.1.length ≤ MAX_FRAME_SIZE) ∧
        ∀ g, decodeMultihopFrame b ≠ .ok g) := by
  constructor
  · intro f b hv h hepoch hseq
    have hd := decodeMultihopFrame_encode hv h hepoch hseq
    refine ⟨hd, fun g hg => ?_⟩
    exact version_ne ((decodeMultihopFrame_version hd).symm.trans
      (decodeMultihopFrameV2_version hg))
  · intro f b hv h hepoch hseq
    have hhead : b.1.head? = some (UInt8.ofNat WARREN_HPKE_VERSION_V2) := by
      obtain ⟨-, -, -, e, n, -, -, hb⟩ := encodeMultihopFrameV2_eq_ok.mp h
      rw [hb, hv]
      rfl
    refine ⟨⟨fun hd => (decodeMultihopFrameV2_eq_ok.mp hd).1, ?_⟩, fun g hg => ?_⟩
    · exact decodeMultihopFrameV2_encode hv h hepoch hseq
    · exact version_ne ((decodeMultihopFrame_version hg).symm.trans hhead)

def sampleFrame : WarrenMultihopFrame where
  version := WARREN_HPKE_VERSION
  exitId := List.replicate EXIT_ID_LEN 1
  epoch := 300
  seq := 2 ^ 40
  encapsulatedKey := List.replicate ENCAPSULATED_KEY_LEN 2
  aeadTag := List.replicate AEAD_TAG_LEN 3
  ciphertext := List.replicate 200 4

def sampleFrameV2 : WarrenMultihopFrameV2 where
  version := WARREN_HPKE_VERSION_V2
  exitId := List.replicate EXIT_ID_LEN 1
  epoch := 2 ^ 32 - 1
  seq := 2 ^ 64 - 1
  encapsulatedKey := List.replicate ENCAPSULATED_KEY_LEN 2
  pqCt := List.replicate 300 5
  aeadTag := List.replicate AEAD_TAG_LEN 3
  ciphertext := List.replicate 200 4

def sampleBytes : Uint8Array := ⟨(sampleFrame.wire 300 (2 ^ 40)).bytes, by decide +kernel⟩

def sampleBytesV2 : Uint8Array :=
  ⟨(sampleFrameV2.wire (2 ^ 32 - 1) (2 ^ 64 - 1)).bytes, by decide +kernel⟩

theorem encode_sampleFrame : encodeMultihopFrame sampleFrame = .ok sampleBytes :=
  encodeMultihopFrame_eq_ok.mpr ⟨rfl, rfl, rfl, 300, 2 ^ 40, rfl, rfl, rfl⟩

theorem encode_sampleFrameV2 : encodeMultihopFrameV2 sampleFrameV2 = .ok sampleBytesV2 :=
  encodeMultihopFrameV2_eq_ok.mpr
    ⟨rfl, rfl, rfl, 2 ^ 32 - 1, 2 ^ 64 - 1, by decide +kernel, by decide +kernel, rfl⟩

theorem decode_encode_sampleFrames :
    decodeMultihopFrame sampleBytes = .ok sampleFrame ∧
    (∀ g, decodeMultihopFrameV2 sampleBytes ≠ .ok g) ∧
    decodeMultihopFrameV2 sampleBytesV2 = .ok sampleFrameV2 ∧
    ∀ g, decodeMultihopFrame sampleBytesV2 ≠ .ok g := by
  obtain ⟨hdecode, hother⟩ :=
    decode_encode.1 _ _ rfl encode_sampleFrame (by decide +kernel) (by decide)
  obtain ⟨hdecode', hother'⟩ :=
    decode_encode.2 _ _ rfl encode_sampleFrameV2 (by decide +kernel) (by decide)
  exact ⟨hdecode, hother, hdecode'.mpr (by decide +kernel), hother'⟩

/-- A frame of `/v2` with `n` octets of ciphertext. -/
def longFrame (n : Nat) : WarrenMultihopFrameV2 where
  version := WARREN_HPKE_VERSION_V2
  exitId := List.replicate EXIT_ID_LEN 0
  epoch := 0
  seq := 0
  encapsulatedKey := List.replicate ENCAPSULATED_KEY_LEN 0
  pqCt := []
  aeadTag := List.replicate AEAD_TAG_LEN 0
  ciphertext := List.replicate n 0

theorem encode_longFrame (h : n ≤ MAX_FRAME_SIZE) :
    ∃ b, encodeMultihopFrameV2 (longFrame n) = .ok b ∧ n < b.1.length ∧ b.1.length ≤ n + 78 := by
  have hn : (toLeb n).length ≤ 10 := (isVarint_toLeb (Nat.lt_of_le_of_lt h (by decide))).2
  have hlen : ((longFrame n).wire 0 0).bytes.length < MAX_EXACT := by
    simp only [WireV2.bytes, WireV2.body, WarrenMultihopFrameV2.wire, longFrame, List.length_cons,
      List.length_append, List.length_replicate, List.length_nil,
        toLeb_of_lt (show 0 < 128 by decide),
      EXIT_ID_LEN, ENCAPSULATED_KEY_LEN, AEAD_TAG_LEN, MAX_FRAME_SIZE, MAX_EXACT] at h ⊢
    omega
  refine ⟨⟨_, hlen⟩, encodeMultihopFrameV2_eq_ok.mpr ⟨?_, ?_, ?_, 0, 0, rfl, rfl, rfl⟩, ?_, ?_⟩
  · exact List.length_replicate
  · exact List.length_replicate
  · exact List.length_replicate
  · simp only [WireV2.bytes, WireV2.body, WarrenMultihopFrameV2.wire, longFrame, List.length_cons,
      List.length_append, List.length_replicate]
    omega
  · simp only [WireV2.bytes, WireV2.body, WarrenMultihopFrameV2.wire, longFrame, List.length_cons,
      List.length_append, List.length_replicate, List.length_nil,
        toLeb_of_lt (show 0 < 128 by decide), EXIT_ID_LEN, ENCAPSULATED_KEY_LEN, AEAD_TAG_LEN]
    omega

/-- The encoder of `/v2` takes a frame whose form its decoder refuses. -/
theorem not_decode_encode_longFrame :
    ¬ ∀ f b, f.version = WARREN_HPKE_VERSION_V2 → encodeMultihopFrameV2 f = .ok b →
      f.epoch < 2 ^ 32 → f.seq < 2 ^ 64 → decodeMultihopFrameV2 b = .ok f := by
  intro h
  obtain ⟨b, hb, hlt, -⟩ := encode_longFrame (n := MAX_FRAME_SIZE) (Nat.le_refl _)
  have hd := h (longFrame MAX_FRAME_SIZE) b rfl hb (by decide +kernel) (by decide)
  exact absurd (decodeMultihopFrameV2_eq_ok.mp hd).1 (Nat.not_le.mpr hlt)

/-! ## Other forms -/

theorem toLeb_length_iff {len field : Bytes} (h : Sizes len field)
    (hlt : field.length < MAX_EXACT) :
    toLeb field.length = len ↔ Shortest len := by
  rw [← h.ofLeb_eq hlt]
  exact toLeb_ofLeb_iff h.1.1

/-- A number whose form is made again from what is read of it was read exactly. -/
theorem toNumber_of_toLeb (h : toLeb (toNumber (ofLeb bs)) = bs) :
    toNumber (ofLeb bs) = ofLeb bs := by
  rw [← ofLeb_toLeb (toNumber (ofLeb bs)), h]

/-- The forms that are made again are the canonical ones. -/
theorem Wire.body_eq_iff {w : Wire} (hw : w.Valid) (hlt : w.ciphertext.length < MAX_EXACT) :
    (w.frame.wire (toNumber (ofLeb w.epoch)) (ofLeb w.seq)).body = w.body ↔ w.Canonical := by
  constructor
  · intro h
    simp only [Wire.body, WarrenMultihopFrame.wire, Wire.frame] at h
    have hrest := List.append_cancel_left h
    obtain ⟨hepoch, hrest⟩ := (isLeb_toLeb _).append_inj hw.epoch.1 hrest
    obtain ⟨hseq, hrest⟩ := (isLeb_toLeb _).append_inj hw.seq.1 hrest
    have hrest := List.append_cancel_left (List.append_cancel_left hrest)
    obtain ⟨hlen, -⟩ := (isLeb_toLeb _).append_inj hw.ciphertext.1.1 hrest
    have hnumber := toNumber_of_toLeb hepoch
    rw [hnumber] at hepoch
    exact
      { epoch := (toLeb_ofLeb_iff hw.epoch.1).mp hepoch
        epochNumber := hnumber
        seq := (toLeb_ofLeb_iff hw.seq.1).mp hseq
        ctLen := (toLeb_length_iff hw.ciphertext hlt).mp hlen }
  · intro h
    simp only [Wire.body, WarrenMultihopFrame.wire, Wire.frame, h.epochNumber,
      (toLeb_ofLeb_iff hw.epoch.1).mpr h.epoch, (toLeb_ofLeb_iff hw.seq.1).mpr h.seq,
      (toLeb_length_iff hw.ciphertext hlt).mpr h.ctLen]

theorem WireV2.body_eq_iff {w : WireV2} (hw : w.Valid) (hpq : w.pqCt.length < MAX_EXACT)
    (hct : w.ciphertext.length < MAX_EXACT) :
    (w.frame.wire (toNumber (ofLeb w.epoch)) (ofLeb w.seq)).body = w.body ↔ w.Canonical := by
  constructor
  · intro h
    simp only [WireV2.body, WarrenMultihopFrameV2.wire, WireV2.frame] at h
    have hrest := List.append_cancel_left h
    obtain ⟨hepoch, hrest⟩ := (isLeb_toLeb _).append_inj hw.epoch.1 hrest
    obtain ⟨hseq, hrest⟩ := (isLeb_toLeb _).append_inj hw.seq.1 hrest
    have hrest := List.append_cancel_left hrest
    obtain ⟨hpqLen, hrest⟩ := (isLeb_toLeb _).append_inj hw.pqCt.1.1 hrest
    have hrest := List.append_cancel_left (List.append_cancel_left hrest)
    obtain ⟨hlen, -⟩ := (isLeb_toLeb _).append_inj hw.ciphertext.1.1 hrest
    have hnumber := toNumber_of_toLeb hepoch
    rw [hnumber] at hepoch
    exact
      { epoch := (toLeb_ofLeb_iff hw.epoch.1).mp hepoch
        epochNumber := hnumber
        seq := (toLeb_ofLeb_iff hw.seq.1).mp hseq
        pqCtLen := (toLeb_length_iff hw.pqCt hpq).mp hpqLen
        ctLen := (toLeb_length_iff hw.ciphertext hct).mp hlen }
  · intro h
    simp only [WireV2.body, WarrenMultihopFrameV2.wire, WireV2.frame, h.epochNumber,
      (toLeb_ofLeb_iff hw.epoch.1).mpr h.epoch, (toLeb_ofLeb_iff hw.seq.1).mpr h.seq,
      (toLeb_length_iff hw.pqCt hpq).mpr h.pqCtLen,
        (toLeb_length_iff hw.ciphertext hct).mpr h.ctLen]

theorem natCast_inj {m n : Nat} (h : (m : Rat) = n) : m = n := by exact_mod_cast h

/-- `bytes` are a frame of `/v1` in its canonical form. -/
def CanonicalFrame (bytes : Bytes) : Prop := ∃ w : Wire, w.Valid ∧ w.Canonical ∧ w.bytes = bytes

/-- `bytes` are a frame of `/v2` in its canonical form. -/
def CanonicalFrameV2 (bytes : Bytes) : Prop := ∃ w : WireV2, w.Valid ∧ w.Canonical ∧ w.bytes = bytes

theorem encode_decodeMultihopFrame {b : Uint8Array} (h : decodeMultihopFrame b = .ok f) :
    encodeMultihopFrame f = .ok b ↔ CanonicalFrame b.1 := by
  constructor
  · intro he
    obtain ⟨w, hw, hbytes, rfl⟩ := decodeMultihopFrame_eq_ok.mp h
    obtain ⟨-, -, -, e, n, hepoch, hseq, hb⟩ := encodeMultihopFrame_eq_ok.mp he
    obtain rfl := natCast_inj hepoch
    obtain rfl := Int.ofNat_inj.mp hseq
    have hbody := (List.cons.inj (hb.symm.trans hbytes.symm)).2
    exact ⟨w, hw, (w.body_eq_iff hw (Wire.ciphertext_lt (hbytes ▸ b.2))).mp hbody, hbytes⟩
  · rintro ⟨w, hw, hcanonical, hbytes⟩
    have hf := h.symm.trans (decodeMultihopFrame_eq_ok.mpr ⟨w, hw, hbytes, rfl⟩)
    cases hf
    have hbody := (w.body_eq_iff hw (Wire.ciphertext_lt (hbytes ▸ b.2))).mpr hcanonical
    refine encodeMultihopFrame_eq_ok.mpr
      ⟨hw.exitId, hw.encapsulatedKey, hw.aeadTag, _, _, rfl, rfl, ?_⟩
    rw [hbody, ← hbytes]
    rfl

theorem encode_decodeMultihopFrameV2 {b : Uint8Array} (h : decodeMultihopFrameV2 b = .ok f) :
    encodeMultihopFrameV2 f = .ok b ↔ CanonicalFrameV2 b.1 := by
  constructor
  · intro he
    obtain ⟨-, w, hw, hbytes, rfl⟩ := decodeMultihopFrameV2_eq_ok.mp h
    obtain ⟨-, -, -, e, n, hepoch, hseq, hb⟩ := encodeMultihopFrameV2_eq_ok.mp he
    obtain rfl := natCast_inj hepoch
    obtain rfl := Int.ofNat_inj.mp hseq
    have hbody := (List.cons.inj (hb.symm.trans hbytes.symm)).2
    obtain ⟨hpq, hct⟩ := WireV2.lengths_lt (w := w) (hbytes ▸ b.2)
    exact ⟨w, hw, (w.body_eq_iff hw hpq hct).mp hbody, hbytes⟩
  · rintro ⟨w, hw, hcanonical, hbytes⟩
    have hlen := (decodeMultihopFrameV2_eq_ok.mp h).1
    have hf := h.symm.trans (decodeMultihopFrameV2_eq_ok.mpr ⟨hlen, w, hw, hbytes, rfl⟩)
    cases hf
    obtain ⟨hpq, hct⟩ := WireV2.lengths_lt (w := w) (hbytes ▸ b.2)
    have hbody := (w.body_eq_iff hw hpq hct).mpr hcanonical
    refine encodeMultihopFrameV2_eq_ok.mpr
      ⟨hw.exitId, hw.encapsulatedKey, hw.aeadTag, _, _, rfl, rfl, ?_⟩
    rw [hbody, ← hbytes]
    rfl

/-- A frame that is decoded is encoded again to the same octets if they are its canonical form, and
only then. So no two canonical forms are of one frame. -/
theorem encode_decode_iff (b b' : Uint8Array) :
    (∀ f, decodeMultihopFrame b = .ok f → (encodeMultihopFrame f = .ok b ↔ CanonicalFrame b.1) ∧
      (decodeMultihopFrame b' = .ok f → CanonicalFrame b.1 → CanonicalFrame b'.1 → b = b')) ∧
    ∀ f, decodeMultihopFrameV2 b = .ok f →
      (encodeMultihopFrameV2 f = .ok b ↔ CanonicalFrameV2 b.1) ∧
      (decodeMultihopFrameV2 b' = .ok f → CanonicalFrameV2 b.1 → CanonicalFrameV2 b'.1 →
          b = b') := by
  constructor
  · intro f h
    refine ⟨encode_decodeMultihopFrame h, fun h' hb hb' => ?_⟩
    have he := (encode_decodeMultihopFrame h).mpr hb
    have he' := (encode_decodeMultihopFrame h').mpr hb'
    exact Except.ok.inj (he.symm.trans he')
  · intro f h
    refine ⟨encode_decodeMultihopFrameV2 h, fun h' hb hb' => ?_⟩
    have he := (encode_decodeMultihopFrameV2 h).mpr hb
    have he' := (encode_decodeMultihopFrameV2 h').mpr hb'
    exact Except.ok.inj (he.symm.trans he')

theorem decode_sampleBytes : decodeMultihopFrame sampleBytes = .ok sampleFrame :=
  decodeMultihopFrame_encode rfl encode_sampleFrame (by decide +kernel) (by decide)

theorem decode_sampleBytesV2 : decodeMultihopFrameV2 sampleBytesV2 = .ok sampleFrameV2 :=
  decodeMultihopFrameV2_encode rfl encode_sampleFrameV2 (by decide +kernel) (by decide)
    (by decide +kernel)

theorem encode_decode_sampleFrames :
    encodeMultihopFrame sampleFrame = .ok sampleBytes ∧
    encodeMultihopFrameV2 sampleFrameV2 = .ok sampleBytesV2 := by
  have hcanonical : CanonicalFrame sampleBytes.1 :=
    ⟨_, ⟨rfl, isVarint_toLeb (by decide), isVarint_toLeb (by decide), rfl, rfl,
      sizes_toLeb (by decide +kernel)⟩,
      ⟨shortest_toLeb _, by decide +kernel, shortest_toLeb _, shortest_toLeb _⟩, rfl⟩
  have hcanonical' : CanonicalFrameV2 sampleBytesV2.1 :=
    ⟨_, ⟨rfl, isVarint_toLeb (by decide), isVarint_toLeb (by decide), rfl,
      sizes_toLeb (by decide +kernel), rfl, sizes_toLeb (by decide +kernel)⟩,
      ⟨shortest_toLeb _, by decide +kernel, shortest_toLeb _, shortest_toLeb _, shortest_toLeb _⟩,
        rfl⟩
  exact ⟨((encode_decode_iff _ sampleBytes).1 _ decode_sampleBytes).1.mpr hcanonical,
    ((encode_decode_iff _ sampleBytes).2 _ decode_sampleBytesV2).1.mpr hcanonical'⟩

/-- An empty frame of `/v1`, its epoch in the octets `epoch`. -/
def zeroFrame (epoch : Bytes) : Wire where
  exitId := List.replicate EXIT_ID_LEN 0
  epoch := epoch
  seq := [0]
  encapsulatedKey := List.replicate ENCAPSULATED_KEY_LEN 0
  aeadTag := List.replicate AEAD_TAG_LEN 0
  ctLen := [0]
  ciphertext := []

theorem isVarint_zero : IsVarint [0] := by decide

theorem valid_zeroFrame (h : IsVarint epoch) : (zeroFrame epoch).Valid where
  exitId := rfl
  epoch := h
  seq := isVarint_zero
  encapsulatedKey := rfl
  aeadTag := rfl
  ciphertext := ⟨isVarint_zero, rfl⟩

theorem decode_zeroFrame (h : IsVarint epoch) {b : Uint8Array}
    (hb : (zeroFrame epoch).bytes = b.1) :
    decodeMultihopFrame b = .ok (zeroFrame epoch).frame :=
  decodeMultihopFrame_eq_ok.mpr ⟨zeroFrame epoch, valid_zeroFrame h, hb, rfl⟩

/-- The epoch 0 in two octets is the epoch 0. -/
theorem not_encode_decode_paddedEpoch :
    (∃ b b' f, b ≠ b' ∧ decodeMultihopFrame b = .ok f ∧ decodeMultihopFrame b' = .ok f) ∧
      ¬ ∀ b f, decodeMultihopFrame b = .ok f → encodeMultihopFrame f = .ok b := by
  let b : Uint8Array := ⟨(zeroFrame [0]).bytes, by decide⟩
  let b' : Uint8Array := ⟨(zeroFrame [0x80, 0]).bytes, by decide⟩
  have hne : b ≠ b' := fun h => absurd (congrArg (fun x => x.1.length) h) (by decide)
  have hd : decodeMultihopFrame b = .ok (zeroFrame [0]).frame := decode_zeroFrame (by decide) rfl
  have hd' : decodeMultihopFrame b' = .ok (zeroFrame [0]).frame :=
    decode_zeroFrame (show IsVarint [0x80, 0] by decide) rfl
  refine ⟨⟨b, b', _, hne, hd, hd'⟩, fun h => ?_⟩
  exact hne (Except.ok.inj ((h b _ hd).symm.trans (h b' _ hd')))

end WarrenSdk.Core
