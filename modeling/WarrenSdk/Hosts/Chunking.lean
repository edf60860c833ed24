import WarrenSdk.Core.Errors
import WarrenSdk.Lib.Framing
import WarrenSdk.Lib.Json
import WarrenSdk.Lib.Utf8
import WarrenSdk.Node.Warrend.Protocol

/-!
# Streams in chunks

Both decoders of frames, as the client of the daemon and the host drive them: a chunk whose frames
are decoded delivers their messages, and the first chunk that throws ends the stream. The messages
that were decoded in that chunk are not delivered.
-/

/-! ## Native messages (`host/framing.ts`)

Frames of JSON behind a little-endian length, the byte order of every platform with a host. -/

namespace WarrenSdk.Extension.Host

open Lib WarrenSdk.Core

def MAX_NATIVE_FRAME_BYTES : Nat := 1024 * 1024

/-- A message of just the size of the cap is not written, but it is read. -/
def encodeNativeFrame (stringify : μ → Utf16) (message : μ) : Except Core.Failure Bytes :=
  let json := Utf16.utf8 (stringify message)
  if json.length ≥ MAX_NATIVE_FRAME_BYTES then
    .error (.range "native messaging frame exceeds the 1 MB cap")
  else .ok ((toBE 4 json.length).reverse ++ json)

/-- What a decoder does with its buffer. -/
def NativeFrameDecoder (parse : Utf16 → Option μ) : Framing μ where
  size bytes := ofBE bytes.reverse
  spell n := (toBE 4 n).reverse
  cap := MAX_NATIVE_FRAME_BYTES
  parse bytes := parse (Utf8.decode bytes)
  length_spell n := by rw [List.length_reverse, length_toBE]
  size_spell n hn := by
    rw [List.reverse_reverse, ofBE_toBE_of_lt (Nat.lt_of_le_of_lt hn (by decide))]

end WarrenSdk.Extension.Host

/-! ## Both decoders -/

namespace WarrenSdk.Hosts

open Lib WarrenSdk.Core WarrenSdk.Node.Warrend WarrenSdk.Extension.Host

variable {μ : Type u} {parse : Utf16 → Option μ} {stringify : μ → Utf16}

/-- A message that JSON carries. -/
structure Carried (parse : Utf16 → Option μ) (stringify : μ → Utf16) (message : μ) : Prop where
  parsed : parse (stringify message) = some message
  wellFormed : (stringify message).WellFormed

/-- `frames` are the encodings of `messages`. -/
abbrev Encodes (encode : μ → Except Core.Failure Bytes) (messages : List μ)
    (frames : List Bytes) : Prop :=
  List.Forall₂ (fun message frame => encode message = .ok frame) messages frames

theorem Carried.decode {message : μ} (h : Carried parse stringify message) :
    parse (Utf8.decode (Utf16.utf8 (stringify message))) = some message := by
  rw [Utf8.decode_utf8, h.wellFormed, h.parsed]

theorem drive_of_encodes {F : Framing μ} {encode : μ → Except Core.Failure Bytes}
    {chunks : List Bytes}
    (hencode : ∀ message ∈ messages, ∀ frame, encode message = .ok frame →
      ∃ payload, frame = F.encode payload ∧ payload.length ≤ F.cap ∧ F.parse payload = some message)
    (h : Encodes encode messages frames) (hc : chunks.flatten = frames.flatten) :
    F.drive [] chunks = (messages, some []) := by
  obtain ⟨payloads, hframes, hmessages, hpayloads⟩ : ∃ payloads : List (Bytes × μ),
      frames.flatten = (payloads.flatMap fun p => F.encode p.1) ∧ payloads.map Prod.snd = messages ∧
        ∀ p ∈ payloads, p.1.length ≤ F.cap ∧ F.parse p.1 = some p.2 := by
    clear hc
    induction h with
    | nil => exact ⟨[], rfl, rfl, fun _ hmem => by cases hmem⟩
    | @cons message frame messages frames hframe _ ih =>
      obtain ⟨payloads, hframes, hmessages, hpayloads⟩ :=
        ih fun message hmem => hencode message (List.mem_cons_of_mem _ hmem)
      obtain ⟨payload, rfl, hlength, hparse⟩ :=
        hencode message (List.mem_cons_self ..) frame hframe
      refine ⟨(payload, message) :: payloads, ?_, ?_, fun p hp => ?_⟩
      · rw [List.flatten_cons, List.flatMap_cons, hframes]
      · rw [List.map_cons, hmessages]
      · obtain rfl | hp := List.mem_cons.mp hp
        · exact ⟨hlength, hparse⟩
        · exact hpayloads p hp
  rw [Framing.drive_encodings hpayloads (hc.trans hframes), hmessages]

theorem encodeFrame_ok {message : μ} (hm : Carried parse stringify message)
    (h : encodeFrame stringify message = .ok frame) :
    ∃ payload, frame = (FrameDecoder parse).encode payload ∧
      payload.length ≤ (FrameDecoder parse).cap ∧
        (FrameDecoder parse).parse payload = some message := by
  unfold encodeFrame at h
  dsimp only at h
  split at h
  · cases h
  · next hle =>
    cases h
    exact ⟨_, rfl, Nat.not_lt.mp hle, hm.decode⟩

theorem encodeNativeFrame_ok {message : μ} (hm : Carried parse stringify message)
    (h : encodeNativeFrame stringify message = .ok frame) :
    ∃ payload, frame = (NativeFrameDecoder parse).encode payload ∧
      payload.length ≤ (NativeFrameDecoder parse).cap ∧
        (NativeFrameDecoder parse).parse payload = some message := by
  unfold encodeNativeFrame at h
  dsimp only at h
  split at h
  · cases h
  · next hlt =>
    cases h
    exact ⟨_, rfl, Nat.le_of_not_le hlt, hm.decode⟩

/-- Two cuttings of a stream deliver the same messages and fail alike exactly when no frame of it is
corrupt, or as many frames end before the last cut of each before the corrupt one shows. A stream of
encodings is delivered whole, however it is cut. -/
theorem delivered_eq_iff (parse : Utf16 → Option μ) (stringify : μ → Utf16) :
    (∀ stream chunks chunks', chunks.flatten = stream → chunks'.flatten = stream →
      ((FrameDecoder parse).drive [] chunks = (FrameDecoder parse).drive [] chunks' ↔
        (FrameDecoder parse).SameFrames stream chunks chunks') ∧
      ((NativeFrameDecoder parse).drive [] chunks = (NativeFrameDecoder parse).drive [] chunks' ↔
        (NativeFrameDecoder parse).SameFrames stream chunks chunks')) ∧
    (∀ messages, (∀ message ∈ messages, Carried parse stringify message) →
      ∀ frames chunks, chunks.flatten = frames.flatten →
        (Encodes (encodeFrame stringify) messages frames →
          (FrameDecoder parse).drive [] chunks = (messages, some [])) ∧
        (Encodes (encodeNativeFrame stringify) messages frames →
          (NativeFrameDecoder parse).drive [] chunks = (messages, some []))) := by
  constructor
  · intro stream chunks chunks' h h'
    exact ⟨Framing.drive_eq_iff h h', Framing.drive_eq_iff h h'⟩
  · intro messages hm frames chunks hc
    constructor
    · intro h
      exact drive_of_encodes (fun message hmem frame => encodeFrame_ok (hm message hmem)) h hc
    · intro h
      exact drive_of_encodes (fun message hmem frame => encodeNativeFrame_ok (hm message hmem)) h hc

/-- The frame of `null`. -/
def nullFrame : Bytes := [0, 0, 0, 4, 0x6E, 0x75, 0x6C, 0x6C]

/-- The frame of `true`. -/
def trueFrame : Bytes := [0, 0, 0, 4, 0x74, 0x72, 0x75, 0x65]

/-- Two cuttings of the encodings of two messages, one of them within both lengths. -/
theorem delivered_eq_iff_twoMessages :
    let chunks : List Bytes :=
      [[0, 0], [0, 4, 0x6E, 0x75, 0x6C, 0x6C, 0, 0, 0, 4, 0x74], [0x72, 0x75, 0x65]]
    ((FrameDecoder Json.parse).drive [] chunks =
      (FrameDecoder Json.parse).drive [] [chunks.flatten] ↔
      (FrameDecoder Json.parse).SameFrames chunks.flatten chunks [chunks.flatten]) ∧
      (FrameDecoder Json.parse).drive [] chunks = ([.null, .bool true], some []) := by
  intro chunks
  have hcarried (b : Json) (hb : b ∈ [Json.null, .bool true]) :
      Carried Json.parse Json.stringify b := by
    obtain rfl | rfl : b = .null ∨ b = .bool true := by simpa using hb
    · exact ⟨Json.parse_stringify .null, by decide⟩
    · exact ⟨Json.parse_stringify (.bool true), by decide⟩
  have hencodes : Encodes (encodeFrame Json.stringify) [.null, .bool true] [nullFrame, trueFrame] :=
    .cons rfl (.cons rfl .nil)
  obtain ⟨hiff, hall⟩ := delivered_eq_iff Json.parse Json.stringify
  exact ⟨(hiff chunks.flatten chunks [chunks.flatten] rfl (List.append_nil _)).1,
    (hall _ hcarried [nullFrame, trueFrame] chunks rfl).1 hencodes⟩

/-- A length that is too large. -/
def corruptFrame : Bytes := [0xFF, 0xFF, 0xFF, 0xFF]

theorem delivered_ne_nullFrame : [nullFrame ++ corruptFrame].flatten =
      [nullFrame, corruptFrame].flatten ∧
    (FrameDecoder Json.parse).drive [] [nullFrame ++ corruptFrame] = ([], none) ∧
      (FrameDecoder Json.parse).drive [] [nullFrame, corruptFrame] = ([.null], none) := by
  have hnull : (FrameDecoder Json.parse).next nullFrame = .message .null 8 := rfl
  have hcorrupt : (FrameDecoder Json.parse).drain corruptFrame = ([], none) :=
    Framing.drain_corrupt rfl
  have hone : (FrameDecoder Json.parse).drain nullFrame = ([.null], some []) := by
    have hdrop : nullFrame.drop 8 = [] := rfl
    rw [Framing.drain_message hnull, hdrop, Framing.drain_incomplete Framing.next_nil]
  have hboth : (FrameDecoder Json.parse).drain (nullFrame ++ corruptFrame) = ([.null], none) := by
    rw [Framing.drain_message (Framing.next_append_message hnull corruptFrame)]
    exact congrArg (fun d : List Json × Option Bytes => (Json.null :: d.1, d.2)) hcorrupt
  refine ⟨rfl, ?_, ?_⟩
  · rw [Framing.drive, Framing.push, List.nil_append, hboth]
  · rw [Framing.drive, Framing.push, List.nil_append, hone]
    dsimp only
    rw [Framing.drive, Framing.push, List.nil_append, hcorrupt]
    rfl

end WarrenSdk.Hosts
