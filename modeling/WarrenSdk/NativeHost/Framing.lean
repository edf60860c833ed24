import WarrenSdk.Lib.Framing
import WarrenSdk.Lib.Reader

/-!
# The frames of native messaging (`framing.rs`)

A length of four octets in little-endian order, then as many octets of JSON. Frames are read back
from any reader that hands over their octets, however it cuts them, and a stream that ends inside a
frame is told apart from one that ends behind one (`readFrames_exact`).
-/

namespace WarrenSdk.NativeHost.Wire
open Lib

/-! ## Messages -/

/-- How `serde_json` writes numbers: those of 64 bits and the finite doubles. -/
structure Numbers where
  Number : Type
  text : Number → Bytes
  length_text : ∀ n, (text n).length ≤ 24

/-- `serde_json::Value`. The members of an object stand in the order of their keys. -/
inductive Value (ν : Type)
  | null
  | bool (value : Bool)
  | number (value : ν)
  | string (value : String)
  | array (items : List (Value ν))
  | object (members : List (String × Value ν))

/-- `Value::get` -/
def Value.get (v : Value ν) (key : String) : Option (Value ν) :=
  match v with
  | .object members => (members.find? (·.1 = key)).map (·.2)
  | _ => none

def hexDigit (n : Nat) : UInt8 := UInt8.ofNat (if n < 10 then 0x30 + n else 0x57 + n)

/-- An octet of a string, with the escapes that JSON asks for. -/
def escapeByte (b : UInt8) : Bytes :=
  if b = 0x22 then [0x5C, 0x22]
  else if b = 0x5C then [0x5C, 0x5C]
  else if b = 0x08 then [0x5C, 0x62]
  else if b = 0x0C then [0x5C, 0x66]
  else if b = 0x0A then [0x5C, 0x6E]
  else if b = 0x0D then [0x5C, 0x72]
  else if b = 0x09 then [0x5C, 0x74]
  else if b < 0x20 then [0x5C, 0x75, 0x30, 0x30, hexDigit (b.toNat / 16), hexDigit (b.toNat % 16)]
  else [b]

def utf8 (s : String) : Bytes := s.toList.flatMap String.utf8EncodeChar

def quote (s : String) : Bytes := 0x22 :: ((utf8 s).flatMap escapeByte ++ [0x22])

variable (N : Numbers)

mutual

/-- `serde_json::to_vec`, which fails on no `Value`. -/
def toVec : Value N.Number → Bytes
  | .null => utf8 "null"
  | .bool true => utf8 "true"
  | .bool false => utf8 "false"
  | .number n => N.text n
  | .string s => quote s
  | .array [] => [0x5B, 0x5D]
  | .array (item :: items) => 0x5B :: (toVec item ++ moreItems items)
  | .object [] => [0x7B, 0x7D]
  | .object ((key, value) :: members) =>
    0x7B :: (quote key ++ 0x3A :: (toVec value ++ moreMembers members))

/-- The items of an array after its first, and its closing bracket. -/
def moreItems : List (Value N.Number) → Bytes
  | [] => [0x5D]
  | item :: items => 0x2C :: (toVec item ++ moreItems items)

/-- The members of an object after its first, and its closing brace. -/
def moreMembers : List (String × Value N.Number) → Bytes
  | [] => [0x7D]
  | (key, value) :: members => 0x2C :: (quote key ++ 0x3A :: (toVec value ++ moreMembers members))

end

/-! ## Frames -/

def MAX_OUTBOUND_BYTES : Nat := 1024 * 1024

def MAX_INBOUND_BYTES : Nat := 1024 * 1024

/-- What an I/O error says of itself (`std::io::ErrorKind`). -/
inductive IoError
  | unexpectedEof
  | other
deriving DecidableEq

inductive FrameError
  | tooLarge (length : Nat)
  | truncated
  | io (error : IoError)
deriving DecidableEq

/-- `u32::to_le_bytes` -/
def toLeBytes (length : Nat) : Bytes := (toBE 4 length).reverse

/-- `u32::from_le_bytes` -/
def fromLeBytes (octets : Bytes) : Nat := ofBE octets.reverse

def encodeFrame (message : Value N.Number) : Except FrameError Bytes :=
  let json := toVec N message
  if MAX_OUTBOUND_BYTES ≤ json.length then .error (.tooLarge json.length)
  else .ok (toLeBytes json.length ++ json)

/-- What a request is answered with instead of what is too large for it. -/
def refusal {ν : Type} (id : Value ν) : Value ν :=
  .object [("code", .string "host"), ("id", id),
    ("message", .string "the answer exceeds the native messaging size cap"), ("ok", .bool false)]

def encodeOrRefuse (message : Value N.Number) : Option Bytes :=
  match encodeFrame N message with
  | .ok frame => some frame
  | .error _ => do
    let id ← message.get "id"
    (encodeFrame N (refusal id)).toOption

section
variable {σ : Type u} (R : Reader σ IoError)

/-- The next frame's payload, nothing at the end of the stream; and the reader after it. -/
def readFrame (s : σ) : Except FrameError (Option Bytes) × σ :=
  match R.fill 4 s with
  | .error e => (.error (.io e), s)
  | .ok (octets, s) =>
    if octets.length < 4 then (if octets = [] then .ok none else .error .truncated, s)
    else
      let length := fromLeBytes octets
      if MAX_INBOUND_BYTES < length then (.error (.tooLarge length), s)
      else
        -- `read_exact`, which calls an end of the stream an error
        match R.fill length s with
        | .error .unexpectedEof => (.error .truncated, s)
        | .error .other => (.error (.io .other), s)
        | .ok (payload, s) =>
          if payload.length < length then (.error .truncated, s) else (.ok (some payload), s)

/-- The payloads of a stream, and the error it ends with if it does. -/
def readFrames : Nat → σ → Option (List Bytes × Option FrameError × σ)
  | 0, _ => none
  | fuel + 1, s =>
    match readFrame R s with
    | (.ok none, s) => some ([], none, s)
    | (.error e, s) => some ([], some e, s)
    | (.ok (some payload), s) =>
      (readFrames fuel s).map fun (payloads, last) => (payload :: payloads, last)

end

/-! ## One frame -/

/-- The frames of the helper, whose payloads are any octets. -/
def nativeFrames : Framing Bytes where
  size := fromLeBytes
  spell := toLeBytes
  cap := MAX_INBOUND_BYTES
  parse := some
  length_spell n := by rw [toLeBytes, List.length_reverse, length_toBE]
  size_spell n hn := by
    rw [fromLeBytes, toLeBytes, List.reverse_reverse,
      ofBE_toBE_of_lt (Nat.lt_of_le_of_lt hn (by decide))]

theorem toLeBytes_fromLeBytes {octets : Bytes} (h : octets.length = 4) :
    toLeBytes (fromLeBytes octets) = octets := by
  have hread := toBE_ofBE octets.reverse
  rw [List.length_reverse, h] at hread
  rw [toLeBytes, fromLeBytes, hread, List.reverse_reverse]

theorem eq_encode_of_next {b payload : Bytes} (h : nativeFrames.next b = .message payload taken) :
    b = nativeFrames.encode payload ++ b.drop taken ∧ payload.length ≤ MAX_INBOUND_BYTES := by
  unfold Framing.next at h
  split at h
  · cases h
  · next hfour =>
    dsimp only at h
    split at h
    · cases h
    · next hcap =>
      split at h
      · cases h
      · next hfull =>
        obtain ⟨rfl, rfl⟩ := Framing.Next.message.inj h
        have hlength : ((b.drop 4).take (nativeFrames.size (b.take 4))).length =
            nativeFrames.size (b.take 4) := by
          rw [List.length_take, List.length_drop]
          omega
        have hspell : nativeFrames.spell (nativeFrames.size (b.take 4)) = b.take 4 :=
          toLeBytes_fromLeBytes (by rw [List.length_take]; omega)
        refine ⟨?_, by rw [hlength]; exact Nat.not_lt.mp hcap⟩
        rw [Framing.encode, hlength, hspell, List.append_assoc, ← List.drop_drop,
          List.take_append_drop, List.take_append_drop]

variable {N : Numbers} {σ : Type u} {R : Reader σ IoError} {content : σ → Bytes}

/-- One frame is read as the stream begins, whatever the pieces. -/
theorem readFrame_of_message (h : R.Delivers content) {payload : Bytes}
    (hnext : nativeFrames.next (content s) = .message payload taken) : ∃ s',
      readFrame R s = (.ok (some payload), s') ∧ content s' = (content s).drop taken := by
  obtain ⟨t, hfill, hrest⟩ := h.fill 4 s
  unfold Framing.next at hnext
  split at hnext
  · cases hnext
  · next hfour =>
    dsimp only at hnext
    split at hnext
    · cases hnext
    · next hcap =>
      split at hnext
      · cases hnext
      · next hfull =>
        obtain ⟨rfl, rfl⟩ := Framing.Next.message.inj hnext
        obtain ⟨u, hpayload, hleft⟩ := h.fill (fromLeBytes ((content s).take 4)) t
        have hsize : nativeFrames.size ((content s).take 4) = fromLeBytes ((content s).take 4) :=
          rfl
        have hcap' : ¬ MAX_INBOUND_BYTES < fromLeBytes ((content s).take 4) := hcap
        have hlength : ¬ ((content t).take (fromLeBytes ((content s).take 4))).length <
            fromLeBytes ((content s).take 4) := by
          rw [List.length_take, hrest, List.length_drop]
          omega
        refine ⟨u, ?_, by rw [hleft, hrest, List.drop_drop, hsize]⟩
        unfold readFrame
        rw [hfill]
        dsimp only
        rw [if_neg (by rw [List.length_take]; omega), if_neg hcap', hpayload]
        dsimp only
        rw [if_neg hlength, hrest, hsize]

theorem readFrame_of_corrupt (h : R.Delivers content)
    (hnext : nativeFrames.next (content s) = .corrupt shown) :
    4 ≤ (content s).length ∧ MAX_INBOUND_BYTES < fromLeBytes ((content s).take 4) ∧ ∃ s',
      readFrame R s = (.error (.tooLarge (fromLeBytes ((content s).take 4))), s') ∧
        content s' = (content s).drop 4 := by
  obtain ⟨t, hfill, hrest⟩ := h.fill 4 s
  unfold Framing.next at hnext
  split at hnext
  · cases hnext
  · next hfour =>
    dsimp only at hnext
    split at hnext
    · next hcap =>
      have hcap' : MAX_INBOUND_BYTES < fromLeBytes ((content s).take 4) := hcap
      refine ⟨by omega, hcap', t, ?_, hrest⟩
      unfold readFrame
      rw [hfill]
      dsimp only
      rw [if_neg (by rw [List.length_take]; omega), if_pos hcap']
    · split at hnext
      · cases hnext
      · cases hnext

/-- No octets are a clean end; some that are no frame are a truncated one. -/
theorem readFrame_of_incomplete (h : R.Delivers content)
    (hnext : nativeFrames.next (content s) = .incomplete) :
    (content s = [] ∧ ∃ s', readFrame R s = (.ok none, s') ∧ content s' = []) ∨
      (content s ≠ [] ∧ ((content s).length < 4 ∨
          fromLeBytes ((content s).take 4) ≤ MAX_INBOUND_BYTES ∧
            (content s).length < 4 + fromLeBytes ((content s).take 4)) ∧
        ∃ s', readFrame R s = (.error .truncated, s')) := by
  obtain ⟨t, hfill, hrest⟩ := h.fill 4 s
  unfold Framing.next at hnext
  split at hnext
  · next hfour =>
    have hshort : ((content s).take 4).length < 4 := by
      rw [List.length_take]
      omega
    by_cases hnil : content s = []
    · refine .inl ⟨hnil, t, ?_, by rw [hrest, hnil]; rfl⟩
      unfold readFrame
      rw [hfill]
      dsimp only
      rw [if_pos hshort, if_pos (by rw [hnil]; rfl)]
    · refine .inr ⟨hnil, .inl hfour, t, ?_⟩
      have hsome : (content s).take 4 ≠ [] := by
        intro htake
        rcases List.take_eq_nil_iff.mp htake with h4 | hnil'
        · cases h4
        · exact hnil hnil'
      unfold readFrame
      rw [hfill]
      dsimp only
      rw [if_pos hshort, if_neg hsome]
  · next hfour =>
    dsimp only at hnext
    split at hnext
    · cases hnext
    · next hcap =>
      split at hnext
      · next hshort =>
        have hcap' : ¬ MAX_INBOUND_BYTES < fromLeBytes ((content s).take 4) := hcap
        have hshort' : (content s).length < 4 + fromLeBytes ((content s).take 4) := hshort
        obtain ⟨u, hpayload, -⟩ := h.fill (fromLeBytes ((content s).take 4)) t
        have hlength : ((content t).take (fromLeBytes ((content s).take 4))).length <
            fromLeBytes ((content s).take 4) := by
          rw [List.length_take, hrest, List.length_drop]
          omega
        refine .inr ⟨fun hnil => ?_, .inr ⟨Nat.not_lt.mp hcap', hshort'⟩, u, ?_⟩
        · rw [hnil] at hfour
          exact hfour (by decide)
        · unfold readFrame
          rw [hfill]
          dsimp only
          rw [if_neg (by rw [List.length_take]; omega), if_neg hcap', hpayload]
          dsimp only
          rw [if_pos hlength]
      · cases hnext

/-! ## Streams -/

/-- What a stream ends with behind its last frame, and what is left to read then. -/
inductive Ends (rest : Bytes) : Option FrameError → Bytes → Prop
  | clean : rest = [] → Ends rest none []
  /-- The octets of a length or of a payload are missing. -/
  | truncated : rest ≠ [] → (rest.length < 4 ∨ fromLeBytes (rest.take 4) ≤ MAX_INBOUND_BYTES ∧
      rest.length < 4 + fromLeBytes (rest.take 4)) → Ends rest (some .truncated) left
  /-- The length alone is read. -/
  | tooLarge : 4 ≤ rest.length → MAX_INBOUND_BYTES < fromLeBytes (rest.take 4) →
    Ends rest (some (.tooLarge (fromLeBytes (rest.take 4)))) (rest.drop 4)

theorem readFrames_of_message (h : R.Delivers content) {payload : Bytes}
    (hnext : nativeFrames.next (content s) = .message payload taken) : ∃ s',
      content s' = (content s).drop taken ∧ ∀ fuel, readFrames R (fuel + 1) s =
        (readFrames R fuel s').map fun (payloads, last) => (payload :: payloads, last) := by
  obtain ⟨s', hread, hrest⟩ := readFrame_of_message h hnext
  refine ⟨s', hrest, fun fuel => ?_⟩
  rw [readFrames, hread]

/-- Every stream is its frames and what it ends with. -/
theorem exists_readFrames (h : R.Delivers content) (fuel : Nat) (s : σ)
    (hfuel : (content s).length < fuel) : ∃ payloads rest last s',
      readFrames R fuel s = some (payloads, last, s') ∧
      content s = (payloads.flatMap nativeFrames.encode) ++ rest ∧
      (∀ payload ∈ payloads, payload.length ≤ MAX_INBOUND_BYTES) ∧ Ends rest last (content s') := by
  induction fuel generalizing s with
  | zero => exact absurd hfuel (Nat.not_lt_zero _)
  | succ fuel ih =>
    cases hnext : nativeFrames.next (content s) with
    | incomplete =>
      rcases readFrame_of_incomplete h hnext with ⟨hnil, s', hread, hend⟩ | ⟨hne, hshort, s', hread⟩
      · refine ⟨[], content s, none, s', by rw [readFrames, hread], rfl, by simp, ?_⟩
        rw [hend]
        exact .clean hnil
      · exact ⟨[], content s, some .truncated, s', by rw [readFrames, hread], rfl, by simp,
          .truncated hne hshort⟩
    | corrupt shown =>
      obtain ⟨hfour, hcap, s', hread, hrest⟩ := readFrame_of_corrupt h hnext
      refine ⟨[], content s, _, s', by rw [readFrames, hread], rfl, by simp, ?_⟩
      rw [hrest]
      exact .tooLarge hfour hcap
    | message payload taken =>
      obtain ⟨hsplit, hle⟩ := eq_encode_of_next hnext
      obtain ⟨htaken, hlength⟩ := Framing.taken_of_next hnext
      obtain ⟨t, hrest, hstep⟩ := readFrames_of_message h hnext
      have hless : (content t).length < fuel := by
        rw [hrest, List.length_drop]
        omega
      obtain ⟨payloads, rest, last, s', hread, hcontent, hall, hend⟩ := ih t hless
      refine ⟨payload :: payloads, rest, last, s', by rw [hstep, hread]; rfl, ?_, ?_, hend⟩
      · rw [List.flatMap_cons, List.append_assoc, ← hcontent, hrest]
        exact hsplit
      · exact List.forall_mem_cons.mpr ⟨hle, hall⟩

theorem readFrames_encodings (h : R.Delivers content) {payloads : List Bytes}
    (hall : ∀ payload ∈ payloads, payload.length ≤ MAX_INBOUND_BYTES) {s : σ}
    (hcontent : content s = payloads.flatMap nativeFrames.encode) {fuel : Nat}
    (hfuel : payloads.length < fuel) : ∃ s', readFrames R fuel s = some (payloads, none, s') := by
  induction payloads generalizing s fuel with
  | nil =>
    obtain ⟨fuel, rfl⟩ := Nat.exists_eq_succ_of_ne_zero (Nat.ne_of_gt hfuel)
    have hnext : nativeFrames.next (content s) = .incomplete := by
      rw [hcontent]
      exact Framing.next_nil
    rcases readFrame_of_incomplete h hnext with ⟨-, s', hread, -⟩ | ⟨hne, -⟩
    · exact ⟨s', by rw [readFrames, hread]⟩
    · exact absurd hcontent hne
  | cons payload payloads ih =>
    obtain ⟨hle, hall⟩ := List.forall_mem_cons.mp hall
    obtain ⟨fuel, rfl⟩ := Nat.exists_eq_succ_of_ne_zero (Nat.ne_of_gt (Nat.zero_lt_of_lt hfuel))
    rw [List.flatMap_cons] at hcontent
    have hnext : nativeFrames.next (content s) = .message payload (4 + payload.length) := by
      rw [hcontent]
      exact Framing.next_encode hle rfl _
    obtain ⟨t, hrest, hstep⟩ := readFrames_of_message h hnext
    have hsize : (nativeFrames.encode payload).length = 4 + payload.length := by
      rw [Framing.encode, List.length_append, nativeFrames.length_spell]
    have hcontent' : content t = payloads.flatMap nativeFrames.encode := by
      rw [hrest, hcontent, ← hsize, List.drop_left]
    obtain ⟨s', hread⟩ := ih hall hcontent' (Nat.lt_of_succ_lt_succ hfuel)
    exact ⟨s', by rw [hstep, hread]; rfl⟩

/-! ## Answers -/

theorem encodeFrame_of_lt {message : Value N.Number}
    (h : (toVec N message).length < MAX_OUTBOUND_BYTES) :
    encodeFrame N message = .ok (nativeFrames.encode (toVec N message)) :=
  if_neg (Nat.not_le.mpr h)

theorem encodeFrames_of_lt {messages : List (Value N.Number)}
    (h : ∀ message ∈ messages, (toVec N message).length < MAX_OUTBOUND_BYTES) :
    ∃ frames, messages.mapM (encodeFrame N) = .ok frames ∧
      frames.flatten = (messages.map (toVec N)).flatMap nativeFrames.encode := by
  induction messages with
  | nil => exact ⟨[], rfl, rfl⟩
  | cons message messages ih =>
    obtain ⟨hmessage, hmessages⟩ := List.forall_mem_cons.mp h
    obtain ⟨frames, hframes, hflat⟩ := ih hmessages
    refine ⟨nativeFrames.encode (toVec N message) :: frames, ?_, ?_⟩
    · rw [List.mapM_cons, encodeFrame_of_lt hmessage, hframes]
      rfl
    · rw [List.flatten_cons, hflat, List.map_cons, List.flatMap_cons]

/-- A refusal is short, whatever number it names. -/
theorem length_refusal (n : N.Number) :
    (toVec N (refusal (.number n))).length = 93 + (N.text n).length := by
  have hcode : (quote "code").length + (quote "host").length + (quote "id").length = 16 := by
    decide +kernel
  have hmessage : (quote "message").length +
      (quote "the answer exceeds the native messaging size cap").length = 59 := by
    decide +kernel
  have hok : (quote "ok").length + (utf8 "false").length = 9 := by decide +kernel
  simp only [refusal, toVec, moreMembers, List.length_append, List.length_cons, List.length_nil]
  omega

theorem exists_encodeOrRefuse {message : Value N.Number} {n : N.Number}
    (h : message.get "id" = some (.number n)) : ∃ answer,
      encodeOrRefuse N message = some (nativeFrames.encode (toVec N answer)) ∧
      (toVec N answer).length < MAX_OUTBOUND_BYTES ∧ answer.get "id" = some (.number n) := by
  by_cases hlt : (toVec N message).length < MAX_OUTBOUND_BYTES
  · refine ⟨message, ?_, hlt, h⟩
    rw [encodeOrRefuse, encodeFrame_of_lt hlt]
  · have hshort : (toVec N (refusal (.number n))).length < MAX_OUTBOUND_BYTES := by
      have htext := N.length_text n
      have hlength := length_refusal n
      have hcap : MAX_OUTBOUND_BYTES = 1048576 := rfl
      omega
    have herror : encodeFrame N message = .error (.tooLarge (toVec N message).length) :=
      if_pos (Nat.not_lt.mp hlt)
    refine ⟨refusal (.number n), ?_, hshort, by rfl⟩
    rw [encodeOrRefuse, herror]
    simp only [h, encodeFrame_of_lt hshort, Option.bind_eq_bind, Option.bind_some]
    rfl

/-- Messages are read back whatever the pieces, every stream is its frames and a clean end, a frame
that is cut short or one that is refused for its length alone, and an answer with a number for its
id always gets a frame with that id. -/
theorem readFrames_exact (N : Numbers) (R : Reader σ IoError) (content : σ → Bytes)
    (h : R.Delivers content) :
    (∀ messages : List (Value N.Number),
      (∀ message ∈ messages, (toVec N message).length < MAX_OUTBOUND_BYTES) →
      ∃ frames, messages.mapM (encodeFrame N) = .ok frames ∧
        ∀ s fuel, content s = frames.flatten → messages.length < fuel →
          ∃ s', readFrames R fuel s = some (messages.map (toVec N), none, s')) ∧
    (∀ s fuel, (content s).length < fuel → ∃ payloads rest last s',
      readFrames R fuel s = some (payloads, last, s') ∧
      content s = (payloads.flatMap fun payload => toLeBytes payload.length ++ payload) ++ rest ∧
      (∀ payload ∈ payloads, payload.length ≤ MAX_INBOUND_BYTES) ∧ Ends rest last (content s')) ∧
    ∀ (message : Value N.Number) (n : N.Number), message.get "id" = some (.number n) →
      ∃ answer, encodeOrRefuse N message =
          some (toLeBytes (toVec N answer).length ++ toVec N answer) ∧
        (toVec N answer).length < MAX_OUTBOUND_BYTES ∧ answer.get "id" = some (.number n) := by
  refine ⟨fun messages hmessages => ?_, fun s fuel hfuel => exists_readFrames h fuel s hfuel,
    fun message n hid => exists_encodeOrRefuse hid⟩
  obtain ⟨frames, hframes, hflat⟩ := encodeFrames_of_lt hmessages
  refine ⟨frames, hframes, fun s fuel hcontent hfuel => ?_⟩
  rw [hflat] at hcontent
  refine readFrames_encodings h ?_ hcontent (by rwa [List.length_map])
  intro payload hpayload
  obtain ⟨message, hmem, rfl⟩ := List.mem_map.mp hpayload
  exact (hmessages message hmem).le

/-- The digit of a number below ten, and no other number. -/
def digits : Numbers where
  Number := Fin 10
  text n := [UInt8.ofNat (0x30 + n)]
  length_text _ := Nat.le_add_left 1 23

theorem readFrames_exact_digits : ∃ s', readFrames piecesReader 3
    ([1, 0, 0, 0, 0x37, 4, 0, 0, 0, 0x74, 0x72, 0x75, 0x65], [0, 1, 6]) =
      some ([[0x37], [0x74, 0x72, 0x75, 0x65]], none, s') := by
  obtain ⟨frames, hframes, hread⟩ := (readFrames_exact digits piecesReader Prod.fst
    piecesReader_delivers).1 [@Value.number digits.Number (7 : Fin 10), .bool true]
    (by decide +kernel)
  have hflat : frames.flatten = [1, 0, 0, 0, 0x37, 4, 0, 0, 0, 0x74, 0x72, 0x75, 0x65] := by
    have hsame : (Except.ok frames : Except FrameError (List Bytes)) =
        .ok [[1, 0, 0, 0, 0x37], [4, 0, 0, 0, 0x74, 0x72, 0x75, 0x65]] :=
      hframes.symm.trans (by decide +kernel)
    rw [Except.ok.inj hsame]
    rfl
  obtain ⟨s', h⟩ := hread ([1, 0, 0, 0, 0x37, 4, 0, 0, 0, 0x74, 0x72, 0x75, 0x65], [0, 1, 6]) 3
    hflat.symm (by decide)
  have hbodies : [@Value.number digits.Number (7 : Fin 10), .bool true].map (toVec digits) =
      [[0x37], [0x74, 0x72, 0x75, 0x65]] := by decide +kernel
  exact ⟨s', hbodies ▸ h⟩

end WarrenSdk.NativeHost.Wire
