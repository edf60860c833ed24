import Mathlib.Data.List.Infix
import WarrenSdk.Core.Edge.FrameStream

/-!
# Reading a frame off a stream (`edge.ts`)

The reply to a setup is one frame on a stream that stays open. After every read the whole decoder is
run on what has arrived, and only an error that says `truncated` lets the loop read on.
-/

namespace WarrenSdk.Extension.Edge

open Lib WarrenSdk.Core

/-- What a `read` resolves with. -/
structure ReadResult where
  value : Option Bytes
  done : Bool

def ReadResult.chunk (value : Bytes) : ReadResult := { value := some value, done := false }

def ReadResult.eof : ReadResult := { value := none, done := true }

/-- The error is a `RangeError` with `truncated` in its message. -/
def retryable (e : Core.Failure) : Bool :=
  match e with
  | .range message => decide ("truncated".toList <:+: message.toList)
  | _ => false

/-- A pass of the loop before it reads: the frame, or an error that ends it. -/
def attempt (buf : Uint8Array) : Option (Except Core.Failure WarrenMultihopFrame) :=
  if buf.1.length > 0 then
    match decodeMultihopFrame buf with
    | .ok frame => some (.ok frame)
    | .error e => if retryable e then none else some (.error e)
  else none

def append (buf : Uint8Array) (value : Option Bytes) : Except Core.Failure Uint8Array :=
  match value with
  | some value => if value.length > 0 then newUint8Array (buf.1 ++ value) else .ok buf
  | none => .ok buf

/-- The loop of `readOneFrame` and the reads that it leaves; `none` while it waits for a read. -/
def readLoop : Uint8Array → List ReadResult →
    Option (Except Core.Failure WarrenMultihopFrame × List ReadResult)
  | buf, [] => (attempt buf).map fun result => (result, [])
  | buf, read :: reads =>
    match attempt buf with
    | some result => some (result, read :: reads)
    | none =>
      match append buf read.value with
      | .error e => some (.error e, reads)
      | .ok buf => if read.done then some (decodeMultihopFrame buf, reads) else readLoop buf reads

def emptyBuf : Uint8Array := ⟨[], lt_MAX_EXACT (Nat.two_pow_pos 53)⟩

def readOneFrame (reads : List ReadResult) :
    Option (Except Core.Failure WarrenMultihopFrame × List ReadResult) :=
  readLoop emptyBuf reads

theorem retryable_of_truncation (h : Truncation e) : retryable e = true := by
  obtain ⟨text, rfl⟩ := h
  have hinfix : "truncated".toList <:+: ("truncated" ++ text).toList := by
    rw [String.toList_append]
    exact (List.prefix_append _ _).isInfix
  exact decide_eq_true hinfix

/-- The loop ends at the last at the end of the stream. -/
theorem readLoop_isSome (h : ∃ read ∈ reads, read.done = true) (buf : Uint8Array) :
    (readLoop buf reads).isSome := by
  induction reads generalizing buf with
  | nil =>
    obtain ⟨read, hmem, -⟩ := h
    cases hmem
  | cons read reads ih =>
    rw [readLoop]
    split
    · rfl
    · split
      · rfl
      · split
        · rfl
        · next hdone =>
          refine ih ?_ _
          obtain ⟨read', hmem, hread'⟩ := h
          obtain rfl | hmem := List.mem_cons.mp hmem
          · exact absurd hread' hdone
          · exact ⟨read', hmem, hread'⟩

/-! ## The parts of a frame -/

section
variable {f : WarrenMultihopFrame} {b : Uint8Array}

theorem exists_wire (hv : f.version = WARREN_HPKE_VERSION) (h : encodeMultihopFrame f = .ok b)
    (hepoch : f.epoch < 2 ^ 32) (hseq : f.seq < 2 ^ 64) :
    ∃ w : Wire, w.Valid ∧ w.bytes = b.1 ∧ decodeMultihopFrame b = .ok f := by
  have hdecode := decodeMultihopFrame_encode hv h hepoch hseq
  obtain ⟨w, hvalid, hbytes, -⟩ := decodeMultihopFrame_eq_ok.mp hdecode
  exact ⟨w, hvalid, hbytes, hdecode⟩

variable {w : Wire}

/-- A part of a frame makes the loop read on. -/
theorem attempt_part (hvalid : w.Valid) (hb : buf.1 <+: w.bytes) (hne : buf.1 ≠ w.bytes) :
    attempt buf = none := by
  unfold attempt
  split
  · obtain ⟨e, he, htruncated⟩ := decodeMultihopFrame_waits hvalid hb hne
    rw [he]
    dsimp only
    rw [if_pos (retryable_of_truncation htruncated)]
  · rfl

theorem append_chunk (buf : Uint8Array) (value : Bytes)
    (h : (buf.1 ++ value).length < MAX_EXACT) :
    append buf (some value) = .ok ⟨buf.1 ++ value, h⟩ := by
  unfold append
  dsimp only
  split
  · exact dif_pos h
  · next hempty =>
    have hnil : value = [] := List.length_eq_zero_iff.mp (by omega)
    subst hnil
    simp

theorem readLoop_of_attempt (h : attempt buf = some result) (reads : List ReadResult) :
    readLoop buf reads = some (result, reads) := by
  cases reads with
  | nil => rw [readLoop, h, Option.map_some]
  | cons read reads => rw [readLoop, h]

/-- A chunk behind a part of a frame is taken in. -/
theorem readLoop_chunk (hvalid : w.Valid) (hb : buf.1 <+: w.bytes) (hne : buf.1 ≠ w.bytes)
    (h : (buf.1 ++ value).length < MAX_EXACT) (reads : List ReadResult) :
    readLoop buf (.chunk value :: reads) = readLoop ⟨buf.1 ++ value, h⟩ reads := by
  rw [readLoop, attempt_part hvalid hb hne]
  dsimp only [ReadResult.chunk]
  rw [append_chunk buf value h]
  rfl

theorem readLoop_complete (hvalid : w.Valid) (hbytes : w.bytes = b.1)
    (hdecode : decodeMultihopFrame b = .ok f) {chunks : List Bytes} {buf : Uint8Array}
    (hc : buf.1 ++ chunks.flatten = b.1) (hne : buf.1 ≠ b.1) :
    ∃ before last after, chunks = before ++ last :: after ∧ buf.1 ++ before.flatten ≠ b.1 ∧
      buf.1 ++ (before ++ [last]).flatten = b.1 ∧
        ∀ more, readLoop buf (chunks.map .chunk ++ more) =
          some (.ok f, after.map .chunk ++ more) := by
  induction chunks generalizing buf with
  | nil => exact absurd ((List.append_nil _).symm.trans hc) hne
  | cons value chunks ih =>
    rw [List.flatten_cons, ← List.append_assoc] at hc
    have hpart : buf.1 <+: w.bytes := by
      rw [hbytes, ← hc, List.append_assoc]
      exact List.prefix_append _ _
    have hlength : (buf.1 ++ value).length < MAX_EXACT := by
      refine Nat.lt_of_le_of_lt ?_ b.2
      rw [← hc]
      exact (List.prefix_append _ _).length_le
    have hread (more : List ReadResult) :=
      readLoop_chunk hvalid hpart (hbytes ▸ hne) hlength (chunks.map .chunk ++ more)
    by_cases hlast : buf.1 ++ value = b.1
    · refine ⟨[], value, chunks, rfl, ?_, ?_, fun more => ?_⟩
      · simpa using hne
      · simpa using hlast
      · have hbuf : (⟨buf.1 ++ value, hlength⟩ : Uint8Array) = b := Subtype.ext hlast
        have hpos : b.1.length > 0 := by
          rw [← hbytes, Wire.bytes]
          exact Nat.succ_pos _
        have hattempt : attempt b = some (.ok f) := by
          unfold attempt
          rw [if_pos hpos, hdecode]
        rw [List.map_cons, List.cons_append, hread, hbuf, readLoop_of_attempt hattempt]
    · have hnext : (⟨buf.1 ++ value, hlength⟩ : Uint8Array).1 ++ chunks.flatten = b.1 := hc
      obtain ⟨before, last, after, rfl, hbefore, hend, hresult⟩ := ih hnext hlast
      refine ⟨value :: before, last, after, rfl, ?_, ?_, fun more => ?_⟩
      · rwa [List.flatten_cons, ← List.append_assoc]
      · rwa [List.cons_append, List.flatten_cons, ← List.append_assoc]
      · rw [List.map_cons, List.cons_append, hread, hresult]

theorem readLoop_incomplete (hvalid : w.Valid) {chunks : List Bytes} {buf : Uint8Array}
    (hlt : w.bytes.length < MAX_EXACT) (hc : buf.1 ++ chunks.flatten <+: w.bytes)
    (hne : buf.1 ++ chunks.flatten ≠ w.bytes) (more : List ReadResult) :
    ∃ e, Truncation e ∧
      readLoop buf (chunks.map .chunk ++ .eof :: more) = some (.error e, more) := by
  induction chunks generalizing buf with
  | nil =>
    rw [List.flatten_nil, List.append_nil] at hc hne
    obtain ⟨e, he, htruncated⟩ := decodeMultihopFrame_waits hvalid hc hne
    refine ⟨e, htruncated, ?_⟩
    rw [List.map_nil, List.nil_append, readLoop, attempt_part hvalid hc hne]
    change some (decodeMultihopFrame buf, more) = _
    rw [he]
  | cons value chunks ih =>
    rw [List.flatten_cons, ← List.append_assoc] at hc hne
    have hpart : buf.1 ++ value <+: w.bytes := (List.prefix_append _ _).trans hc
    have hlength : (buf.1 ++ value).length < MAX_EXACT := Nat.lt_of_le_of_lt hpart.length_le hlt
    have hnext : (⟨buf.1 ++ value, hlength⟩ : Uint8Array).1 ++ chunks.flatten <+: w.bytes := hc
    obtain ⟨e, htruncated, hresult⟩ := ih hnext hne
    refine ⟨e, htruncated, ?_⟩
    have hshort : buf.1 ≠ w.bytes := by
      intro heq
      have hle := hc.length_le
      rw [List.length_append, List.length_append, heq] at hle
      have hnil : value ++ chunks.flatten = [] :=
        List.length_eq_zero_iff.mp (by rw [List.length_append]; omega)
      exact hne (by rw [List.append_assoc, hnil, List.append_nil, heq])
    rw [List.map_cons, List.cons_append,
      readLoop_chunk hvalid ((List.prefix_append _ _).trans hpart) hshort hlength, hresult]

end

/-- A frame is read whole as soon as its last octet has arrived, in whatever chunks; a part of it at
the end of the stream is truncated, and never another error; and at the end of a stream the loop
ends. -/
theorem readOneFrame_spec :
    (∀ f b, f.version = WARREN_HPKE_VERSION → encodeMultihopFrame f = .ok b → f.epoch < 2 ^ 32 →
      f.seq < 2 ^ 64 →
      (∀ chunks : List Bytes, chunks.flatten = b.1 → ∃ before last after,
        chunks = before ++ last :: after ∧ before.flatten ≠ b.1 ∧ (before ++ [last]).flatten = b.1 ∧
          ∀ more, readOneFrame (chunks.map .chunk ++ more) =
            some (.ok f, after.map .chunk ++ more)) ∧
      (∀ chunks : List Bytes, chunks.flatten <+: b.1 → chunks.flatten ≠ b.1 → ∀ more, ∃ e,
        Truncation e ∧
        readOneFrame (chunks.map .chunk ++ .eof :: more) = some (.error e, more)) ∧
      (∀ part : Uint8Array, part.1 <+: b.1 → ∀ e, decodeMultihopFrame part = .error e →
        retryable e = true)) ∧
    ∀ reads, (∃ read ∈ reads, read.done = true) → (readOneFrame reads).isSome := by
  refine ⟨fun f b hv h hepoch hseq => ?_, fun reads hdone => readLoop_isSome hdone emptyBuf⟩
  obtain ⟨w, hvalid, hbytes, hdecode⟩ := exists_wire hv h hepoch hseq
  refine ⟨fun chunks hc => ?_, fun chunks hc hne more => ?_, fun part hpart e he => ?_⟩
  · have hall : emptyBuf.1 ++ chunks.flatten = b.1 := hc
    refine readLoop_complete hvalid hbytes hdecode hall ?_
    rw [← hbytes]
    exact (List.cons_ne_nil _ _).symm
  · have hpart : emptyBuf.1 ++ chunks.flatten <+: w.bytes := hbytes ▸ hc
    exact readLoop_incomplete hvalid (hbytes ▸ b.2) hpart (hbytes ▸ hne) more
  · have hne : part.1 ≠ w.bytes := by
      rw [hbytes]
      intro heq
      rw [Subtype.ext heq, hdecode] at he
      cases he
    obtain ⟨e', he', htruncated⟩ := decodeMultihopFrame_waits hvalid (hbytes ▸ hpart) hne
    rw [he] at he'
    cases he'
    exact retryable_of_truncation htruncated

/-- The octets of an empty frame. -/
def zeroBytes : Bytes := (zeroFrame [0]).bytes

/-- An empty frame in three chunks, the last of them empty. -/
theorem readOneFrame_zeroBytes : ∃ before last after,
    [zeroBytes.take 20, zeroBytes.drop 20, []] = before ++ last :: after ∧
      before.flatten ≠ zeroBytes ∧ (before ++ [last]).flatten = zeroBytes ∧
        ∀ more, readOneFrame ([zeroBytes.take 20, zeroBytes.drop 20, []].map .chunk ++ more) =
          some (.ok (zeroFrame [0]).frame, after.map .chunk ++ more) := by
  have hzero : toLeb 0 = [0] := toLeb_of_lt (by decide)
  have hbody : ((zeroFrame [0]).frame.wire 0 0).body = (zeroFrame [0]).body := by
    simp only [Wire.body, WarrenMultihopFrame.wire, Wire.frame, zeroFrame, hzero, List.length_nil]
  have hencode : encodeMultihopFrame (zeroFrame [0]).frame = .ok ⟨zeroBytes, by decide⟩ := by
    refine encodeMultihopFrame_eq_ok.mpr ⟨rfl, rfl, rfl, 0, 0, by decide, rfl, ?_⟩
    rw [hbody]
    rfl
  exact (readOneFrame_spec.1 _ _ rfl hencode (by decide) (by decide)).1
    [zeroBytes.take 20, zeroBytes.drop 20, []] (by decide)

end WarrenSdk.Extension.Edge
