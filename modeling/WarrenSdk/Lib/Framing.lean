import WarrenSdk.Lib.Bytes

/-!
# Messages behind their lengths

A stream of messages, each behind the four octets of its length, and a decoder that is given the
stream in chunks. Which messages are delivered does not depend on the chunks as long as no frame is
corrupt; where one is, the messages that came in the chunk that shows it are lost with it
(`drive_eq`).
-/

namespace WarrenSdk.Lib

/-- How a length is written, how long a message may be, and which octets are one. -/
structure Framing (μ : Type u) where
  size : Bytes → Nat
  spell : Nat → Bytes
  cap : Nat
  parse : Bytes → Option μ
  length_spell : ∀ n, (spell n).length = 4
  size_spell : ∀ n ≤ cap, size (spell n) = n

namespace Framing

variable {μ : Type u}

/-- What a buffer begins with: a frame with the octets that it takes, or one that is corrupt with
the octets that show it. -/
inductive Next (μ : Type u)
  | incomplete
  | corrupt (shown : Nat)
  | message (m : μ) (taken : Nat)

variable (F : Framing μ)

def next (buffer : Bytes) : Next μ :=
  if buffer.length < 4 then .incomplete
  else
    let length := F.size (buffer.take 4)
    if F.cap < length then .corrupt 4
    else if buffer.length < 4 + length then .incomplete
    else
      match F.parse ((buffer.drop 4).take length) with
      | none => .corrupt (4 + length)
      | some m => .message m (4 + length)

variable {F}

theorem taken_of_next (h : F.next b = .message m taken) : 4 ≤ taken ∧ taken ≤ b.length := by
  unfold next at h
  split at h
  · cases h
  · dsimp only at h
    split at h
    · cases h
    · split at h
      · cases h
      · split at h
        · cases h
        · cases h
          omega

theorem shown_of_next (h : F.next b = .corrupt shown) : 4 ≤ shown ∧ shown ≤ b.length := by
  unfold next at h
  split at h
  · cases h
  · dsimp only at h
    split at h
    · cases h
      omega
    · split at h
      · cases h
      · split at h
        · cases h
          omega
        · cases h

/-- What begins a buffer begins every longer one. -/
theorem next_append (h : F.next b ≠ .incomplete) (c : Bytes) : F.next (b ++ c) = F.next b := by
  unfold next at h ⊢
  split at h
  · exact absurd rfl h
  · next hlength =>
    have htake : (b ++ c).take 4 = b.take 4 := List.take_append_of_le_length (by omega)
    rw [if_neg hlength, if_neg (by rw [List.length_append]; omega), htake]
    dsimp only at h ⊢
    split at h
    · next hcap => rw [if_pos hcap, if_pos hcap]
    · next hcap =>
      split at h
      · exact absurd rfl h
      · next hfull =>
        have hdrop : ((b ++ c).drop 4).take (F.size (b.take 4)) =
            (b.drop 4).take (F.size (b.take 4)) := by
          rw [List.drop_append_of_le_length (by omega)]
          exact List.take_append_of_le_length (by rw [List.length_drop]; omega)
        rw [if_neg hcap, if_neg hcap, if_neg hfull,
          if_neg (by rw [List.length_append]; omega), hdrop]

theorem next_append_message (h : F.next b = .message m taken) (c : Bytes) :
    F.next (b ++ c) = .message m taken := by
  have hne : F.next b ≠ .incomplete := by
    rw [h]
    exact fun heq => by cases heq
  rw [next_append hne, h]

theorem next_append_corrupt (h : F.next b = .corrupt shown) (c : Bytes) :
    F.next (b ++ c) = .corrupt shown := by
  have hne : F.next b ≠ .incomplete := by
    rw [h]
    exact fun heq => by cases heq
  rw [next_append hne, h]

variable (F)

/-- The loop of a decoder: the messages, and what is left of the buffer; nothing where it throws. -/
def drain (buffer : Bytes) : List μ × Option Bytes :=
  match _h : F.next buffer with
  | .incomplete => ([], some buffer)
  | .corrupt _ => ([], none)
  | .message m taken =>
    let (ms, left) := drain (buffer.drop taken)
    (m :: ms, left)
termination_by buffer.length
decreasing_by
  have htaken := taken_of_next ‹_›
  rw [List.length_drop]
  omega

/-- `push`, and what the decoder holds then; `none` where it throws. -/
def push (buffer chunk : Bytes) : Option (List μ × Bytes) :=
  match F.drain (buffer ++ chunk) with
  | (ms, some left) => some (ms, left)
  | (_, none) => none

/-- The messages that are delivered up to the first chunk that fails, and what the decoder holds if
none does. -/
def drive : Bytes → List Bytes → List μ × Option Bytes
  | buffer, [] => ([], some buffer)
  | buffer, chunk :: chunks =>
    match F.push buffer chunk with
    | some (ms, buffer) =>
      let (ms', left) := drive buffer chunks
      (ms ++ ms', left)
    | none => ([], none)

/-! ## The frames of a stream -/

/-- The octets of a stream by which a corrupt frame shows. -/
def corruptAt (stream : Bytes) : Option Nat :=
  match _h : F.next stream with
  | .incomplete => none
  | .corrupt shown => some shown
  | .message _ taken => (corruptAt (stream.drop taken)).map (taken + ·)
termination_by stream.length
decreasing_by
  have htaken := taken_of_next ‹_›
  rw [List.length_drop]
  omega

/-- How many frames the first octets of a stream hold. -/
def framesWithin (stream : Bytes) (limit : Nat) : Nat :=
  match _h : F.next stream with
  | .incomplete => 0
  | .corrupt _ => 0
  | .message _ taken =>
    if taken ≤ limit then framesWithin (stream.drop taken) (limit - taken) + 1 else 0
termination_by stream.length
decreasing_by
  have htaken := taken_of_next ‹_›
  rw [List.length_drop]
  omega

/-- The last place before `shown` where a stream is cut, from one on where it is. -/
def lastCut (cut shown : Nat) : List Bytes → Nat
  | [] => cut
  | chunk :: chunks =>
    if cut + chunk.length < shown then lastCut (cut + chunk.length) shown chunks else cut

/-- As many frames of a stream end before the last cut of each of two cuttings that comes before a
corrupt frame shows. -/
def SameFrames (stream : Bytes) (chunks chunks' : List Bytes) : Prop :=
  ∀ shown, F.corruptAt stream = some shown →
    F.framesWithin stream (lastCut 0 shown chunks) = F.framesWithin stream (lastCut 0 shown chunks')

variable {F}

theorem drain_message (h : F.next b = .message m taken) :
    F.drain b = (m :: (F.drain (b.drop taken)).1, (F.drain (b.drop taken)).2) := by
  rw [drain]
  split
  · next h' => rw [h] at h'; cases h'
  · next h' => rw [h] at h'; cases h'
  · next h' => rw [h] at h'; cases h'; rfl

theorem drain_incomplete (h : F.next b = .incomplete) : F.drain b = ([], some b) := by
  rw [drain]
  split
  · rfl
  · next h' => rw [h] at h'; cases h'
  · next h' => rw [h] at h'; cases h'

theorem drain_corrupt (h : F.next b = .corrupt shown) : F.drain b = ([], none) := by
  rw [drain]
  split
  · next h' => rw [h] at h'; cases h'
  · rfl
  · next h' => rw [h] at h'; cases h'

theorem corruptAt_message (h : F.next b = .message m taken) :
    F.corruptAt b = (F.corruptAt (b.drop taken)).map (taken + ·) := by
  rw [corruptAt]
  split
  · next h' => rw [h] at h'; cases h'
  · next h' => rw [h] at h'; cases h'
  · next h' => rw [h] at h'; cases h'; rfl

theorem corruptAt_incomplete (h : F.next b = .incomplete) : F.corruptAt b = none := by
  rw [corruptAt]
  split
  · rfl
  · next h' => rw [h] at h'; cases h'
  · next h' => rw [h] at h'; cases h'

theorem corruptAt_corrupt (h : F.next b = .corrupt shown) : F.corruptAt b = some shown := by
  rw [corruptAt]
  split
  · next h' => rw [h] at h'; cases h'
  · next h' => rw [h] at h'; cases h'; rfl
  · next h' => rw [h] at h'; cases h'

theorem framesWithin_message (h : F.next b = .message m taken) (limit : Nat) :
    F.framesWithin b limit =
      if taken ≤ limit then F.framesWithin (b.drop taken) (limit - taken) + 1 else 0 := by
  rw [framesWithin]
  split
  · next h' => rw [h] at h'; cases h'
  · next h' => rw [h] at h'; cases h'
  · next h' => rw [h] at h'; cases h'; rfl

theorem framesWithin_none (h : ∀ m taken, F.next b = .message m taken → limit < taken) :
    F.framesWithin b limit = 0 := by
  rw [framesWithin]
  split
  · rfl
  · rfl
  · next h' => rw [if_neg (Nat.not_le.mpr (h _ _ h'))]

/-- An end of a frame that is not in the buffer is behind it. -/
theorem length_lt_of_incomplete (h : F.next b = .incomplete) (c : Bytes) :
    (∀ m taken, F.next (b ++ c) = .message m taken → b.length < taken) ∧
      ∀ shown, F.next (b ++ c) = .corrupt shown → b.length < shown := by
  by_cases hlength : b.length < 4
  · constructor
    · intro m taken hnext
      exact Nat.lt_of_lt_of_le hlength (taken_of_next hnext).1
    · intro shown hnext
      exact Nat.lt_of_lt_of_le hlength (shown_of_next hnext).1
  · have htake : (b ++ c).take 4 = b.take 4 := List.take_append_of_le_length (by omega)
    unfold next at h ⊢
    rw [if_neg hlength] at h
    rw [if_neg (by rw [List.length_append]; omega), htake]
    dsimp only at h ⊢
    split at h
    · cases h
    · next hcap =>
      split at h
      · next hshort =>
        rw [if_neg hcap]
        split
        · constructor <;> (intros; contradiction)
        · split
          · refine ⟨fun _ _ heq => (by cases heq), fun shown heq => ?_⟩
            cases heq
            exact hshort
          · refine ⟨fun m taken heq => ?_, fun _ heq => (by cases heq)⟩
            cases heq
            exact hshort
      · split at h <;> cases h

theorem lt_corruptAt (h : F.next b = .incomplete) (hc : F.corruptAt (b ++ c) = some shown) :
    b.length < shown := by
  obtain ⟨hmessage, hcorrupt⟩ := length_lt_of_incomplete h c
  cases hnext : F.next (b ++ c) with
  | incomplete =>
    rw [corruptAt_incomplete hnext] at hc
    cases hc
  | corrupt shown' =>
    rw [corruptAt_corrupt hnext] at hc
    cases hc
    exact hcorrupt _ hnext
  | message m taken =>
    rw [corruptAt_message hnext] at hc
    obtain ⟨more, -, rfl⟩ := Option.map_eq_some_iff.mp hc
    exact Nat.lt_of_lt_of_le (hmessage m taken hnext) (Nat.le_add_right ..)

/-- What a loop that ends leaves to do when there are more octets: the frames of what is left. -/
structure Left (F : Framing μ) (b left : Bytes) (taken : Nat) (c : Bytes) : Prop where
  incomplete : F.next left = .incomplete
  length : b.length = taken + left.length
  drain : F.drain (b ++ c) =
    ((F.drain b).1 ++ (F.drain (left ++ c)).1, (F.drain (left ++ c)).2)
  corruptAt : F.corruptAt (b ++ c) = (F.corruptAt (left ++ c)).map (taken + ·)
  framesWithin : ∀ limit, F.framesWithin (b ++ c) (taken + limit) =
    (F.drain b).1.length + F.framesWithin (left ++ c) limit

theorem exists_left (h : (F.drain b).2 = some left) :
    ∃ taken, ∀ c, F.Left b left taken c := by
  induction b using drain.induct F with
  | case1 b hnext =>
    rw [drain_incomplete hnext] at h
    cases h
    refine ⟨0, fun c => ⟨hnext, (Nat.zero_add _).symm, ?_, ?_, fun limit => ?_⟩⟩
    · rw [drain_incomplete hnext]
      rfl
    · simp
    · rw [drain_incomplete hnext]
      simp
  | case2 b shown hnext =>
    rw [drain_corrupt hnext] at h
    cases h
  | case3 b m taken hnext _ _ _ ih =>
    rw [drain_message hnext] at h
    obtain ⟨more, hleft⟩ := ih h
    obtain ⟨-, htaken⟩ := taken_of_next hnext
    refine ⟨taken + more, fun c => ?_⟩
    have htail := hleft c
    have hnext' := next_append_message hnext c
    have hdrop : (b ++ c).drop taken = b.drop taken ++ c := List.drop_append_of_le_length htaken
    refine ⟨htail.incomplete, ?_, ?_, ?_, fun limit => ?_⟩
    · have hlength := htail.length
      rw [List.length_drop] at hlength
      omega
    · rw [drain_message hnext', drain_message hnext, hdrop, htail.drain]
      rfl
    · rw [corruptAt_message hnext', hdrop, htail.corruptAt, Option.map_map]
      congr 1
      funext shown
      exact (Nat.add_assoc ..).symm
    · have hlimit : taken + more + limit - taken = more + limit := by omega
      rw [framesWithin_message hnext', if_pos (by omega), hdrop, hlimit, htail.framesWithin,
        drain_message hnext, List.length_cons]
      omega

/-- A loop that throws throws at the same frame when there are more octets. -/
theorem corruptAt_append (h : (F.drain b).2 = none) :
    ∃ shown ≤ b.length, ∀ c, F.corruptAt (b ++ c) = some shown ∧ (F.drain (b ++ c)).2 = none := by
  induction b using drain.induct F with
  | case1 b hnext =>
    rw [drain_incomplete hnext] at h
    cases h
  | case2 b shown hnext =>
    refine ⟨shown, (shown_of_next hnext).2, fun c => ?_⟩
    have hnext' := next_append_corrupt hnext c
    exact ⟨corruptAt_corrupt hnext', by rw [drain_corrupt hnext']⟩
  | case3 b m taken hnext _ _ _ ih =>
    rw [drain_message hnext] at h
    obtain ⟨shown, hshown, hthrows⟩ := ih h
    obtain ⟨-, htaken⟩ := taken_of_next hnext
    rw [List.length_drop] at hshown
    refine ⟨taken + shown, by omega, fun c => ?_⟩
    have hnext' := next_append_message hnext c
    have hdrop : (b ++ c).drop taken = b.drop taken ++ c := List.drop_append_of_le_length htaken
    obtain ⟨hcorrupt, hdrain⟩ := hthrows c
    constructor
    · rw [corruptAt_message hnext', hdrop, hcorrupt]
      rfl
    · rw [drain_message hnext', hdrop]
      exact hdrain

theorem push_of_none (h : (F.drain (b ++ c)).2 = none) : F.push b c = none := by
  unfold push
  split
  · next heq =>
    rw [heq] at h
    cases h
  · rfl

theorem push_of_some (h : (F.drain (b ++ c)).2 = some left) :
    F.push b c = some ((F.drain (b ++ c)).1, left) := by
  unfold push
  split
  · next heq =>
    rw [heq] at h ⊢
    cases h
    rfl
  · next heq =>
    rw [heq] at h
    cases h

theorem lastCut_add (taken cut shown : Nat) (chunks : List Bytes) :
    lastCut (taken + cut) (taken + shown) chunks = taken + lastCut cut shown chunks := by
  induction chunks generalizing cut with
  | nil => rfl
  | cons chunk chunks ih =>
    rw [lastCut, lastCut]
    split
    · rw [if_pos (by omega), Nat.add_assoc, ih]
    · rw [if_neg (by omega)]

/-- What a decoder delivers of a stream, by the frames of the stream and the place of its last cut
before a corrupt one shows. -/
theorem drive_eq (h : F.next b = .incomplete) (chunks : List Bytes) :
    F.drive b chunks =
      match F.corruptAt (b ++ chunks.flatten) with
      | none => F.drain (b ++ chunks.flatten)
      | some shown =>
        ((F.drain (b ++ chunks.flatten)).1.take
          (F.framesWithin (b ++ chunks.flatten) (lastCut b.length shown chunks)), none) := by
  induction chunks generalizing b with
  | nil =>
    rw [List.flatten_nil, List.append_nil, corruptAt_incomplete h, drain_incomplete h, drive]
  | cons chunk chunks ih =>
    rw [List.flatten_cons, ← List.append_assoc]
    cases hleft : (F.drain (b ++ chunk)).2 with
    | none =>
      obtain ⟨shown, hshown, hthrows⟩ := corruptAt_append hleft
      have hnone : F.framesWithin (b ++ chunk ++ chunks.flatten) b.length = 0 := by
        rw [List.append_assoc]
        exact framesWithin_none (length_lt_of_incomplete h _).1
      rw [List.length_append] at hshown
      rw [(hthrows _).1]
      dsimp only
      rw [lastCut, if_neg (by omega), hnone, drive, push_of_none hleft, List.take_zero]
    | some left =>
      obtain ⟨taken, hspec⟩ := exists_left hleft
      have htail := hspec chunks.flatten
      have hlength := htail.length
      rw [List.length_append] at hlength
      rw [htail.corruptAt, drive, push_of_some hleft]
      dsimp only
      rw [ih htail.incomplete]
      cases hcorrupt : F.corruptAt (left ++ chunks.flatten) with
      | none =>
        rw [Option.map_none]
        dsimp only
        rw [htail.drain]
      | some shown =>
        have hshown := lt_corruptAt htail.incomplete hcorrupt
        have hcut : lastCut b.length (taken + shown) (chunk :: chunks) =
            taken + lastCut left.length shown chunks := by
          rw [lastCut, if_pos (by omega), hlength, lastCut_add]
        rw [Option.map_some]
        dsimp only
        rw [hcut, htail.framesWithin, htail.drain, List.take_length_add_append]

@[simp] theorem next_nil : F.next [] = .incomplete := if_pos (by decide)

theorem framesWithin_le (b : Bytes) (limit : Nat) :
    F.framesWithin b limit ≤ (F.drain b).1.length := by
  induction b using drain.induct F generalizing limit with
  | case1 b hnext =>
    rw [framesWithin_none fun m taken heq => by rw [hnext] at heq; cases heq]
    exact Nat.zero_le _
  | case2 b shown hnext =>
    rw [framesWithin_none fun m taken heq => by rw [hnext] at heq; cases heq]
    exact Nat.zero_le _
  | case3 b m taken hnext _ _ _ ih =>
    rw [framesWithin_message hnext, drain_message hnext, List.length_cons]
    split
    · exact Nat.succ_le_succ (ih _)
    · exact Nat.zero_le _

/-- Two cuttings of one stream deliver the same exactly when no frame is corrupt, or as many frames
end before the last cut of each that comes before the corrupt one shows. -/
theorem drive_eq_iff {chunks chunks' : List Bytes} (h : chunks.flatten = stream)
    (h' : chunks'.flatten = stream) :
    F.drive [] chunks = F.drive [] chunks' ↔ F.SameFrames stream chunks chunks' := by
  unfold SameFrames
  rw [drive_eq next_nil, drive_eq next_nil, h, h', List.nil_append, List.length_nil]
  cases F.corruptAt stream with
  | none => exact ⟨fun _ _ heq => (by cases heq), fun _ => rfl⟩
  | some shown =>
    have hle := F.framesWithin_le stream (lastCut 0 shown chunks)
    have hle' := F.framesWithin_le stream (lastCut 0 shown chunks')
    constructor
    · intro heq shown' hshown
      cases hshown
      have hlength := congrArg (List.length ∘ Prod.fst) heq
      simp only [Function.comp, List.length_take] at hlength
      omega
    · intro heq
      dsimp only
      rw [heq shown rfl]

/-! ## Streams of encodings -/

def encode (F : Framing μ) (payload : Bytes) : Bytes := F.spell payload.length ++ payload

theorem next_encode (hlength : payload.length ≤ F.cap) (hparse : F.parse payload = some m)
    (rest : Bytes) : F.next (F.encode payload ++ rest) = .message m (4 + payload.length) := by
  have hspell := F.length_spell payload.length
  have hhead : (F.encode payload ++ rest).take 4 = F.spell payload.length := by
    rw [encode, List.append_assoc, List.take_append_of_le_length (by omega), List.take_of_length_le]
    omega
  have htail : (F.encode payload ++ rest).drop 4 = payload ++ rest := by
    rw [encode, List.append_assoc, List.drop_append_of_le_length (by omega),
      List.drop_of_length_le (by omega), List.nil_append]
  have hall : (F.encode payload ++ rest).length = 4 + payload.length + rest.length := by
    rw [encode, List.length_append, List.length_append, hspell]
  unfold next
  rw [if_neg (by omega), hhead, F.size_spell _ hlength]
  dsimp only
  rw [if_neg (by omega), if_neg (by omega), htail, List.take_left, hparse]

theorem drain_encodings {frames : List (Bytes × μ)}
    (h : ∀ frame ∈ frames, frame.1.length ≤ F.cap ∧ F.parse frame.1 = some frame.2) :
    F.drain (frames.flatMap fun frame => F.encode frame.1) = (frames.map Prod.snd, some []) ∧
      F.corruptAt (frames.flatMap fun frame => F.encode frame.1) = none := by
  induction frames with
  | nil => exact ⟨drain_incomplete next_nil, corruptAt_incomplete next_nil⟩
  | cons frame frames ih =>
    obtain ⟨hlength, hparse⟩ := h frame (List.mem_cons_self ..)
    obtain ⟨hdrain, hcorrupt⟩ := ih fun frame hmem => h frame (List.mem_cons_of_mem _ hmem)
    have hnext := next_encode hlength hparse (frames.flatMap fun frame => F.encode frame.1)
    have hdrop : (F.encode frame.1 ++ frames.flatMap fun frame => F.encode frame.1).drop
        (4 + frame.1.length) = frames.flatMap fun frame => F.encode frame.1 := by
      have hsize : (F.encode frame.1).length = 4 + frame.1.length := by
        rw [encode, List.length_append, F.length_spell]
      rw [← hsize, List.drop_left]
    rw [List.flatMap_cons, drain_message hnext, corruptAt_message hnext, hdrop, hdrain, hcorrupt]
    exact ⟨rfl, rfl⟩

/-- However a stream of encodings is cut, its messages are delivered and nothing is left. -/
theorem drive_encodings {frames : List (Bytes × μ)} {chunks : List Bytes}
    (h : ∀ frame ∈ frames, frame.1.length ≤ F.cap ∧ F.parse frame.1 = some frame.2)
    (hc : chunks.flatten = frames.flatMap fun frame => F.encode frame.1) :
    F.drive [] chunks = (frames.map Prod.snd, some []) := by
  obtain ⟨hdrain, hcorrupt⟩ := drain_encodings h
  rw [drive_eq next_nil, List.nil_append, hc, hcorrupt, hdrain]

end Framing

end WarrenSdk.Lib
