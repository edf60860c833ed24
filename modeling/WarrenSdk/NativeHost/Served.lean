import WarrenSdk.Lib.Run
import WarrenSdk.NativeHost.ServeRequests

/-!
# What a connection is served

Between the octets that come in and those that go out: the requests that are taken are those of the
frames, in order, and the loop ends for the reason that the stream gives (`received_of_stream`);
each of them gets one frame with its id, unless the drain runs out or the pipe breaks
(`answered_on_pipe`); and no tunnel outlives the loop (`torn_down`).
-/

namespace WarrenSdk.NativeHost
open Lib

namespace Host
variable {N : Spelling} {C : Crates} {σ : Type} {R : Reader σ Wire.IoError} {s s' : Host σ}

/-! ## What comes in -/

/-- The requests of a stream, given its payloads and how it ends, and the exit that it asks for. -/
def dispatch (C : Crates) : List Bytes → Option Wire.FrameError → List Envelope × HostExit
  | [], none => ([], .endOfStream)
  | [], some _ => ([], .corruptStream)
  | payload :: payloads, last =>
    match decodeRequest C payload with
    | .request envelope =>
      let (envelopes, exit) := dispatch C payloads last
      (envelope :: envelopes, exit)
    | .ignored => dispatch C payloads last
    | .corrupt => ([], .corruptStream)

/-- The last frame of a stream. -/
def lastFrame : Option Wire.FrameError → Frame
  | none => .ok none
  | some e => .error e

def payloadFrame (payload : Bytes) : Frame := .ok (some payload)

variable {last : Option Wire.FrameError} {payloads : List Bytes}

/-- The payloads that the loop has still to take: those of the queue, and those that the reader has
still to read. -/
inductive Upcoming (R : Reader σ Wire.IoError) (last : Option Wire.FrameError) (s : Host σ) :
    List Bytes → Prop
  | reading {queued unread : List Bytes} {fuel : Nat} {left : σ} (hreading : s.reading = true)
      (hqueue : s.queue = queued.map payloadFrame)
      (h : Wire.readFrames R fuel s.reader = some (unread, last, left)) :
    Upcoming R last s (queued ++ unread)
  | read (hreading : s.reading = false)
      (hqueue : s.queue = queued.map payloadFrame ++ [lastFrame last]) : Upcoming R last s queued

/-- What was taken and what is upcoming make the stream. -/
inductive Taken (C : Crates) (R : Reader σ Wire.IoError) (payloads : List Bytes)
    (last : Option Wire.FrameError) (s : Host σ) : Prop
  | serving (hphase : s.phase = .serving) (hexit : s.exit = none) (h : Upcoming R last s rest)
      (hd : dispatch C payloads last =
        (s.received ++ (dispatch C rest last).1, (dispatch C rest last).2))
  | left {exit : HostExit} (hphase : s.phase ≠ .serving) (hexit : s.exit = some exit)
      (h : exit = .signalled ∧ s.received <+: (dispatch C payloads last).1 ∨
        dispatch C payloads last = (s.received, exit))

variable {exit : HostExit} {frame : Frame} {queue : List Frame} {reader : σ} {rest : List Bytes}

theorem Upcoming.congr (h : Upcoming R last s rest) (hreading : s'.reading = s.reading)
    (hqueue : s'.queue = s.queue) (hreader : s'.reader = s.reader) : Upcoming R last s' rest := by
  cases h with
  | reading hr hq hf => exact .reading (hreading.trans hr) (hqueue.trans hq) (hreader ▸ hf)
  | read hr hq => exact .read (hreading.trans hr) (hqueue.trans hq)

theorem Taken.congr (h : Taken C R payloads last s) (hreading : s'.reading = s.reading)
    (hqueue : s'.queue = s.queue) (hreader : s'.reader = s.reader)
    (hphase : s'.phase = .serving ↔ s.phase = .serving) (hexit : s'.exit = s.exit)
    (hreceived : s'.received = s.received) : Taken C R payloads last s' := by
  cases h with
  | serving hp he hu hd =>
    refine .serving (hphase.mpr hp) (hexit.trans he) (hu.congr hreading hqueue hreader) ?_
    rw [hreceived]
    exact hd
  | left hp he h =>
    refine .left (fun hs => hp (hphase.mp hs)) (hexit.trans he) ?_
    rw [hreceived]
    exact h

theorem phase_leave (exit : HostExit) (s : Host σ) : (s.leave exit).phase ≠ .serving := by
  unfold Host.leave
  simp only
  split <;> nofun

/-- The reader reads one frame. -/
theorem Upcoming.step (h : Upcoming R last s rest) (hreading : s.reading = true)
    (hread : Wire.readFrame R s.reader = (frame, reader)) :
    Upcoming R last
      { s with reader, queue := s.queue ++ [frame], reading := Frame.isPayload frame } rest := by
  cases h with
  | read hr hq => cases hreading.symm.trans hr
  | @reading queued unread fuel left hr hq hf =>
    cases fuel with
    | zero => cases hf
    | succ fuel =>
      rw [Wire.readFrames, hread] at hf
      cases frame with
      | error e =>
        cases hf
        rw [List.append_nil]
        exact .read rfl (congrArg (· ++ [lastFrame (some e)]) hq)
      | ok next =>
        cases next with
        | none =>
          cases hf
          rw [List.append_nil]
          exact .read rfl (congrArg (· ++ [lastFrame none]) hq)
        | some payload =>
          obtain ⟨⟨unread', last', left'⟩, hrest, heq⟩ := Option.map_eq_some_iff.mp hf
          cases heq
          rw [List.append_cons queued payload unread']
          refine .reading rfl ?_ hrest
          rw [List.map_append, ← hq]
          rfl

/-- The loop takes one frame. -/
theorem Taken.take (h : Taken C R payloads last s) (hphase : s.phase = .serving)
    (hqueue : s.queue = frame :: queue) :
    Taken C R payloads last ({ s with queue }.take C frame) := by
  cases h with
  | left hp => exact absurd hphase hp
  | @serving rest _ he hu hd =>
    -- What is next is a payload, or the end of the stream.
    have hnext : (∃ payload rest', frame = payloadFrame payload ∧ rest = payload :: rest' ∧
        Upcoming R last { s with queue } rest') ∨ frame = lastFrame last ∧ rest = [] := by
      cases hu with
      | @reading queued unread _ _ hr hq hf =>
        cases queued with
        | nil => cases hqueue.symm.trans hq
        | cons payload queued =>
          obtain ⟨rfl, hq'⟩ := List.cons.inj (hqueue.symm.trans hq)
          exact .inl ⟨payload, _, rfl, rfl, .reading hr hq' hf⟩
      | read hr hq =>
        cases rest with
        | nil =>
          obtain ⟨rfl, -⟩ := List.cons.inj (hqueue.symm.trans hq)
          exact .inr ⟨rfl, rfl⟩
        | cons payload queued =>
          obtain ⟨rfl, hq'⟩ := List.cons.inj (hqueue.symm.trans hq)
          exact .inl ⟨payload, _, rfl, rfl, .read hr hq'⟩
    rcases hnext with ⟨payload, rest', rfl, rfl, hu'⟩ | ⟨rfl, rfl⟩
    · rw [dispatch] at hd
      unfold Host.take payloadFrame
      simp only
      split
      next envelope hdecoded =>
        rw [hdecoded] at hd
        refine .serving hphase he (hu'.congr rfl rfl rfl) ?_
        rw [hd, List.append_assoc]
        rfl
      next hdecoded =>
        rw [hdecoded] at hd
        exact .serving hphase he hu' hd
      next hdecoded =>
        rw [hdecoded, List.append_nil] at hd
        exact .left (phase_leave _ _) rfl (.inr hd)
    · cases last with
      | none =>
        rw [dispatch, List.append_nil] at hd
        exact .left (phase_leave _ _) rfl (.inr hd)
      | some e =>
        rw [dispatch, List.append_nil] at hd
        exact .left (phase_leave _ _) rfl (.inr hd)

theorem Taken.leave (h : Taken C R payloads last s) (hphase : s.phase = .serving)
    (hexit : exit = .signalled ∨ exit = .endOfStream ∧ s.queue = [] ∧ s.reading = false) :
    Taken C R payloads last (s.leave exit) := by
  cases h with
  | left hp => exact absurd hphase hp
  | serving _ he hu hd =>
    refine .left (phase_leave _ _) rfl ?_
    rcases hexit with rfl | ⟨-, hqueue, hreading⟩
    · refine .inl ⟨rfl, ?_⟩
      rw [hd]
      exact List.prefix_append ..
    · cases hu with
      | reading hr hq hf => cases hreading.symm.trans hr
      | read hr hq =>
        rw [hqueue] at hq
        exact absurd hq.symm (List.append_ne_nil_of_right_ne_nil _ (List.cons_ne_nil _ _))

theorem Taken.moves (h : Taken C R payloads last s) (hs : Moves N C R s s') :
    Taken C R payloads last s' := by
  cases hs with
  | read hreading hread =>
    cases h with
    | serving hp he hu hd => exact .serving hp he (hu.step hreading hread) hd
    | left hp he h => exact .left hp he h
  | take hphase hqueue => exact h.take hphase hqueue
  | leave hphase hexit => exact h.leave hphase hexit
  | poll => exact h.congr rfl rfl rfl .rfl rfl rfl
  | session => exact h.congr rfl rfl rfl .rfl rfl rfl
  | closed hphase | drained hphase | drainOver hphase | finish hphase =>
    exact h.congr rfl rfl rfl (iff_of_false nofun (by rw [hphase]; nofun)) rfl rfl
  | write =>
    obtain ⟨output, writing, heq⟩ := write_eq (N := N) _ _ s
    rw [heq]
    exact h.congr rfl rfl rfl .rfl rfl rfl

/-! ## What goes out -/

/-- The octets of messages that are written whole. -/
def framesOf (N : Spelling) (messages : List Message) : Bytes :=
  (messages.filterMap (Message.frame N)).flatten

/-- The pipe has taken the messages that the writer took, but for what was lost when it broke. -/
structure Written (N : Spelling) (s : Host σ) : Prop where
  le : s.taken ≤ s.messages.length
  output : ∃ lost, framesOf N (s.messages.take s.taken) = s.output ++ lost ∧
    (s.writing = true → lost = [])
  all : s.phase = .ended → s.writing = false ∨ s.taken = s.messages.length

theorem framesOf_concat (N : Spelling) (messages : List Message) (m : Message) :
    framesOf N (messages ++ [m]) = framesOf N messages ++ (m.frame N).getD [] := by
  rw [framesOf, List.filterMap_append, List.flatten_append, framesOf]
  cases hm : m.frame N with
  | none =>
    rw [List.filterMap_cons_none hm]
    rfl
  | some frame =>
    rw [List.filterMap_cons_some hm]
    exact congrArg (_ ++ ·) (List.append_nil frame)

/-- More messages are queued. -/
theorem Written.more (h : Written N s) (hmore : s.messages <+: s'.messages)
    (htaken : s'.taken = s.taken) (houtput : s'.output = s.output)
    (hwriting : s'.writing = s.writing)
    (hphase : s'.phase ≠ .ended) : Written N s' := by
  obtain ⟨more, hmore⟩ := hmore
  constructor
  · rw [htaken, ← hmore, List.length_append]
    exact Nat.le_add_right_of_le h.le
  · rw [htaken, houtput, hwriting, ← hmore, List.take_append_of_le_length h.le]
    exact h.output
  · exact fun hended => absurd hended hphase

theorem Written.write (h : Written N s) (hwriting : s.writing = true)
    (hphase : s.phase ≠ .ended) (hmessage : s.messages[s.taken]? = some message) :
    Written N (s.write N message broken) := by
  obtain ⟨lost, houtput, hlost⟩ := h.output
  rw [hlost hwriting, List.append_nil] at houtput
  obtain ⟨hlt, hget⟩ := List.getElem?_eq_some_iff.mp hmessage
  have htake : s.messages.take (s.taken + 1) = s.messages.take s.taken ++ [message] := by
    rw [List.take_add_one, hmessage]
    rfl
  have hframes : framesOf N (s.messages.take (s.taken + 1)) =
      s.output ++ (message.frame N).getD [] := by
    rw [htake, framesOf_concat, houtput]
  unfold Host.write
  split
  next hnone =>
    rw [hnone] at hframes
    exact ⟨hlt, ⟨[], hframes, fun _ => rfl⟩, fun hended => absurd hended hphase⟩
  next frame hsome =>
    rw [hsome] at hframes
    exact ⟨hlt, ⟨[], hframes.trans (List.append_nil _).symm, fun _ => rfl⟩,
      fun hended => absurd hended hphase⟩
  next frame n hsome =>
    rw [hsome] at hframes
    refine ⟨hlt, ⟨frame.drop n, ?_, nofun⟩, fun _ => .inl rfl⟩
    rw [List.append_assoc, List.take_append_drop]
    exact hframes

theorem prefix_of_step (h : Requests s) (hstep : step s.session e = some u) :
    s.messages <+: u.outbox.map Prod.snd := by
  rcases HostSession.outbox_of_step h.calls.own hstep with hq | ⟨m, hq, -⟩
  · rw [hq]
    exact List.prefix_refl _
  · rw [hq, List.map_append]
    exact List.prefix_append ..

theorem Written.moves (hr : Requests s) (h : Written N s) (hs : Moves N C R s s') :
    Written N s' := by
  have hleave {s : Host σ} (exit : HostExit) : (s.leave exit).messages = s.messages ∧
      (s.leave exit).taken = s.taken ∧ (s.leave exit).output = s.output ∧
      (s.leave exit).writing = s.writing ∧ (s.leave exit).phase ≠ .ended := by
    refine ⟨congrArg (List.map Prod.snd) HostSession.Calls.outbox_close, rfl, rfl, rfl, ?_⟩
    intro hended
    unfold Host.leave at hended
    simp only at hended
    split at hended <;> cases hended
  cases hs with
  | read => exact ⟨h.le, h.output, h.all⟩
  | @take frame queue hphase hqueue =>
    have hended : s.phase ≠ .ended := by
      intro hended
      cases hphase.symm.trans hended
    unfold Host.take
    split
    · split
      · exact h.more (List.prefix_refl _) rfl rfl rfl hended
      · exact h.more (List.prefix_refl _) rfl rfl rfl hended
      · obtain ⟨hm, ht, ho, hw, hp⟩ := hleave (s := { s with queue }) .corruptStream
        exact h.more (hm ▸ List.prefix_refl _) ht ho hw hp
    · obtain ⟨hm, ht, ho, hw, hp⟩ := hleave (s := { s with queue }) .endOfStream
      exact h.more (hm ▸ List.prefix_refl _) ht ho hw hp
    · obtain ⟨hm, ht, ho, hw, hp⟩ := hleave (s := { s with queue }) .corruptStream
      exact h.more (hm ▸ List.prefix_refl _) ht ho hw hp
  | leave hphase hexit =>
    obtain ⟨hm, ht, ho, hw, hp⟩ := hleave (s := s) _
    exact h.more (hm ▸ List.prefix_refl _) ht ho hw hp
  | poll hpolls hfresh hstep =>
    refine h.more (prefix_of_step hr hstep) rfl rfl rfl fun hended => ?_
    rw [polls, show s.phase = .ended from hended] at hpolls
    cases hpolls
  | session hphase hstep hwakes => exact h.more (prefix_of_step hr hstep) rfl rfl rfl hphase
  | closed hphase hstep =>
    exact h.more (prefix_of_step hr hstep) rfl rfl rfl fun hended => by cases hended
  | drained | drainOver =>
    exact h.more (List.prefix_refl _) rfl rfl rfl fun hended => by cases hended
  | write hwriting hphase hmessage => exact h.write hwriting hphase hmessage
  | finish hphase hdone => exact ⟨h.le, h.output, fun _ => hdone⟩

/-! ## A connection -/

def CONNECT : Bytes := Utf16.utf8 "\x7b\"id\":7,\"type\":\"connect\",\"mnemonic\":\"m\"\x7d"

/-- The crates as far as one payload goes. -/
def connectCrates : Crates where
  read payload :=
    if payload = CONNECT then
      some (.object [("id", .number 7), ("type", .string "connect"), ("mnemonic", .string "m")])
    else none
  deviceId := Lib.Serde.string
  read_isObject h := by
    split at h
    · next heq =>
      cases h
      rw [heq]
      exact iff_of_true (by decide +kernel) ⟨_, rfl⟩
    · cases h

def digitSpelling : Spelling where
  toNumbers := Wire.digits
  ofRat q := Fin.ofNat 10 q.num.toNat

/-- A stream with a `connect`, in pieces. -/
def connectStream : Bytes × List Nat := (Wire.nativeFrames.encode CONNECT, [0, 4])

def connectListeners : Listeners where
  endpoints := { socks5 := "127.0.0.1:1080" }
  username := "warren"
  password := "secret"
  exit := none

/-- The stream ends while the tunnel is up. -/
def connectEvents : List HostEvent := [
  .read,
  .receive,
  .poll 0 .own,
  .session (.created 0 (.ok ())),
  .session (.dialed 0 (.ok connectListeners)),
  .read,
  .receive,
  .session (.shutDown 1),
  .drained,
  .write none,
  .finish]

abbrev connectStep := hostStep digitSpelling connectCrates piecesReader

theorem exists_connect : ∃ s, Run connectStep (fun _ _ => True) { reader := connectStream } s ∧
    s.phase = .ended ∧ s.overrun = false ∧ s.writing = true ∧ s.session.created = [0] := by
  have hrun : (exec connectStep (fun _ _ => true) { reader := connectStream } connectEvents).any
      (fun s => s.phase = .ended ∧ s.overrun = false ∧ s.writing = true ∧ s.session.created = [0]) =
        true := by
    decide +kernel
  obtain ⟨s, hs, hall⟩ := (Option.any_eq_true ..).mp hrun
  exact ⟨s, (Run.of_exec hs).mono fun _ _ _ => trivial, of_decide_eq_true hall⟩

/-! ## Every run -/

theorem requests_of_run (h : Run (hostStep N C R) (fun _ _ => True) { reader } s) : Requests s :=
  h.invariant (fun hr _ hs => hr.moves (moves_of_step hs)) (.new reader)

theorem written_of_run (h : Run (hostStep N C R) (fun _ _ => True) { reader } s) : Written N s := by
  have hnew : Written N { reader } := ⟨Nat.le_refl _, ⟨[], rfl, fun _ => rfl⟩, nofun⟩
  have hboth := h.invariant (I := fun s => Requests s ∧ Written N s)
    (fun hi _ hs => ⟨hi.1.moves (moves_of_step hs), hi.2.moves hi.1 (moves_of_step hs)⟩)
    ⟨.new reader, hnew⟩
  exact hboth.2

/-- Whatever the order of the events, and however the octets of a stream come in pieces: a loop that
has ended has taken the requests of the frames of its stream in order, and ended for the reason that
the stream gives, unless a signal ended it before. -/
theorem received_of_stream {content : σ → Bytes} (hR : R.Delivers content)
    (h : Run (hostStep N C R) (fun _ _ => True) { reader } s) (hended : s.phase = .ended) :
    ∃ payloads rest last left exit,
      content reader = payloads.flatMap Wire.nativeFrames.encode ++ rest ∧
      (∀ payload ∈ payloads, payload.length ≤ Wire.MAX_INBOUND_BYTES) ∧ Wire.Ends rest last left ∧
      s.exit = some exit ∧
      (exit = .signalled ∧ s.received <+: (dispatch C payloads last).1 ∨
        dispatch C payloads last = (s.received, exit)) := by
  obtain ⟨payloads, rest, last, left, hread, hcontent, hall, hends⟩ :=
    Wire.exists_readFrames hR _ reader (Nat.lt_succ_self _)
  have hupcoming : Upcoming R last { reader } ([] ++ payloads) := .reading rfl rfl hread
  have hnew : Taken C R payloads last { reader } := .serving rfl rfl hupcoming rfl
  have htaken : Taken C R payloads last s :=
    h.invariant (fun ht _ hs => ht.moves (moves_of_step hs)) hnew
  cases htaken with
  | serving hp => cases hp.symm.trans hended
  | left hp hexit h => exact ⟨payloads, rest, last, _, _, hcontent, hall, hends, hexit, h⟩

theorem received_of_stream_connect : ∃ (s : Host (Bytes × List Nat)) (payloads : List Bytes)
    (rest : Bytes) (last : Option Wire.FrameError), s.phase = .ended ∧
      connectStream.1 = payloads.flatMap Wire.nativeFrames.encode ++ rest ∧
      s.received <+: (dispatch connectCrates payloads last).1 := by
  obtain ⟨s, h, hended, -, -, -⟩ := exists_connect
  obtain ⟨payloads, rest, last, left, exit, hcontent, -, -, -, hreceived⟩ :=
    received_of_stream piecesReader_delivers h hended
  refine ⟨s, payloads, rest, last, hended, hcontent, ?_⟩
  rcases hreceived with ⟨-, hprefix⟩ | heq
  · exact hprefix
  · exact heq ▸ List.prefix_refl _

/-! ## Every request has its answer -/

theorem perm_flatMap_cons {f g : Nat → List β} {ts : List Nat} (hn : ts.Nodup) (ht : t ∈ ts)
    (hself : g t = b :: f t) (hother : ∀ t' ≠ t, g t' = f t') :
    (b :: ts.flatMap f).Perm (ts.flatMap g) := by
  induction ts with
  | nil => cases ht
  | cons t' ts ih =>
    obtain ⟨hnew, hn⟩ := List.nodup_cons.mp hn
    rw [List.flatMap_cons, List.flatMap_cons]
    by_cases heq : t' = t
    · subst heq
      have hrest : ts.flatMap g = ts.flatMap f := by
        refine List.flatMap_congr fun u hu => hother u ?_
        rintro rfl
        exact hnew hu
      rw [hself, hrest]
      rfl
    · have hmem : t ∈ ts := (List.mem_cons.mp ht).resolve_left (Ne.symm heq)
      rw [hother t' heq]
      exact (List.perm_middle.symm).trans ((ih hn hmem).append_left _)

/-- What the call `t` has queued. -/
def answersOf (outbox : List (Option Nat × Message)) (t : Nat) : List Message :=
  outbox.filterMap fun x => if x.1 = some t then some x.2 else none

theorem answersOf_cons (x : Option Nat × Message) (outbox : List (Option Nat × Message)) (t : Nat) :
    answersOf (x :: outbox) t =
      if x.1 = some t then x.2 :: answersOf outbox t else answersOf outbox t := by
  by_cases h : x.1 = some t
  · simp [answersOf, h]
  · simp [answersOf, h]

/-- The ids that are echoed, call by call. -/
theorem perm_ids {outbox : List (Option Nat × Message)} {ts : List Nat} (hn : ts.Nodup)
    (h : ∀ x ∈ outbox, x.2.id? ≠ none → ∃ t ∈ ts, x.1 = some t) :
    ((outbox.map Prod.snd).filterMap Message.id?).Perm
      (ts.flatMap fun t => (answersOf outbox t).filterMap Message.id?) := by
  induction outbox with
  | nil => simp [answersOf]
  | cons x outbox ih =>
    obtain ⟨hx, hrest⟩ := List.forall_mem_cons.mp h
    obtain ⟨tag, m⟩ := x
    rw [List.map_cons]
    cases hid : m.id? with
    | none =>
      rw [List.filterMap_cons_none hid]
      refine (ih hrest).trans (List.Perm.of_eq ?_)
      refine List.flatMap_congr fun t _ => ?_
      rw [answersOf_cons]
      split
      · rw [List.filterMap_cons_none hid]
      · rfl
    | some id =>
      obtain ⟨t, ht, rfl⟩ := hx (by rw [hid]; nofun)
      rw [List.filterMap_cons_some hid]
      refine ((ih hrest).cons id).trans (perm_flatMap_cons hn ht ?_ fun t' hne => ?_)
      · rw [answersOf_cons, if_pos rfl, List.filterMap_cons_some hid]
      · rw [answersOf_cons, if_neg fun heq => hne (Option.some.inj heq).symm]

/-- Once every call is over, the ids echoed are those of the requests. -/
theorem ids_of_over {session : HostSession} {begun : List (Nat × Envelope)}
    (h : session.Calls begun closer) (hover : ∀ t, session.calls t = none) :
    ((session.outbox.map Prod.snd).filterMap Message.id?).Perm (begun.map fun p => p.2.id) := by
  refine (perm_ids h.nodup ?_).trans (List.Perm.of_eq ?_)
  · rintro ⟨tag, m⟩ hx hid
    cases tag with
    | none => exact absurd (h.reports m hx) hid
    | some t => exact ⟨t, h.tagged t m hx, rfl⟩
  · have hone : ∀ p ∈ begun, (session.answers p.1).filterMap Message.id? = [p.2.id] := by
      intro p hp
      cases (h.owed p hp).2 with
      | pending c hc ho hq => cases (hover p.1).symm.trans hc
      | answered m hm hans =>
        rw [hans.answers, List.filterMap_cons_some hm]
        rfl
    rw [List.flatMap_map]
    calc begun.flatMap (fun p => (session.answers p.1).filterMap Message.id?)
        = begun.flatMap (fun p => [p.2.id]) := List.flatMap_congr hone
      _ = begun.map fun p => p.2.id := List.map_eq_flatMap.symm

theorem length_state (N : Spelling) (hostState : HostState) :
    (Wire.toVec N.toNumbers ((Message.state hostState).toJson N)).length <
      Wire.MAX_OUTBOUND_BYTES := by
  have hname : (Wire.quote hostState.asStr).length ≤ 14 := by
    cases hostState <;> decide +kernel
  have hkeys : (Wire.quote "state").length + (Wire.quote "type").length = 13 := by decide +kernel
  have hcap : Wire.MAX_OUTBOUND_BYTES = 1048576 := rfl
  simp only [Message.toJson, Wire.toVec, Wire.moreMembers, List.length_append, List.length_cons,
    List.length_nil]
  omega

/-- A message has its frame, with its id. -/
theorem exists_answer (N : Spelling) {m : Message}
    (h : m.id? = none ∨ ∃ q, m.id? = some (.number q)) : ∃ answer : WireValue N,
      m.frame N = some (Wire.nativeFrames.encode (Wire.toVec N.toNumbers answer)) ∧
      (Wire.toVec N.toNumbers answer).length < Wire.MAX_OUTBOUND_BYTES ∧
      answer.get "id" = m.id?.map (·.toJson N) := by
  have hget : (m.toJson N).get "id" = m.id?.map (·.toJson N) := by
    cases m with
    | status id hostState endpoints exit viaSystem => cases endpoints <;> cases exit <;> rfl
    | connect id endpoints username password exit => cases exit <;> rfl
    | hello | disconnect | exits | account | error | state => rfl
  rcases h with hnone | ⟨q, hq⟩
  · cases m with
    | state hostState =>
      have hlt := length_state N hostState
      refine ⟨_, ?_, hlt, hget⟩
      rw [Message.frame, Wire.encodeOrRefuse, Wire.encodeFrame_of_lt hlt]
    | hello | status | connect | disconnect | exits | account | error => cases hnone
  · rw [hq] at hget ⊢
    exact Wire.exists_encodeOrRefuse hget

theorem exists_answers (N : Spelling) {messages : List Message}
    (h : ∀ m ∈ messages, m.id? = none ∨ ∃ q, m.id? = some (.number q)) :
    ∃ answers : List (WireValue N),
      framesOf N messages =
        (answers.map (Wire.toVec N.toNumbers)).flatMap Wire.nativeFrames.encode ∧
      (∀ answer ∈ answers,
        (Wire.toVec N.toNumbers answer).length < Wire.MAX_OUTBOUND_BYTES) ∧
      answers.filterMap (·.get "id") = (messages.filterMap Message.id?).map (·.toJson N) := by
  induction messages with
  | nil => exact ⟨[], rfl, nofun, rfl⟩
  | cons m messages ih =>
    obtain ⟨hm, hrest⟩ := List.forall_mem_cons.mp h
    obtain ⟨answers, hframes, hall, hids⟩ := ih hrest
    obtain ⟨answer, hframe, hlt, hget⟩ := exists_answer N hm
    refine ⟨answer :: answers, ?_, List.forall_mem_cons.mpr ⟨hlt, hall⟩, ?_⟩
    · rw [framesOf, List.filterMap_cons_some hframe, List.flatten_cons, List.map_cons,
        List.flatMap_cons, ← hframes]
      rfl
    · cases hid : m.id? with
      | none =>
        rw [hid] at hget
        simp only [List.filterMap_cons, hget, hid, hids, Option.map_none]
      | some id =>
        rw [hid] at hget
        simp only [List.filterMap_cons, hget, hid, hids, Option.map_some, List.map_cons]

/-- Whatever the order of the events: what has gone out of a loop that ended in time, over a pipe
that did not break, are whole frames, and the ids in them are those of the requests that were taken,
each as often as it was taken. -/
theorem answered_on_pipe (h : Run (hostStep N C R) (fun _ _ => True) { reader } s)
    (hended : s.phase = .ended) (hover : s.overrun = false) (hwriting : s.writing = true) :
    ∃ answers : List (WireValue N),
      s.output = (answers.map (Wire.toVec N.toNumbers)).flatMap Wire.nativeFrames.encode ∧
      (∀ answer ∈ answers,
        (Wire.toVec N.toNumbers answer).length < Wire.MAX_OUTBOUND_BYTES) ∧
      (answers.filterMap (·.get "id")).Perm (s.received.map (·.id.toJson N)) := by
  have hr := requests_of_run h
  have hw := written_of_run h
  obtain ⟨hfresh, hcalls⟩ := hr.settled (.inr hended) hover
  have hreceived := hr.received
  rw [hfresh, List.append_nil] at hreceived
  have hids := ids_of_over hr.calls hcalls
  have hnumbers : ∀ m ∈ s.messages, m.id? = none ∨ ∃ q, m.id? = some (.number q) := by
    intro m hm
    cases hid : m.id? with
    | none => exact .inl rfl
    | some id =>
      have hecho := hids.subset (List.mem_filterMap.mpr ⟨m, hm, hid⟩)
      obtain ⟨p, hp, rfl⟩ := List.mem_map.mp hecho
      obtain ⟨q, hq⟩ := hr.numbered p.2 (hreceived.symm.subset (List.mem_map_of_mem hp))
      exact .inr ⟨q, congrArg some hq⟩
  obtain ⟨answers, hframes, hall, hget⟩ := exists_answers N hnumbers
  obtain ⟨lost, houtput, hlost⟩ := hw.output
  have hlen : s.taken = s.messages.length := by
    refine (hw.all hended).resolve_left fun hbroken => ?_
    cases hwriting.symm.trans hbroken
  rw [hlost hwriting, List.append_nil, hlen, List.take_length, hframes] at houtput
  refine ⟨answers, houtput.symm, hall, ?_⟩
  rw [hget]
  have hbegun : (s.begun.map fun p => p.2.id).Perm (s.received.map (·.id)) := by
    have hmap := (hreceived.map (·.id)).symm
    rwa [List.map_map] at hmap
  have hall' := (hids.trans hbegun).map (·.toJson N)
  rwa [List.map_map] at hall'

theorem answered_on_pipe_connect : ∃ (s : Host (Bytes × List Nat))
    (answers : List (WireValue digitSpelling)), s.phase = .ended ∧
      s.output = (answers.map (Wire.toVec Wire.digits)).flatMap Wire.nativeFrames.encode ∧
      (answers.filterMap (·.get "id")).Perm (s.received.map (·.id.toJson digitSpelling)) := by
  obtain ⟨s, h, hended, hover, hwriting, -⟩ := exists_connect
  obtain ⟨answers, houtput, -, hids⟩ := answered_on_pipe h hended hover hwriting
  exact ⟨s, answers, hended, houtput, hids⟩

/-- Whatever the order of the events: once the loop is left no tunnel is stored, and when it has
ended in time every tunnel that was created has been handed to `shutdown`, once. -/
theorem torn_down (h : Run (hostStep N C R) (fun _ _ => True) { reader } s) :
    (s.phase ≠ .serving → s.session.inner.tunnel = none) ∧
      (s.phase = .ended → s.overrun = false →
        s.session.shutdowns.Nodup ∧ ∀ n < s.session.created.length, n ∈ s.session.shutdowns) := by
  have hr := requests_of_run h
  refine ⟨fun hphase => hr.calls.own.closed (hr.closed hphase), fun hended hover => ?_⟩
  have hcalls := (hr.settled (.inr hended) hover).2
  have htunnel := hr.calls.own.closed (hr.closed (by rw [hended]; nofun))
  refine ⟨hr.calls.own.nodup, fun n hn => ?_⟩
  rcases hr.calls.own.placed hn with hloose | ⟨t, id, g, hdialing⟩ | hstored | hshut
  · cases hloose
  · cases (hcalls t).symm.trans hdialing
  · cases htunnel.symm.trans hstored
  · exact hshut

theorem torn_down_connect : ∃ s : Host (Bytes × List Nat), s.phase = .ended ∧
    s.session.inner.tunnel = none ∧ 0 ∈ s.session.shutdowns := by
  obtain ⟨s, h, hended, hover, -, hcreated⟩ := exists_connect
  have hdown := torn_down h
  refine ⟨s, hended, hdown.1 (by rw [hended]; nofun), (hdown.2 hended hover).2 0 ?_⟩
  rw [hcreated]
  exact Nat.zero_lt_one

end Host

end WarrenSdk.NativeHost
