import WarrenSdk.NativeHost.Answers
import WarrenSdk.NativeHost.Framing
import WarrenSdk.NativeHost.Request

/-!
# The loop of the native host (`host.rs`)

One connection, between the octets that come in and those that go out. A task reads frames into a
bounded queue and another one writes what the session sends; the loop between them takes the frames,
polls the requests in flight and listens for a signal, in whichever order they are ready. Once it is
left the session is closed, the requests in flight may finish, and the writer writes what is left.
`step` runs one event.
-/

namespace WarrenSdk.NativeHost
open Lib

/-! ## Messages as JSON -/

/-- How numbers are written, and which one a rational is. -/
structure Spelling extends Wire.Numbers where
  ofRat : Rat → Number

section
variable (N : Spelling)

abbrev WireValue := Wire.Value N.Number

/-- An id, which is a number where there is a request. -/
def Value.toJson : Value → WireValue N
  | .number q => .number (N.ofRat q)
  | .string s => .string s
  | .other => .null

def member (key : String) (value : Option (WireValue N)) : List (String × WireValue N) :=
  (value.map fun value => (key, value)).toList

def Endpoints.toJson (e : Endpoints) : WireValue N :=
  .object (member N "http" (e.http.map .string) ++ [("socks5", .string e.socks5)])

def TunnelExit.toJson (e : TunnelExit) : WireValue N :=
  .object [("city", .string e.city), ("country", .string e.country)]

def ExitLocation.toJson (l : ExitLocation) : WireValue N :=
  .object [("active", .bool l.active), ("city", .string l.city), ("country", .string l.country)]

/-- The members in the order of their keys. -/
def Message.toJson : Message → WireValue N
  | .hello id => .object [("datapath", .string "ready"), ("id", id.toJson N), ("ok", .bool true),
      ("protocol", .number (N.ofRat PROTOCOL_VERSION)), ("type", .string "hello")]
  | .status id hostState endpoints exit viaSystem => .object <|
      member N "endpoints" (endpoints.map (·.toJson N)) ++
        member N "exit" (exit.map (·.toJson N)) ++
      [("id", id.toJson N), ("ok", .bool true), ("state", .string hostState.asStr),
        ("type", .string "status")] ++
      member N "via" (if viaSystem then some (.string "system") else none)
  | .connect id endpoints username password exit => .object <|
      [("auth", .object [("password", .string password), ("username", .string username)]),
        ("endpoints", endpoints.toJson N)] ++ member N "exit" (exit.map (·.toJson N)) ++
      [("id", id.toJson N), ("ok", .bool true), ("type", .string "connect")]
  | .disconnect id =>
    .object [("id", id.toJson N), ("ok", .bool true), ("type", .string "disconnect")]
  | .exits id locations => .object [("id", id.toJson N),
      ("locations", .array (locations.map (·.toJson N))), ("ok", .bool true),
        ("type", .string "exits")]
  | .account id expiresAt =>
    .object [("expiresAt", .number (N.ofRat expiresAt)), ("id", id.toJson N),
      ("ok", .bool true), ("type", .string "account")]
  | .error id code message => .object [("code", .string code), ("id", id.toJson N),
      ("message", .string message), ("ok", .bool false)]
  | .state hostState => .object [("state", .string hostState.asStr), ("type", .string "state")]

/-- What the writer makes of a message. -/
def Message.frame (m : Message) : Option Bytes := Wire.encodeOrRefuse N.toNumbers (m.toJson N)

end

/-! ## The loop -/

inductive HostExit
  /-- The browser closed the pipe. -/
  | endOfStream
  /-- A frame was corrupt: the stream cannot be trusted any further. -/
  | corruptStream
  /-- The process was asked to stop. -/
  | signalled
deriving DecidableEq, Repr

inductive Phase
  | serving
  /-- At `session.close()`, which waits for the call `closer`. -/
  | closing (closer : Nat)
  /-- The requests in flight may finish. -/
  | draining
  /-- At the end of the writer. -/
  | flushing
  | ended
deriving DecidableEq, Repr

/-- The capacity of the queue. -/
def QUEUE : Nat := 16

abbrev Frame := Except Wire.FrameError (Option Bytes)

/-- The reader goes on behind a payload. -/
def Frame.isPayload : Frame → Bool
  | .ok (some _) => true
  | .ok none | .error _ => false

structure Host (σ : Type) where
  reader : σ
  reading : Bool := true
  /-- What was read and not taken yet. -/
  queue : List Frame := []
  session : HostSession := {}
  /-- The requests that were taken. -/
  received : List Envelope := []
  /-- Those of them that were not polled yet. -/
  fresh : List Envelope := []
  /-- Those that were, with their calls. -/
  begun : List (Nat × Envelope) := []
  phase : Phase := .serving
  exit : Option HostExit := none
  /-- The drain has run out. -/
  overrun : Bool := false
  writing : Bool := true
  /-- How many messages the writer has taken. -/
  taken : Nat := 0
  /-- What the pipe has taken. -/
  output : Bytes := []

namespace Host
variable {σ : Type}

/-- Out of the loop: the reader is stopped and the session closed. -/
def leave (exit : HostExit) (s : Host σ) : Host σ :=
  let closer := s.session.nextCall
  let session := { s.session with nextCall := closer + 1 }.close closer
  { s with
    reading := false
    session
    exit := some exit
    phase := if (session.calls closer).isSome then .closing closer else .draining }

/-- The requests in flight are polled. -/
def polls (s : Host σ) : Bool :=
  match s.phase with
  | .serving | .draining => true
  | .closing _ | .flushing | .ended => false

/-- No request is in flight. -/
def idle (s : Host σ) : Bool :=
  s.fresh.isEmpty && (List.range s.session.nextCall).all fun t => (s.session.calls t).isNone

/-- A request in flight goes on. -/
def resume (event : Event) (s : Host σ) : Option (Host σ) :=
  if s.polls then (step s.session event).map fun session => { s with session } else none

def messages (s : Host σ) : List Message := s.session.outbox.map Prod.snd

end Host

inductive HostEvent
  /-- A frame is read and queued. -/
  | read
  /-- The loop takes what is next in the queue. -/
  | receive
  /-- A request is polled for the first time; `route` is what the stored tunnel reports. -/
  | poll (request : Nat) (route : TunnelRoute)
  /-- A call goes on, or a tunnel reports. -/
  | session (event : Event)
  | stop
  | drained
  | drainOver
  /-- The writer takes a message. The pipe breaks after some octets, or takes all of its frame. -/
  | write (broken : Option Nat)
  | finish

section
variable (N : Spelling) (C : Crates) {σ : Type} (R : Reader σ Wire.IoError)

/-- The loop takes `frame`. -/
def Host.take (frame : Frame) (s : Host σ) : Host σ :=
  match frame with
  | .ok (some payload) =>
    match decodeRequest C payload with
    | .request envelope =>
      { s with received := s.received ++ [envelope], fresh := s.fresh ++ [envelope] }
    | .ignored => s
    | .corrupt => s.leave .corruptStream
  | .ok none => s.leave .endOfStream
  | .error _ => s.leave .corruptStream

/-- What the writer does with `message`. -/
def Host.write (message : Message) (broken : Option Nat) (s : Host σ) : Host σ :=
  match message.frame N, broken with
  | none, _ => { s with taken := s.taken + 1 }
  | some frame, none => { s with taken := s.taken + 1, output := s.output ++ frame }
  | some frame, some n =>
    { s with taken := s.taken + 1, output := s.output ++ frame.take n, writing := false }

def hostStep (s : Host σ) : HostEvent → Option (Host σ)
  | .read =>
    if s.reading ∧ s.queue.length < QUEUE then
      let (frame, reader) := Wire.readFrame R s.reader
      some { s with reader, queue := s.queue ++ [frame], reading := Frame.isPayload frame }
    else none
  | .receive =>
    if s.phase = .serving then
      match s.queue with
      | frame :: queue => some ({ s with queue }.take C frame)
      | [] => if s.reading then none else some (s.leave .endOfStream)
    else none
  | .poll request route =>
    if s.polls then
      s.fresh[request]?.map fun envelope =>
        let t := s.session.nextCall
        { s with
          session := { s.session with nextCall := t + 1 }.handle t envelope route
          fresh := s.fresh.eraseIdx request
          begun := s.begun ++ [(t, envelope)] }
    else none
  | .session event =>
    match event with
    | .handle _ _ | .close => none
    | .state generation state =>
      if s.phase = .ended then none
      else some { s with session := s.session.stateSink generation state }
    | .shutDown t =>
      if s.phase = .closing t then
        (step s.session (.shutDown t)).map fun session => { s with session, phase := .draining }
      else s.resume (.shutDown t)
    | event => s.resume event
  | .stop => if s.phase = .serving then some (s.leave .signalled) else none
  | .drained =>
    if s.phase = .draining ∧ s.idle then some { s with phase := .flushing } else none
  | .drainOver =>
    if s.phase = .draining then some { s with phase := .flushing, overrun := true } else none
  | .write broken =>
    if s.writing ∧ s.phase ≠ .ended then s.messages[s.taken]?.map fun m => s.write N m broken
    else none
  | .finish =>
    if s.phase = .flushing ∧ (s.writing = false ∨ s.taken = s.messages.length) then
      some { s with phase := .ended }
    else none

end

end WarrenSdk.NativeHost
