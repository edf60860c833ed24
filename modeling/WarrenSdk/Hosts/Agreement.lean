import Mathlib.Data.List.DropRight
import WarrenSdk.Lib.Run
import WarrenSdk.Extension.Host.Session
import WarrenSdk.NativeHost.Decode

/-!
# The two native hosts

The host in JavaScript (`host/session.ts`) and the helper (`session.rs`) answer one protocol. Here
each of them is driven by the same script: a request when none is in flight, what a backend call
returned, or a state event of the tunnel that is up or being built. A `shutdown` returns before
anything else happens, and a tunnel reports nothing once its shutdown began. `Agree` relates the two
sessions after every such input.
-/

namespace WarrenSdk.Hosts
open Lib WarrenSdk.Core Extension
open NativeHost (HostError HostState Listeners ExitLocation DeviceHandoff)

/-- The requests of the protocol, as their types have them. -/
inductive HostRequest
  | hello (protocol : Rat) (channel : Option NativeHost.Channel)
  | status
  | connect (request : NativeHost.ConnectRequest)
  | disconnect
  | exits
  | account (mnemonic : String)

/-- What a host is driven by. -/
inductive Input
  | request (id : Rat) (request : HostRequest)
  | created (result : Except HostError Unit)
  | dialed (result : Except HostError Listeners)
  | listed (result : Except HostError (List ExitLocation))
  | expiry (result : Except HostError Nat)
  | state (state : HostState)

/-- What either host sends, without the `datapath` of a hello. -/
inductive Wire
  | hello (id : NativeHost.Value)
  | status (id : NativeHost.Value) (state : String) (endpoints : Option ExtensionEndpoints)
      (exit : Option ExtensionTunnelExit) (viaSystem : Bool)
  | connect (id : NativeHost.Value) (endpoints : ExtensionEndpoints) (auth : ExtensionProxyAuth)
      (exit : Option ExtensionTunnelExit)
  | disconnect (id : NativeHost.Value)
  | exits (id : NativeHost.Value) (locations : List ExtensionExitLocation)
  | account (id : NativeHost.Value) (expiresAt : Nat)
  | error (id : NativeHost.Value) (code message : String)
  | state (state : String)
deriving DecidableEq

/-! ## The host in JavaScript -/

namespace Script

def channelName : NativeHost.Channel → Utf16
  | .prod => .ofString "prod"
  | .beta => .ofString "beta"

def exitQuery (q : NativeHost.ExitQuery) : ExtensionExitQuery :=
  { exitPubkeyHex := q.exitPubkeyHex, country := q.country, city := q.city }

def entryQuery (q : NativeHost.EntryQuery) : ExtensionEntryQuery :=
  { country := q.country, city := q.city }

def deviceClaim (d : DeviceHandoff) : Host.DeviceClaim :=
  { id := .ofString d.id, name := some (.ofString d.name)
    appVersion := some (.ofString d.appVersion) }

/-- A version that is no natural number is none that the host knows. -/
def version (protocol : Rat) : Option Nat :=
  if (protocol.num.toNat : Rat) = protocol then some protocol.num.toNat else none

def request (id : Rat) : HostRequest → Host.Request
  | .hello protocol channel =>
    .hello id (version protocol) (channel.map fun c => .string (channelName c))
  | .status => .status id
  | .connect r =>
    .connect id
      { mnemonic := r.mnemonic
        selector := r.selector.map exitQuery
        entrySelector := r.entrySelector.map entryQuery
        httpProxy := r.httpProxy
        daita := r.daita
        device := r.device.map deviceClaim }
  | .disconnect => .disconnect id
  | .exits => .exits id
  | .account mnemonic => .account id mnemonic

/-- What is thrown where the helper's backend returns an error. -/
def thrown (e : HostError) : Host.Thrown :=
  { code := some e.code.asStr, message := some e.message }

def reported (l : Listeners) : Host.Reported :=
  { socks5 := l.endpoints.socks5
    http := l.endpoints.http
    username := some l.username
    password := some l.password
    exit := l.exit.map fun e => { country := some e.country, city := some e.city } }

def location (l : ExitLocation) : ExtensionExitLocation :=
  { country := l.country, city := l.city, active := l.active }

def wire : Host.Message → Wire
  | .hello id _ => .hello (.number id)
  | .status id state endpoints exit => .status (.number id) state endpoints exit false
  | .connect id endpoints auth exit => .connect (.number id) endpoints auth exit
  | .disconnect id => .disconnect (.number id)
  | .exits id locations => .exits (.number id) locations
  | .account id expiresAt => .account (.number id) expiresAt
  | .error id code message => .error (.number id) code message
  | .state state => .state state

/-- Both sources are there. -/
def sources : Host.HostSessionOptions := { listExits := true, accountStatus := true }

section
variable (E : Encodings) (datapath : Nat → Option HostDatapath)

abbrev step := Host.HostSession.step E sources

/-- What the call that came in last waits for. -/
def waiting (s : Host.HostSession) : Option Host.Call := s.calls (s.nextCall - 1)

/-- Whether there is a tunnel, or one being built, whose shutdown has not begun. -/
def live (s : Host.HostSession) : Bool :=
  match waiting s with
  | some (.creating ..) | some (.dialing ..) => true
  | _ => s.tunnel.isSome

/-- A shutdown that has begun comes to its end. -/
def finish (s : Host.HostSession) : Option Host.HostSession :=
  match waiting s with
  | some (.failing ..) | some (.disconnecting _) => step E s (.shutDown (s.nextCall - 1))
  | _ => some s

def respond (s : Host.HostSession) : Input → Option Host.HostSession
  | .request id r =>
    if (waiting s).isSome then none
    else (step E s (.handle (request id r) (datapath s.nextCall))).bind (finish E)
  | .created r => (step E s (.created (s.nextCall - 1) (r.mapError thrown))).bind (finish E)
  | .dialed r =>
    (step E s (.dialed (s.nextCall - 1) ((r.mapError thrown).map reported))).bind (finish E)
  | .listed r => step E s (.listed (s.nextCall - 1) ((r.mapError thrown).map (·.map location)))
  | .expiry r => step E s (.expiry (s.nextCall - 1) (r.mapError thrown))
  | .state state =>
    -- The callback that the factory was given last is the one of the tunnel there is.
    if live s then s.callbacks.getLast?.bind fun t => step E s (.state t state.asStr) else none

end

def sent (s : Host.HostSession) : List Wire := s.sent.map wire

end Script

/-! ## The helper -/

namespace Native

def channelName : NativeHost.Channel → String
  | .prod => "prod"
  | .beta => "beta"

def rawRequest (id : Rat) : HostRequest → NativeHost.RawRequest
  | .hello protocol channel =>
    { id := some (.number id), kind := some "hello", protocol := some (.number protocol)
      channel := channel.map fun c => .string (channelName c) }
  | .status => { id := some (.number id), kind := some "status" }
  | .connect r =>
    { id := some (.number id), kind := some "connect", mnemonic := some r.mnemonic
      selector := r.selector, entrySelector := r.entrySelector, httpProxy := r.httpProxy
      daita := r.daita, device := r.device }
  | .disconnect => { id := some (.number id), kind := some "disconnect" }
  | .exits => { id := some (.number id), kind := some "exits" }
  | .account mnemonic =>
    { id := some (.number id), kind := some "account", mnemonic := some mnemonic }

def endpoints (e : NativeHost.Endpoints) : ExtensionEndpoints :=
  { socks5 := e.socks5, http := e.http }

def tunnelExit (e : NativeHost.TunnelExit) : ExtensionTunnelExit :=
  { country := e.country, city := e.city }

def wire : NativeHost.Message → Wire
  | .hello id => .hello id
  | .status id state e exit viaSystem =>
    .status id state.asStr (e.map endpoints) (exit.map tunnelExit) viaSystem
  | .connect id e username password exit =>
    .connect id (endpoints e) { username, password } (exit.map tunnelExit)
  | .disconnect id => .disconnect id
  | .exits id locations => .exits id (locations.map Script.location)
  | .account id expiresAt => .account id expiresAt
  | .error id code message => .error id code message
  | .state state => .state state.asStr

def waiting (s : NativeHost.HostSession) : Option NativeHost.Call := s.calls (s.nextCall - 1)

def live (s : NativeHost.HostSession) : Bool :=
  match waiting s with
  | some (.creating ..) | some (.dialing ..) => true
  | _ => s.inner.tunnel.isSome

def finish (s : NativeHost.HostSession) : Option NativeHost.HostSession :=
  match waiting s with
  | some (.discarding _) | some (.disconnecting _) =>
    NativeHost.step s (.shutDown (s.nextCall - 1))
  | _ => some s

/-- The generation of the sink that the backend was given last. -/
def lastSink (s : NativeHost.HostSession) : Option Nat :=
  s.backend.reverse.findSome? fun
    | .createTunnel _ generation _ => some generation
    | _ => none

def respond (s : NativeHost.HostSession) : Input → Option NativeHost.HostSession
  | .request id r =>
    if (waiting s).isSome then none
    else
      match (rawRequest id r).decode with
      | .request envelope => (NativeHost.step s (.handle envelope .own)).bind finish
      | .ignored => some s
      | .corrupt => none
  | .created r => (NativeHost.step s (.created (s.nextCall - 1) r)).bind finish
  | .dialed r => (NativeHost.step s (.dialed (s.nextCall - 1) r)).bind finish
  | .listed r => NativeHost.step s (.listed (s.nextCall - 1) r)
  | .expiry r => NativeHost.step s (.expiry (s.nextCall - 1) r)
  | .state state =>
    if live s then (lastSink s).bind fun g => NativeHost.step s (.state g state) else none

def sent (s : NativeHost.HostSession) : List Wire := s.outbox.map fun x => wire x.2

end Native

def isAsciiUpper (c : Char) : Bool := 'A' ≤ c && c ≤ 'Z'

/-- A device that both hosts take, listeners with an address where they have one, and an exit as the
relay list names it. -/
def Input.WellTyped (E : Encodings) : Input → Prop
  | .request _ (.connect r) => ∀ d ∈ r.device,
    Host.isDevice E (Script.deviceClaim d) = true ∧ d.isComplete = true
  | .dialed (.ok l) => l.endpoints.http ≠ some "" ∧
    ∀ e ∈ l.exit, e.country.length = 2 ∧ e.country.toList.all isAsciiUpper = true
  | _ => True

/-! ## Devices that both hosts take -/

theorem trimmed_ne_nil {α : Type} {p : α → Bool} {l : List α} (h : ∃ x ∈ l, p x = false) :
    (l.dropWhile p).rdropWhile p ≠ [] := by
  obtain ⟨x, hx, hp⟩ := h
  intro hnil
  have hall := List.rdropWhile_eq_nil_iff.mp hnil
  cases hdrop : l.dropWhile p with
  | nil =>
    rw [List.dropWhile_eq_nil_iff.mp hdrop x hx] at hp
    cases hp
  | cons y ys =>
    have hnot := List.head_dropWhile_not p (l := l) (by rw [hdrop]; nofun)
    simp only [hdrop, List.head_cons] at hnot
    rw [hall y (hdrop ▸ List.mem_cons_self)] at hnot
    cases hnot

/-- The characters that one of the hosts drops at the ends of a text. -/
def isBlank (c : Char) : Bool := NativeHost.isWhitespace c || c.toNat = 0xFEFF

/-- A device of 16 octets, with a name and a version that say something. -/
structure ValidDevice (E : Encodings) (d : DeviceHandoff) : Prop where
  id : ∃ bytes, E.unbase64 (.ofString d.id) = some bytes ∧ bytes.length = Host.DEVICE_ID_LEN
  name : ∃ c ∈ d.name.toList, isBlank c = false
  appVersion : ∃ c ∈ d.appVersion.toList, isBlank c = false

theorem isWhiteSpace_ofNat {n : Nat} (hn : n < 0x10000) :
    Host.isWhiteSpace (UInt16.ofNat n) = true ↔ n ∈ [0x9, 0xa, 0xb, 0xc, 0xd, 0x20, 0xa0, 0x1680,
      0x2028, 0x2029, 0x202f, 0x205f, 0x3000, 0xfeff] ∨ 0x2000 ≤ n ∧ n ≤ 0x200a := by
  have htoNat : (UInt16.ofNat n).toNat = n := UInt16.toNat_ofNat_of_lt' hn
  simp [Host.isWhiteSpace, ← UInt16.toNat_inj, UInt16.le_iff_toNat_le, htoNat]

theorem exists_unit {c : Char} (h : isBlank c = false) :
    ∃ u ∈ Utf16.units c, Host.isWhiteSpace u = false := by
  unfold Utf16.units
  split
  · next hlt =>
    refine ⟨_, List.mem_singleton_self _, Bool.eq_false_iff.mpr (mt (isWhiteSpace_ofNat hlt).mp ?_)⟩
    simp [isBlank, NativeHost.isWhitespace] at h ⊢
    omega
  · next hle =>
    -- a surrogate is no white space
    have hmax : c.toNat < 0x110000 := by
      have hvalid := c.valid
      unfold UInt32.isValidChar Nat.isValidChar at hvalid
      have hnat : c.toNat = c.val.toNat := rfl
      omega
    refine ⟨_, List.mem_cons_self, Bool.eq_false_iff.mpr (mt (isWhiteSpace_ofNat (by omega)).mp ?_)⟩
    simp
    omega

theorem ValidDevice.taken {E : Encodings} {d : DeviceHandoff} (h : ValidDevice E d) :
    Host.isDevice E (Script.deviceClaim d) = true ∧ d.isComplete = true := by
  have hscript {text : String} (ht : ∃ c ∈ text.toList, isBlank c = false) :
      Host.trim (.ofString text) ≠ [] := by
    obtain ⟨c, hc, hblank⟩ := ht
    obtain ⟨u, hu, hwhite⟩ := exists_unit hblank
    exact trimmed_ne_nil ⟨u, List.mem_flatMap.mpr ⟨c, hc, hu⟩, hwhite⟩
  have hnative {text : String} (ht : ∃ c ∈ text.toList, isBlank c = false) :
      NativeHost.trim text ≠ [] := by
    obtain ⟨c, hc, hblank⟩ := ht
    exact trimmed_ne_nil ⟨c, hc, (Bool.or_eq_false_iff.mp hblank).1⟩
  obtain ⟨bytes, hbytes, hlen⟩ := h.id
  constructor
  · simp [Host.isDevice, Script.deviceClaim, Host.isDeviceId, hbytes, hlen, hscript h.name,
      hscript h.appVersion]
  · simp [DeviceHandoff.isComplete, hnative h.name, hnative h.appVersion]

/-! ## What both make of an input -/

@[simp] theorem version_eq_some {p : Rat} {n : Nat} : Script.version p = some n ↔ p = n := by
  unfold Script.version
  constructor
  · intro h
    split at h
    · next hp => rw [← Option.some.inj h, hp]
    · cases h
  · rintro rfl
    simp

theorem toUpper_of_isAsciiUpper {c : Char} (h : isAsciiUpper c = true) : c.toUpper = c := by
  unfold isAsciiUpper at h
  rw [Bool.and_eq_true, decide_eq_true_eq, decide_eq_true_eq] at h
  unfold Char.toUpper
  rw [dif_neg]
  intro ha
  have hle : c.val ≤ 'Z'.val := h.2
  exact absurd (UInt32.le_trans ha.1 hle) (by decide)

theorem isAsciiLetter_of_isAsciiUpper {c : Char} (h : isAsciiUpper c = true) :
    isAsciiLetter c = true := by
  unfold isAsciiLetter
  rw [Bool.or_eq_true]
  exact .inl h

/-- The exit of the relay list is the one that the host in JavaScript reads. -/
theorem parseTunnelExit_reported {l : Listeners}
    (h : ∀ e ∈ l.exit, e.country.length = 2 ∧ e.country.toList.all isAsciiUpper = true) :
    parseTunnelExit (Script.reported l).exit = l.exit.map Native.tunnelExit := by
  cases he : l.exit with
  | none => simp [parseTunnelExit, Script.reported, he]
  | some e =>
    obtain ⟨hlen, hall⟩ := h e he
    rw [List.all_eq_true] at hall
    have hletters : ∀ c ∈ e.country.toList, isAsciiLetter c = true :=
      fun c hc => isAsciiLetter_of_isAsciiUpper (hall c hc)
    have hupper : e.country.toUpper = e.country := by
      unfold String.toUpper
      apply String.toList_inj.mp
      rw [String.toList_map]
      exact (List.map_congr_left fun c hc => toUpper_of_isAsciiUpper (hall c hc)).trans
        (List.map_id _)
    simpa [parseTunnelExit, Script.reported, he, hlen, hupper, Native.tunnelExit] using hletters

theorem credentials_reported {l : Listeners} :
    Host.HostSession.credentials (Script.reported l) =
      if l.username = "" ∨ l.password = "" then none
      else some { username := l.username, password := l.password } := by
  have hpos (text : String) : 0 < text.length ↔ text ≠ "" := by
    rw [Nat.pos_iff_ne_zero, Ne, String.length_eq_zero_iff]
  unfold Host.HostSession.credentials Script.reported Host.isCredential
  simp only [hpos]
  by_cases hu : l.username = ""
  · simp [hu]
  · by_cases hp : l.password = ""
    · simp [hp]
    · simp [hu, hp]

theorem filter_http {l : Listeners} (h : l.endpoints.http ≠ some "") :
    (Script.reported l).http.filter (· ≠ "") = l.endpoints.http := by
  unfold Script.reported
  cases hh : l.endpoints.http with
  | none => rfl
  | some address =>
    have hne : address ≠ "" := fun he => h (he ▸ hh)
    simp [hne]

/-! ## The two sessions side by side -/

/-- What the hosts wait for: the same, in a `connect` exactly when one is in flight, and there under
the generation of the moment. -/
inductive Waiting (g : Nat) : Bool → Option Host.Call → Option NativeHost.Call → Prop
  | idle : Waiting g false none none
  | creating {id : Rat} :
    Waiting g true (some (.creating id options)) (some (.creating (.number id) g options'))
  | dialing {id : Rat} :
    Waiting g true (some (.dialing id n)) (some (.dialing (.number id) g n'))
  | listing {id : Rat} : Waiting g false (some (.listing id)) (some (.listing (.number id)))
  | expiring {id : Rat} : Waiting g false (some (.expiring id)) (some (.expiring (.number id)))

structure Agree (ts : Host.HostSession) (rs : NativeHost.HostSession) : Prop where
  nextCall : ts.nextCall = rs.nextCall
  fresh : ∀ t, rs.nextCall ≤ t → ts.calls t = none ∧ rs.calls t = none
  waiting : Waiting rs.inner.generation rs.inner.connecting (Script.waiting ts) (Native.waiting rs)
  connecting : ts.connecting = rs.inner.connecting
  tunnel : ts.tunnel.isSome = rs.inner.tunnel.isSome
  empty : rs.inner.connecting = true → rs.inner.tunnel = none
  endpoints : ts.endpoints = rs.inner.endpoints.map Native.endpoints
  exit : ts.exit = rs.inner.exit.map Native.tunnelExit
  state : ts.state = rs.inner.state.asStr
  opened : rs.inner.closed = false
  sink : rs.inner.connecting = true ∨ rs.inner.tunnel.isSome = true →
    ts.callbacks ≠ [] ∧ Native.lastSink rs = some rs.inner.generation
  sent : Script.sent ts = Native.sent rs

variable {E : Encodings} {datapath : Nat → Option HostDatapath}
variable {ts : Host.HostSession} {rs : NativeHost.HostSession}

theorem Agree.start : Agree {} {} where
  nextCall := rfl
  fresh _ _ := ⟨rfl, rfl⟩
  waiting := .idle
  connecting := rfl
  tunnel := rfl
  empty h := by cases h
  endpoints := rfl
  exit := rfl
  state := rfl
  opened := rfl
  sink h := by rcases h with h | h <;> cases h
  sent := rfl

theorem Script.sent_send (m : Host.Message) :
    Script.sent (ts.send m) = Script.sent ts ++ [Script.wire m] := List.map_append

theorem Native.sent_send (t : Nat) (m : NativeHost.Message) :
    Native.sent (rs.send t m) = Native.sent rs ++ [Native.wire m] := List.map_append

theorem Agree.send {m : Host.Message} {m' : NativeHost.Message} (h : Agree ts rs)
    (hm : Script.wire m = Native.wire m') (t : Nat) : Agree (ts.send m) (rs.send t m') :=
  { h with
    sent := by rw [Script.sent_send, Native.sent_send, h.sent, hm] }

theorem Agree.fail (h : Agree ts rs) (id : Rat) (code : NativeHost.ErrorCode) (message : String)
    (t : Nat) : Agree (ts.fail id code.asStr message) (rs.fail t (.number id) code message) :=
  h.send rfl t

theorem Agree.waiting_eq (h : Agree ts rs) (hidle : Native.waiting rs = none) :
    Script.waiting ts = none ∧ rs.inner.connecting = false := by
  have hw := h.waiting
  rw [hidle] at hw
  generalize rs.inner.connecting = building at hw ⊢
  generalize Script.waiting ts = call at hw ⊢
  cases hw
  exact ⟨rfl, rfl⟩

/-- A handle has come in. -/
theorem Agree.next (h : Agree ts rs) (hidle : Native.waiting rs = none) :
    Agree { ts with nextCall := ts.nextCall + 1 } { rs with nextCall := rs.nextCall + 1 } := by
  have hcon := (h.waiting_eq hidle).2
  obtain ⟨hts, hrs⟩ := h.fresh rs.nextCall (Nat.le_refl _)
  exact {
    nextCall := congrArg (· + 1) h.nextCall
    fresh := fun t ht => h.fresh t (Nat.le_of_succ_le ht)
    waiting := by
      have hs : Script.waiting { ts with nextCall := ts.nextCall + 1 } = none :=
        (congrArg ts.calls h.nextCall).trans hts
      have hn : Native.waiting { rs with nextCall := rs.nextCall + 1 } = none := hrs
      rw [hs, hn]
      dsimp only
      rw [hcon]
      exact .idle
    connecting := h.connecting
    tunnel := h.tunnel
    empty := h.empty
    endpoints := h.endpoints
    exit := h.exit
    state := h.state
    opened := h.opened
    sink := h.sink
    sent := h.sent }

theorem Script.finish_idle (h : Script.waiting ts = none) : Script.finish E ts = some ts := by
  unfold Script.finish
  rw [h]

theorem Native.finish_idle (h : Native.waiting rs = none) : Native.finish rs = some rs := by
  unfold Native.finish
  rw [h]

theorem Agree.finished (h : Agree ts rs) (hidle : Native.waiting rs = none) :
    Option.Rel Agree (Script.finish E ts) (Native.finish rs) := by
  rw [Script.finish_idle (h.waiting_eq hidle).1, Native.finish_idle hidle]
  exact .some h

/-! ## A call that is suspended, and one that is woken -/

variable {t : Nat} {id : Rat}

theorem Script.waiting_suspend (h : ts.nextCall = t + 1) (c : Host.Call) :
    Script.waiting (ts.suspend t c) = some c := by
  have ht : (ts.suspend t c).nextCall - 1 = t := by
    rw [show (ts.suspend t c).nextCall = t + 1 from h, Nat.add_sub_cancel]
  rw [Script.waiting, ht]
  exact Function.update_self ..

theorem Native.waiting_suspend (h : rs.nextCall = t + 1) (c : NativeHost.Call) :
    Native.waiting (rs.suspend t c) = some c := by
  have ht : (rs.suspend t c).nextCall - 1 = t := by
    rw [show (rs.suspend t c).nextCall = t + 1 from h, Nat.add_sub_cancel]
  rw [Native.waiting, ht]
  exact Function.update_self ..

theorem Agree.fresh_update (h : Agree ts rs) (ht : rs.nextCall = t + 1)
    (c : Option Host.Call) (c' : Option NativeHost.Call) (u : Nat) (hu : rs.nextCall ≤ u) :
    Function.update ts.calls t c u = none ∧ Function.update rs.calls t c' u = none := by
  have hne : u ≠ t := by omega
  rw [Function.update_of_ne hne, Function.update_of_ne hne]
  exact h.fresh u hu

theorem Agree.suspend (h : Agree ts rs) (ht : rs.nextCall = t + 1) {c : Host.Call}
    {c' : NativeHost.Call}
    (hw : Waiting rs.inner.generation rs.inner.connecting (some c) (some c')) :
    Agree (ts.suspend t c) (rs.suspend t c') :=
  { h with
    fresh := h.fresh_update ht (some c) (some c')
    waiting := by
      rw [Script.waiting_suspend (h.nextCall.trans ht), Native.waiting_suspend ht]
      exact hw }

/-- A call that comes to its end before anything else does is as if it had not been suspended. -/
theorem Script.wake_suspend (h : ts.calls t = none) (c : Host.Call) :
    (ts.suspend t c).wake t = ts := by
  unfold Host.HostSession.suspend Host.HostSession.wake
  simp only [Function.update_idem]
  rw [← h, Function.update_eq_self]

theorem Native.wake_suspend (h : rs.calls t = none) (c : NativeHost.Call) :
    (rs.suspend t c).wake t = rs := by
  unfold NativeHost.HostSession.suspend NativeHost.HostSession.wake
  simp only [Function.update_idem]
  rw [← h, Function.update_eq_self]

theorem Script.finish_disconnecting (h : ts.nextCall = t + 1) (hc : ts.calls t = none) :
    Script.finish E (ts.suspend t (.disconnecting id)) =
      some ({ ts with ended := ts.ended ++ [t] }.send (.disconnect id)) := by
  have hlast : (ts.suspend t (.disconnecting id)).nextCall - 1 = t := by
    rw [show (ts.suspend t (.disconnecting id)).nextCall = t + 1 from h, Nat.add_sub_cancel]
  have hcall : (ts.suspend t (.disconnecting id)).calls t = some (.disconnecting id) :=
    Function.update_self ..
  unfold Script.finish
  rw [Script.waiting_suspend h, hlast]
  simp only [Script.step, Host.HostSession.step, hcall, Script.wake_suspend hc]
  rfl

theorem Script.finish_failing (h : ts.nextCall = t + 1) (hc : ts.calls t = none)
    (error : Host.Thrown) :
    Script.finish E (ts.suspend t (.failing id error)) = some (ts.connectFailed id error) := by
  have hlast : (ts.suspend t (.failing id error)).nextCall - 1 = t := by
    rw [show (ts.suspend t (.failing id error)).nextCall = t + 1 from h, Nat.add_sub_cancel]
  have hcall : (ts.suspend t (.failing id error)).calls t = some (.failing id error) :=
    Function.update_self ..
  unfold Script.finish
  rw [Script.waiting_suspend h, hlast]
  simp only [Script.step, Host.HostSession.step, hcall, Script.wake_suspend hc]

/-- The end of a shutdown, of a tunnel that a disconnect took or of one that must not live. -/
theorem Native.finish_shutdown (h : rs.nextCall = t + 1) (hc : rs.calls t = none)
    {c : NativeHost.Call} {m : NativeHost.Message}
    (hm : c = .discarding m ∨ ∃ i, c = .disconnecting i ∧ m = .disconnect i) :
    Native.finish (rs.suspend t c) = some (rs.send t m) := by
  have hlast : (rs.suspend t c).nextCall - 1 = t := by
    rw [show (rs.suspend t c).nextCall = t + 1 from h, Nat.add_sub_cancel]
  have hcall : (rs.suspend t c).calls t = some c := Function.update_self ..
  unfold Native.finish
  rw [Native.waiting_suspend h, hlast]
  rcases hm with rfl | ⟨i, rfl, rfl⟩
  · simp only [NativeHost.step, hcall, Native.wake_suspend hc]
  · simp only [NativeHost.step, hcall, Native.wake_suspend hc]

/-! ## Requests -/

theorem Agree.hello (h : Agree ts rs) (hidle : Native.waiting rs = none) (p : Rat)
    (channel : Option NativeHost.Channel) (d : Option HostDatapath) :
    Option.Rel Agree
      (Script.finish E (ts.hello id (Script.version p)
        (channel.map fun c => .string (Script.channelName c)) d))
      (Native.finish (rs.hello t (.number id) (some (.number p))
        (channel.map fun c => .string (Native.channelName c)))) := by
  unfold Host.HostSession.hello NativeHost.HostSession.hello
  by_cases hp : p = (NativeHost.PROTOCOL_VERSION : Rat)
  · have hversion : Script.version p = some EXTENSION_PROTOCOL_VERSION := version_eq_some.mpr hp
    rw [if_neg (not_not.mpr hversion), if_pos (by rw [hp])]
    have hset {a b} : Agree { ts with channel := a }
        { rs with inner := { rs.inner with channel := b } } := { h with }
    cases channel with
    | none => exact (hset.send rfl t).finished hidle
    | some c =>
      have hscript : ∃ product, Host.isChannel (.string (Script.channelName c)) = some product := by
        cases c with
        | prod => exact ⟨.prod, by simp [Host.isChannel, Script.channelName]⟩
        | beta => exact ⟨.beta, by simp [Host.isChannel, Script.channelName, Utf16.ofString_inj]⟩
      have hnative : NativeHost.parseChannel (Native.channelName c) = some c := by
        cases c <;> rfl
      obtain ⟨product, hscript⟩ := hscript
      simp only [Option.map_some, hscript, hnative]
      exact (hset.send rfl t).finished hidle
  · have hversion : Script.version p ≠ some EXTENSION_PROTOCOL_VERSION :=
      fun hv => hp (version_eq_some.mp hv)
    rw [if_pos hversion, if_neg (by simpa using hp)]
    exact (h.fail id .protocol _ t).finished hidle

theorem Agree.status (h : Agree ts rs) (hidle : Native.waiting rs = none) :
    Option.Rel Agree (Script.finish E (ts.send (.status id ts.state ts.endpoints ts.exit)))
      (Native.finish (rs.send t (NativeHost.statusAnswer (.number id) rs.inner.state
        rs.inner.endpoints rs.inner.exit .own))) := by
  refine (h.send ?_ t).finished hidle
  rw [h.state, h.endpoints, h.exit]
  rfl

theorem Native.lastSink_append (g : Nat) (mnemonic : String) (init : NativeHost.TunnelInit) :
    Native.lastSink { rs with backend := rs.backend ++ [.createTunnel mnemonic g init] } =
      some g := by
  unfold Native.lastSink
  simp

theorem Agree.connect (h : Agree ts rs) (hidle : Native.waiting rs = none)
    (ht : rs.nextCall = t + 1) {request : NativeHost.ConnectRequest}
    (hdevice : ∀ d ∈ request.device, Host.isDevice E (Script.deviceClaim d) = true) :
    Option.Rel Agree
      (Script.finish E (ts.connect E t id
        { mnemonic := request.mnemonic
          selector := request.selector.map Script.exitQuery
          entrySelector := request.entrySelector.map Script.entryQuery
          httpProxy := request.httpProxy
          daita := request.daita
          device := request.device.map Script.deviceClaim }))
      (Native.finish (rs.connect t (.number id) request)) := by
  have hcon := (h.waiting_eq hidle).2
  unfold Host.HostSession.connect NativeHost.HostSession.connect
  have hopened : ¬ rs.inner.closed = true := by simp [h.opened]
  rw [if_neg hopened, h.connecting, h.tunnel]
  split
  · exact (h.fail id .alreadyConnected _ t).finished hidle
  next hfree =>
  simp only [hcon, Bool.false_or, Bool.not_eq_true, Option.isSome_eq_false_iff,
    Option.isNone_iff_eq_none] at hfree
  have hany : (request.device.map Script.deviceClaim).any (!Host.isDevice E ·) = false := by
    cases hd : request.device with
    | none => rfl
    | some d => simp [hdevice d hd]
  rw [if_neg (by simp [hany])]
  simp only
  have hts : ts.nextCall = t + 1 := h.nextCall.trans ht
  unfold Script.finish Native.finish
  rw [Script.waiting_suspend (by exact hts), Native.waiting_suspend (by exact ht)]
  refine .some ?_
  exact {
    nextCall := h.nextCall
    fresh := h.fresh_update ht _ _
    waiting := by
      rw [Script.waiting_suspend (by exact hts), Native.waiting_suspend (by exact ht)]
      exact .creating
    connecting := rfl
    tunnel := h.tunnel
    empty := fun _ => hfree
    endpoints := h.endpoints
    exit := h.exit
    state := h.state
    opened := h.opened
    sink := fun _ => ⟨by simp [Host.HostSession.suspend, Host.HostSession.ask],
      Native.lastSink_append ..⟩
    sent := h.sent }

theorem Agree.teardown (h : Agree ts rs) (hidle : Native.waiting rs = none) :
    Agree ts.teardown rs.teardown.2 :=
  { h with
    waiting := by
      obtain ⟨hts, hcon⟩ := h.waiting_eq hidle
      rw [show Script.waiting ts.teardown = none from hts,
        show Native.waiting rs.teardown.2 = none from hidle]
      rw [show rs.teardown.2.inner.connecting = false from hcon]
      exact .idle
    tunnel := rfl
    empty := fun _ => rfl
    endpoints := rfl
    exit := rfl
    state := rfl
    sink := fun hs => by
      rw [show rs.teardown.2.inner.connecting = false from (h.waiting_eq hidle).2] at hs
      rcases hs with hs | hs <;> cases hs }

theorem Agree.disconnect (h : Agree ts rs) (hidle : Native.waiting rs = none)
    (ht : rs.nextCall = t + 1) :
    Option.Rel Agree (Script.finish E (ts.teardown.suspend t (.disconnecting id)))
      (Native.finish (rs.disconnect t (.number id))) := by
  have hts : ts.nextCall = t + 1 := h.nextCall.trans ht
  have hdown : Agree (ts.teardown.send (.disconnect id))
      (rs.teardown.2.send t (.disconnect (.number id))) := (h.teardown hidle).send rfl t
  have hcalls : ts.calls t = none := by
    have hw := (h.waiting_eq hidle).1
    rwa [Script.waiting, hts, Nat.add_sub_cancel] at hw
  have hcalls' : rs.calls t = none := by
    rwa [Native.waiting, ht, Nat.add_sub_cancel] at hidle
  rw [Script.finish_disconnecting (by exact hts) (by exact hcalls)]
  unfold NativeHost.HostSession.disconnect NativeHost.HostSession.teardown
  cases hn : rs.inner.tunnel with
  | none =>
    simp only
    rw [Native.finish_idle (by exact hidle)]
    exact .some { hdown with }
  | some n =>
    simp only
    unfold NativeHost.HostSession.shutdown
    rw [Native.finish_shutdown (by exact ht) (by exact hcalls') (.inr ⟨.number id, rfl, rfl⟩)]
    exact .some { hdown with }

/-- A call to a source that makes no tunnel. -/
theorem Agree.ask (h : Agree ts rs) (hidle : Native.waiting rs = none) (ht : rs.nextCall = t + 1)
    {asked : Host.Asked} {call : NativeHost.BackendCall} {c : Host.Call} {c' : NativeHost.Call}
    (hw : Waiting rs.inner.generation false (some c) (some c'))
    (hsink : Native.lastSink { rs with backend := rs.backend ++ [call] } = Native.lastSink rs) :
    Option.Rel Agree (Script.finish E ((ts.ask asked).suspend t c))
      (Native.finish (NativeHost.HostSession.suspend t c'
        { rs with backend := rs.backend ++ [call] })) := by
  have hasked : Agree (ts.ask asked) { rs with backend := rs.backend ++ [call] } :=
    { h with sink := fun hs => ⟨(h.sink hs).1, hsink.trans (h.sink hs).2⟩ }
  have hcon := (h.waiting_eq hidle).2
  have hdone := hasked.suspend ht (by rw [show _ = false from hcon]; exact hw)
  unfold Script.finish Native.finish
  rw [Script.waiting_suspend (by exact h.nextCall.trans ht), Native.waiting_suspend (by exact ht)]
  cases hw <;> exact .some hdone

theorem Agree.request (h : Agree ts rs) (hw : (Input.request id r).WellTyped E) :
    Option.Rel Agree (Script.respond E datapath ts (.request id r))
      (Native.respond rs (.request id r)) := by
  unfold Script.respond Native.respond
  cases hidle : Native.waiting rs with
  | some c =>
    have hbusy : ∃ c', Script.waiting ts = some c' := by
      have hc := h.waiting
      rw [hidle] at hc
      generalize rs.inner.connecting = building at hc
      generalize Script.waiting ts = call at hc ⊢
      cases hc <;> exact ⟨_, rfl⟩
    obtain ⟨c', hbusy⟩ := hbusy
    simp only [hbusy, Option.isSome_some, if_true]
    exact .none
  | none =>
    have hnext := h.next hidle
    have hidle' : Native.waiting { rs with nextCall := rs.nextCall + 1 } = none :=
      (h.fresh rs.nextCall (Nat.le_refl _)).2
    have hlast : ({ rs with nextCall := rs.nextCall + 1 } : NativeHost.HostSession).nextCall =
        rs.nextCall + 1 := rfl
    simp only [(h.waiting_eq hidle).1, Option.isSome_none, Bool.false_eq_true, if_false,
      Script.step, Host.HostSession.step, Option.bind_some]
    rw [h.nextCall] at hnext ⊢
    cases r with
    | hello protocol channel => exact hnext.hello hidle' protocol channel _
    | status =>
      have hroute : (if rs.inner.tunnel.isSome then NativeHost.TunnelRoute.own else .own) = .own :=
        ite_self _
      simp only [Script.request, Host.HostSession.handle, Native.rawRequest,
        NativeHost.RawRequest.decode, NativeHost.RawRequest.toRequest, Option.filter_some,
        NativeHost.Value.isNumber, if_true, NativeHost.step, NativeHost.HostSession.handle,
        Option.bind_some, hroute]
      exact hnext.status hidle'
    | connect request =>
      have hdevice : ∀ d ∈ request.device, Host.isDevice E (Script.deviceClaim d) = true :=
        fun d hd => (hw d hd).1
      have hany : request.device.any (!·.isComplete) = false := by
        cases hd : request.device with
        | none => rfl
        | some d => simp [(hw d hd).2]
      simp only [Script.request, Host.HostSession.handle, Native.rawRequest,
        NativeHost.RawRequest.decode, NativeHost.RawRequest.toRequest, Option.filter_some,
        NativeHost.Value.isNumber, if_true, NativeHost.step, NativeHost.HostSession.handle,
        Option.bind_some, hany, Bool.false_eq_true, if_false]
      have hseen : Agree
          { ts with nextCall := rs.nextCall + 1, lastConnect := some rs.nextCall }
          { rs with nextCall := rs.nextCall + 1 } := { hnext with }
      exact hseen.connect hidle' hlast hdevice
    | disconnect => exact hnext.disconnect hidle' hlast
    | exits => exact hnext.ask hidle' hlast .listing (by simp [Native.lastSink])
    | account mnemonic => exact hnext.ask hidle' hlast .expiring (by simp [Native.lastSink])

/-! ## What the backend returns -/

/-- A call that is waited for is the last one. -/
theorem Agree.last (h : Agree ts rs) (hw : rs.calls (rs.nextCall - 1) = some c) :
    rs.nextCall = rs.nextCall - 1 + 1 := by
  rcases Nat.eq_zero_or_pos rs.nextCall with hz | hpos
  · rw [(h.fresh _ (by omega)).2] at hw
    cases hw
  · omega

theorem Script.waiting_none (h : ts.nextCall = t + 1) (hc : ts.calls t = none) :
    Script.waiting ts = none := by
  rw [Script.waiting, h, Nat.add_sub_cancel, hc]

theorem Native.waiting_none (h : rs.nextCall = t + 1) (hc : rs.calls t = none) :
    Native.waiting rs = none := by
  rw [Native.waiting, h, Nat.add_sub_cancel, hc]

theorem Agree.wake (h : Agree ts rs) (ht : rs.nextCall = t + 1)
    (hcon : rs.inner.connecting = false) : Agree (ts.wake t) (rs.wake t) :=
  { h with
    fresh := h.fresh_update ht none none
    waiting := by
      rw [Script.waiting_none (by exact h.nextCall.trans ht) (Function.update_self ..),
        Native.waiting_none (by exact ht) (Function.update_self ..),
        show (rs.wake t).inner.connecting = false from hcon]
      exact .idle }

theorem Agree.failed (h : Agree ts rs) (ht : rs.nextCall = t + 1)
    (hcon : rs.inner.connecting = true) (e : HostError) (n n' : Option Nat) :
    Option.Rel Agree
      (Script.finish E ((ts.wake t).failConnect t id n (Script.thrown e)))
      (Native.finish ((rs.wake t).settle t (.number id) rs.inner.generation (.error (n', e)))) := by
  have hts : ts.nextCall = t + 1 := h.nextCall.trans ht
  have hdown : Agree { ts.wake t with state := "disconnected", connecting := false }
      { rs.wake t with inner := { rs.inner with
        connecting := false, generation := rs.inner.generation + 1, state := .disconnected } } :=
    { h with
      fresh := h.fresh_update ht none none
      waiting := by
        rw [Script.waiting_none (by exact hts) (Function.update_self ..),
          Native.waiting_none (by exact ht) (Function.update_self ..)]
        exact .idle
      connecting := rfl
      empty := fun hc => by cases hc
      state := rfl
      sink := fun hs => by
        rcases hs with hs | hs
        · cases hs
        · rw [show rs.inner.tunnel = none from h.empty hcon] at hs
          cases hs }
  have hsent : Agree
      ({ ts.wake t with state := "disconnected", connecting := false }.send
        (.error id e.code.asStr e.message))
      (NativeHost.HostSession.send t (NativeHost.errorAnswer (.number id) e)
        { rs.wake t with inner := { rs.inner with
          connecting := false, generation := rs.inner.generation + 1, state := .disconnected } }) :=
    hdown.send rfl t
  unfold Host.HostSession.failConnect NativeHost.HostSession.settle
  rw [Script.finish_failing (by exact hts) (Function.update_self ..)]
  have hcurrent : (rs.wake t).inner.generation = rs.inner.generation := rfl
  simp only
  rw [if_pos hcurrent]
  cases n' with
  | none =>
    unfold NativeHost.HostSession.answerConnect
    simp only
    rw [Native.finish_idle (Native.waiting_none (by exact ht) (Function.update_self ..))]
    exact .some { hsent with }
  | some n' =>
    unfold NativeHost.HostSession.answerConnect NativeHost.HostSession.shutdown
    simp only
    rw [Native.finish_shutdown (by exact ht) (Function.update_self ..) (.inl rfl)]
    exact .some { hsent with }

theorem Agree.connected (h : Agree ts rs) (ht : rs.nextCall = t + 1)
    (hcon : rs.inner.connecting = true) {l : Listeners} (n n' : Nat)
    (hhttp : l.endpoints.http ≠ some "")
    (hexit : ∀ e ∈ l.exit, e.country.length = 2 ∧ e.country.toList.all isAsciiUpper = true) :
    Option.Rel Agree
      (Script.finish E ((ts.wake t).tunnelConnected id n (Script.reported l)
        { username := l.username, password := l.password }))
      (Native.finish ((rs.wake t).settle t (.number id) rs.inner.generation (.ok (n', l)))) := by
  have hts : ts.nextCall = t + 1 := h.nextCall.trans ht
  unfold Host.HostSession.tunnelConnected NativeHost.HostSession.settle
  have hcurrent : (rs.wake t).inner.generation = rs.inner.generation := rfl
  simp only
  rw [if_pos hcurrent, filter_http hhttp, parseTunnelExit_reported hexit]
  have hup : Agree
      { ts.wake t with
        tunnel := some n
        endpoints := some { socks5 := l.endpoints.socks5, http := l.endpoints.http }
        exit := l.exit.map Native.tunnelExit
        state := "connected"
        connecting := false }
      { rs.wake t with inner := { rs.inner with
        connecting := false
        tunnel := some n'
        endpoints := some l.endpoints
        exit := l.exit
        state := .connected } } :=
    { h with
      fresh := h.fresh_update ht none none
      waiting := by
        rw [Script.waiting_none (by exact hts) (Function.update_self ..),
          Native.waiting_none (by exact ht) (Function.update_self ..)]
        exact .idle
      connecting := rfl
      tunnel := rfl
      empty := fun hc => by cases hc
      endpoints := rfl
      exit := rfl
      state := rfl
      sink := fun _ => h.sink (.inl hcon) }
  exact (hup.send rfl t).finished (Native.waiting_none (by exact ht) (Function.update_self ..))

theorem Agree.created (h : Agree ts rs) (r : Except HostError Unit) :
    Option.Rel Agree (Script.respond E datapath ts (.created r))
      (Native.respond rs (.created r)) := by
  have hw := h.waiting
  unfold Script.waiting Native.waiting at hw
  unfold Script.respond Native.respond
  simp only [Script.step, Host.HostSession.step, NativeHost.step]
  generalize hs : ts.calls (ts.nextCall - 1) = c at hw ⊢
  generalize hn : rs.calls (rs.nextCall - 1) = c' at hw ⊢
  generalize hcon : rs.inner.connecting = building at hw
  cases hw with
  | idle | dialing | listing | expiring => exact .none
  | @creating options options' id =>
    have ht := h.last hn
    have hts := h.nextCall.trans ht
    rw [h.nextCall]
    cases r with
    | error e => exact h.failed ht hcon e none none
    | ok _ =>
      simp only [Option.bind_some, Except.mapError, Host.HostSession.tunnelCreated,
        NativeHost.HostSession.tunnelCreated]
      unfold Script.finish Native.finish
      rw [Script.waiting_suspend (by exact hts), Native.waiting_suspend (by exact ht)]
      refine .some ?_
      exact { h with
        fresh := fun u hu => by
          have hne : u ≠ rs.nextCall - 1 := by
            have hu' : rs.nextCall ≤ u := hu
            omega
          simpa [Host.HostSession.suspend, Host.HostSession.ask, Host.HostSession.wake,
            NativeHost.HostSession.suspend, NativeHost.HostSession.wake, hne] using h.fresh u hu
        waiting := by
          rw [Script.waiting_suspend (by exact hts), Native.waiting_suspend (by exact ht)]
          have hdialing : Waiting rs.inner.generation rs.inner.connecting
              (some (.dialing id ts.created))
              (some (.dialing (.number id) rs.inner.generation rs.created.length)) := by
            rw [hcon]
            exact .dialing
          exact hdialing
        sink := fun hs' => by
          obtain ⟨hcallbacks, hsink⟩ := h.sink (.inl hcon)
          refine ⟨hcallbacks, ?_⟩
          unfold Native.lastSink at hsink ⊢
          simpa [NativeHost.HostSession.suspend, NativeHost.HostSession.wake] using hsink }

theorem Agree.dialed (h : Agree ts rs) (r : Except HostError Listeners)
    (hw : (Input.dialed r).WellTyped E) :
    Option.Rel Agree (Script.respond E datapath ts (.dialed r))
      (Native.respond rs (.dialed r)) := by
  have hwait := h.waiting
  unfold Script.waiting Native.waiting at hwait
  unfold Script.respond Native.respond
  simp only [Script.step, Host.HostSession.step, NativeHost.step]
  generalize hs : ts.calls (ts.nextCall - 1) = c at hwait ⊢
  generalize hn : rs.calls (rs.nextCall - 1) = c' at hwait ⊢
  generalize hcon : rs.inner.connecting = building at hwait
  cases hwait with
  | idle | creating | listing | expiring => exact .none
  | dialing =>
    have ht := h.last hn
    rw [h.nextCall]
    simp only [Option.bind_some]
    unfold Host.HostSession.dialed NativeHost.HostSession.dialed
    cases r with
    | error e => exact h.failed ht hcon e _ _
    | ok l =>
      simp only [Except.mapError, Except.map, credentials_reported]
      by_cases hempty : l.username = "" ∨ l.password = ""
      · rw [if_pos hempty, if_pos hempty]
        exact h.failed ht hcon { code := .protocol, message := _ } _ _
      · rw [if_neg hempty, if_neg hempty]
        exact h.connected ht hcon _ _ hw.1 hw.2

theorem Agree.listed (h : Agree ts rs) (r : Except HostError (List ExitLocation)) :
    Option.Rel Agree (Script.respond E datapath ts (.listed r))
      (Native.respond rs (.listed r)) := by
  have hwait := h.waiting
  unfold Script.waiting Native.waiting at hwait
  unfold Script.respond Native.respond
  simp only [Script.step, Host.HostSession.step, NativeHost.step]
  generalize hs : ts.calls (ts.nextCall - 1) = c at hwait ⊢
  generalize hn : rs.calls (rs.nextCall - 1) = c' at hwait ⊢
  generalize hcon : rs.inner.connecting = building at hwait
  cases hwait with
  | idle | creating | dialing | expiring => exact .none
  | listing =>
    rw [h.nextCall]
    have hwoken := h.wake (h.last hn) hcon
    cases r with
    | error e => exact .some (hwoken.fail _ e.code e.message _)
    | ok locations => exact .some (hwoken.send rfl _)

theorem Agree.expiry (h : Agree ts rs) (r : Except HostError Nat) :
    Option.Rel Agree (Script.respond E datapath ts (.expiry r))
      (Native.respond rs (.expiry r)) := by
  have hwait := h.waiting
  unfold Script.waiting Native.waiting at hwait
  unfold Script.respond Native.respond
  simp only [Script.step, Host.HostSession.step, NativeHost.step]
  generalize hs : ts.calls (ts.nextCall - 1) = c at hwait ⊢
  generalize hn : rs.calls (rs.nextCall - 1) = c' at hwait ⊢
  generalize hcon : rs.inner.connecting = building at hwait
  cases hwait with
  | idle | creating | dialing | listing => exact .none
  | expiring =>
    rw [h.nextCall]
    have hwoken := h.wake (h.last hn) hcon
    cases r with
    | error e => exact .some (hwoken.fail _ e.code e.message _)
    | ok expiresAt => exact .some (hwoken.send rfl _)

/-- Both have a tunnel, or one being built, or neither has. -/
theorem Agree.live (h : Agree ts rs) : Script.live ts = Native.live rs ∧
    (Native.live rs = true → rs.inner.connecting = true ∨ rs.inner.tunnel.isSome = true) := by
  have hwait := h.waiting
  unfold Script.live Native.live
  generalize Script.waiting ts = c at hwait ⊢
  generalize Native.waiting rs = c' at hwait ⊢
  generalize rs.inner.connecting = building at hwait ⊢
  cases hwait with
  | creating | dialing => exact ⟨rfl, fun _ => .inl rfl⟩
  | idle | listing | expiring => exact ⟨h.tunnel, .inr⟩

theorem Agree.reported (h : Agree ts rs) (state : HostState) :
    Option.Rel Agree (Script.respond E datapath ts (.state state))
      (Native.respond rs (.state state)) := by
  obtain ⟨heq, hlive⟩ := h.live
  unfold Script.respond Native.respond
  simp only
  rw [heq]
  split
  · next hup =>
    obtain ⟨hcallbacks, hsink⟩ := h.sink (hlive hup)
    rw [hsink, List.getLast?_eq_some_getLast hcallbacks]
    simp only [Option.bind_some, Script.step, Host.HostSession.step, NativeHost.step]
    rw [if_pos (List.getLast_mem hcallbacks)]
    unfold NativeHost.HostSession.stateSink
    rw [if_neg (not_not.mpr rfl)]
    refine .some { h with state := rfl, sent := ?_ }
    rw [Script.sent_send]
    have hsent : Native.sent { rs with
        inner := { rs.inner with state }
        outbox := rs.outbox ++ [(none, .state state)] } =
        Native.sent rs ++ [.state state.asStr] := List.map_append
    rw [hsent, ← h.sent]
    rfl
  · exact .none

theorem Agree.respond (h : Agree ts rs) (hw : i.WellTyped E) :
    Option.Rel Agree (Script.respond E datapath ts i) (Native.respond rs i) := by
  cases i with
  | request id r => exact h.request hw
  | created r => exact h.created r
  | dialed r => exact h.dialed r hw
  | listed r => exact h.listed r
  | expiry r => exact h.expiry r
  | state state => exact h.reported state

theorem Agree.exec (h : Agree ts rs) {inputs : List Input} (hw : ∀ i ∈ inputs, i.WellTyped E) :
    Option.Rel Agree (Lib.exec (Script.respond E datapath) (fun _ _ => true) ts inputs)
      (Lib.exec Native.respond (fun _ _ => true) rs inputs) := by
  induction inputs generalizing ts rs with
  | nil => exact .some h
  | cons i inputs ih =>
    have hstep : Option.Rel Agree (Script.respond E datapath ts i) (Native.respond rs i) :=
      h.respond (hw i (List.mem_cons_self ..))
    unfold Lib.exec
    simp only [if_true]
    generalize Script.respond E datapath ts i = ts' at hstep ⊢
    generalize Native.respond rs i = rs' at hstep ⊢
    cases hstep with
    | none => exact .none
    | some h' => exact ih h' fun j hj => hw j (List.mem_cons_of_mem _ hj)

/-- The two hosts send the same messages, whatever is asked of them and whatever their backend does,
and wait for the same. -/
theorem hosts_agree (E : Encodings) (datapath : Nat → Option HostDatapath) (inputs : List Input)
    (hw : ∀ i ∈ inputs, i.WellTyped E) :
    (Lib.exec (Script.respond E datapath) (fun _ _ => true) {} inputs).map Script.sent =
      (Lib.exec Native.respond (fun _ _ => true) {} inputs).map Native.sent := by
  have hrel : Option.Rel Agree (Lib.exec (Script.respond E datapath) (fun _ _ => true) {} inputs)
      (Lib.exec Native.respond (fun _ _ => true) {} inputs) := Agree.start.exec hw
  generalize Lib.exec (Script.respond E datapath) (fun _ _ => true) {} inputs = ts at hrel ⊢
  generalize Lib.exec Native.respond (fun _ _ => true) {} inputs = rs at hrel ⊢
  cases hrel with
  | none => rfl
  | some h => exact congrArg some h.sent

/-- A tunnel comes up, a second one is refused, and the first goes. -/
def upAndDown : List Input := [
  .request 1 (.hello 3 (some .beta)),
  .request 2 (.connect
    { mnemonic := "m"
      device := some { id := "0123456789abcdef", name := "Teal Heron", appVersion := "1" } }),
  .state .connecting,
  .created (.ok ()),
  .dialed (.ok
    { endpoints := { socks5 := "127.0.0.1:1" }, username := "u", password := "p"
      exit := some { country := "CH", city := "Zurich" } }),
  .request 3 (.connect { mnemonic := "m" }),
  .request 4 .status,
  .request 5 .disconnect]

theorem hosts_agree_upAndDown :
    (Lib.exec (Script.respond sampleEncodings fun _ => some .ready) (fun _ _ => true) {}
        upAndDown).map Script.sent =
      (Lib.exec Native.respond (fun _ _ => true) {} upAndDown).map Native.sent ∧
    ((Lib.exec Native.respond (fun _ _ => true) {} upAndDown).map fun s =>
      (Native.sent s).length) = some 6 := by
  refine ⟨hosts_agree _ _ _ ?_, by decide +kernel⟩
  intro i hi
  simp only [upAndDown, List.mem_cons, List.not_mem_nil, or_false] at hi
  rcases hi with rfl | rfl | rfl | rfl | rfl | rfl | rfl | rfl
  · trivial
  · rintro d ⟨⟩
    exact ValidDevice.taken
      ⟨⟨_, rfl, by decide +kernel⟩, ⟨'T', by decide, by decide⟩, ⟨'1', by decide, by decide⟩⟩
  · trivial
  · trivial
  · refine ⟨by decide, ?_⟩
    rintro e ⟨⟩
    exact ⟨by decide +kernel, by decide +kernel⟩
  · rintro d ⟨⟩
  · trivial
  · trivial

end WarrenSdk.Hosts
