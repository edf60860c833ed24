import WarrenSdk.Core.Api.Clock
import WarrenSdk.Core.Errors
import WarrenSdk.Lib.Failover
import WarrenSdk.Lib.Json

/-!
# The API client (`api/client.ts`, `identity/signing.ts`)

One request, from its signature to the answer: which hosts it is offered to, and when it is signed
again. The readings of the device clock, the nonces and what becomes of every sending are given; the
log holds what was signed and what was sent.
-/

namespace WarrenSdk.Core.Api
open Lib

def USER_AGENT : Utf16 := "warren-app"

def HEADER_PUBKEY : Utf16 := "X-Warren-PubKey"
def HEADER_SIGNATURE : Utf16 := "X-Warren-Sig"
def HEADER_TIMESTAMP : Utf16 := "X-Warren-Timestamp"
def HEADER_NONCE : Utf16 := "X-Warren-Nonce"

structure HttpRequest where
  method : Utf16
  url : Utf16
  headers : List (Utf16 × Utf16)
  body : Utf16
  useSni : Bool
deriving DecidableEq

structure HttpResponse where
  status : Nat
  body : Utf16
  date : Option Utf16
deriving DecidableEq

/-- What becomes of a sending. -/
inductive Outcome
  | answer (res : HttpResponse)
  /-- A `WarrenTransportError`. -/
  | transportError (connect : Bool)
  | otherError
deriving DecidableEq

inductive RequestFailure
  | api (error : WarrenApiError) (offsetSecs : Option Double)
  /-- The base URL is no URL. -/
  | invalidUrl
deriving DecidableEq

structure RequestSignature where
  pubkeySs58 : Utf16
  signatureHex : Utf16
  timestamp : Int
  nonceHex : Utf16
deriving DecidableEq

/-- A key pair: its address, and its signatures in hexadecimal. -/
structure WarrenKeyPair where
  address : Utf16
  sign : Bytes → Utf16

structure Platform extends Calendar where
  sha256Hex : Bytes → Utf16
  parseJson : Utf16 → Option Json
  /-- `replaceHost`, unless the base URL is no URL. -/
  replaceHost : Utf16 → Utf16 → Option Utf16

structure WarrenApiClient where
  baseUrl : Utf16
  alternativeHosts : List Utf16
  keyPair : Option WarrenKeyPair

/-- What the client reads, in the order in which it is read. -/
structure World where
  now : Nat → Double
  nonce : Nat → Utf16
  send : Nat → Outcome

inductive Event
  | signed (deviceNow : Int) (sig : RequestSignature)
  | sent (request : HttpRequest) (outcome : Outcome)
deriving DecidableEq

structure State where
  readings : Nat
  nonces : Nat
  sends : Nat
  /-- What the `ServerClock` has learned. -/
  offset : Double
  log : List Event

abbrev Run := ExceptT RequestFailure (StateM State)

structure Candidate where
  url : Utf16
  useSni : Bool
deriving DecidableEq

/-! ## Signatures -/

def canonicalMessage (method path : Utf16) (timestamp : Int) (nonceHex bodyHashHex : Utf16) :
    Utf16 :=
  method ++ 0x0A :: (path ++ 0x0A :: (Utf16.ofString (toString timestamp) ++
    0x0A :: (nonceHex ++ 0x0A :: bodyHashHex)))

def signatureHeaders (sig : RequestSignature) : List (Utf16 × Utf16) :=
  [(HEADER_PUBKEY, sig.pubkeySs58), (HEADER_SIGNATURE, sig.signatureHex),
    (HEADER_TIMESTAMP, Utf16.ofString (toString sig.timestamp)), (HEADER_NONCE, sig.nonceHex)]

/-- The headers of a request that is not signed. -/
def baseHeaders (body : Utf16) : List (Utf16 × Utf16) :=
  [(Utf16.ofString "accept", Utf16.ofString "application/json"),
    (Utf16.ofString "user-agent", USER_AGENT)] ++
    if 0 < body.length then [(Utf16.ofString "content-type",
      Utf16.ofString "application/json")] else []

section
variable (P : Platform)

def signWithKeyPair (keyPair : WarrenKeyPair) (method path body : Utf16) (timestamp : Int)
    (nonceHex : Utf16) : RequestSignature :=
  let bodyHashHex := P.sha256Hex (Utf16.utf8 body)
  let message := canonicalMessage method path timestamp nonceHex bodyHashHex
  { pubkeySs58 := keyPair.address, signatureHex := keyPair.sign (Utf16.utf8 message), timestamp,
    nonceHex }

/-! ## Refusals -/

def stampOffset (res : HttpResponse) (stamp : Int) : Option Double :=
  res.date.bind fun date => clockOffsetSecs P.toCalendar date (.finite stamp)

/-- Whether an answer's body is the contract's refusal of the timestamp. -/
def namesTheClock (body : Utf16) : Bool :=
  match P.parseJson body with
  | some (.object members) =>
    match Json.member members "error" with
    | some (.string error) => error = "clock_skew"
    | _ => false
  | _ => false

def refusesTheClock (res : HttpResponse) (stamp : Int) : Bool :=
  namesTheClock P res.body ||
    match stampOffset P res stamp with
    | some offset => decide (offset.AbsGt SIGNATURE_WINDOW_SECS)
    | none => false

def stampFitsTheWindow (res : HttpResponse) (stamp : Int) : Bool :=
  match stampOffset P res stamp with
  | some offset => decide (offset.AbsLe SIGNATURE_WINDOW_SECS)
  | none => false

/-- Whether an answer is a `401` that refuses `stamp` for the clock. -/
def refusal (res : HttpResponse) (stamp : Int) : Bool :=
  res.status = 401 && refusesTheClock P res stamp

def clockSkewError : WarrenApiError where
  code := .clockSkew
  message := "the server refused the request's timestamp: this device's clock is off"
  status := some 401

variable (C : WarrenApiClient) (w : World)

/-! ## The client -/

def now : Run Double := fun s => (.ok (w.now s.readings), { s with readings := s.readings + 1 })

def nonce : Run Utf16 := fun s => (.ok (w.nonce s.nonces), { s with nonces := s.nonces + 1 })

def log (event : Event) : Run Unit := fun s => (.ok (), { s with log := s.log ++ [event] })

/-- `transport.send` -/
def send (request : HttpRequest) : Run Outcome := fun s =>
  (.ok (w.send s.sends),
    { s with sends := s.sends + 1, log := s.log ++ [.sent request (w.send s.sends)] })

/-- `serverClock.observeDate` -/
def observeDate (dateHeader : Utf16) (deviceNow : Double) : Run Unit := fun s =>
  match clockOffsetSecs P.toCalendar dateHeader deviceNow with
  | some offset => (.ok (), { s with offset })
  | none => (.ok (), s)

/-- The device clock, if it is a valid Unix time. -/
def unixTime (deviceNow : Double) : Option Int :=
  deviceNow.safeInteger?.filter fun secs => 0 ≤ secs

def apiError (code : WarrenApiErrorCode) (message : String) : RequestFailure :=
  .api { code, message } none

def buildHeaders (method path body : Utf16) (signed : Bool) :
    Run (List (Utf16 × Utf16) × Int) := do
  let headers := baseHeaders body
  if signed then
    match C.keyPair with
    | none => throw (apiError .noIdentity "signed request requires an identity seed")
    | some keyPair =>
      match unixTime (← now w) with
      | none => throw (apiError .badClock "system clock is not a valid unix time")
      | some deviceNow =>
        let timestamp := correctedTimestamp P.toCalendar deviceNow (← get).offset
        let sig := signWithKeyPair P keyPair method path body timestamp (← nonce w)
        log (.signed deviceNow sig)
        return (headers ++ signatureHeaders sig, timestamp)
  else return (headers, 0)

def candidates (path : Utf16) : Option (List Candidate) := do
  let hosts ← C.alternativeHosts.mapM fun host => P.replaceHost C.baseUrl host
  return { url := C.baseUrl ++ path, useSni := true } ::
    (hosts.map (fun url => { url := url ++ path, useSni := true }) ++
      [{ url := C.baseUrl ++ path, useSni := false }])

/-- The loop of `sendToFirstHostThatAnswers`. -/
def sendToFirst (request : Candidate → HttpRequest) : List Candidate → Run HttpResponse
  | [] => throw (apiError .allHostsBlocked "all hosts failed to connect")
  | candidate :: rest => do
    match ← send w (request candidate) with
    | .answer res => return res
    | .transportError false => throw (apiError .transport "transport failed after connect")
    | .transportError true | .otherError => sendToFirst request rest

def requestTo (method body : Utf16) (headers : List (Utf16 × Utf16)) (candidate : Candidate) :
    HttpRequest :=
  { method, url := candidate.url, headers, body, useSni := candidate.useSni }

def sendToFirstHostThatAnswers (method path body : Utf16) (headers : List (Utf16 × Utf16)) :
    Run HttpResponse :=
  match candidates P C path with
  | none => throw .invalidUrl
  | some hosts => sendToFirst w (requestTo method body headers) hosts

def refusedForTheClock (res : HttpResponse) (stamp : Int) : Run Bool := do
  if res.status ≠ 401 then return false
  if let some date := res.date then observeDate P date (← now w)
  return refusesTheClock P res stamp

def clockSkew (res : HttpResponse) : Run RequestFailure := do
  match res.date with
  | none => return .api clockSkewError none
  | some date => return .api clockSkewError (clockOffsetSecs P.toCalendar date (← now w))

def request (method path body : Utf16) (signed : Bool) : Run HttpResponse := do
  let (headers, stamp) ← buildHeaders P C w method path body signed
  let res ← sendToFirstHostThatAnswers P C w method path body headers
  if !signed then return res
  if !(← refusedForTheClock P w res stamp) then return res
  let (retryHeaders, retryStamp) ← buildHeaders P C w method path body true
  if !stampFitsTheWindow P res retryStamp then throw (← clockSkew P w res)
  let retried ← sendToFirstHostThatAnswers P C w method path body retryHeaders
  if ← refusedForTheClock P w retried retryStamp then throw (← clockSkew P w retried)
  return retried

/-! ## What is sent and drawn -/

def Outcome.answer? : Outcome → Option HttpResponse
  | .answer res => some res
  | _ => none

/-- Whether the next host is tried behind it. -/
def Outcome.movesOn : Outcome → Bool
  | .answer _ => false
  | .transportError connect => connect
  | .otherError => true

/-- A signature, and what was sent with it. -/
structure Round where
  deviceNow : Int
  sig : RequestSignature
  sent : List (HttpRequest × Outcome)

def Round.answer? (r : Round) : Option HttpResponse := r.sent.getLast?.bind (·.2.answer?)

/-- What is sent before the first signature of a log, and its rounds. -/
def splitLog : List Event → List (HttpRequest × Outcome) × List Round
  | [] => ([], [])
  | .sent request outcome :: events =>
    ((request, outcome) :: (splitLog events).1, (splitLog events).2)
  | .signed deviceNow sig :: events =>
    ([], { deviceNow, sig, sent := (splitLog events).1 } :: (splitLog events).2)

def rounds (events : List Event) : List Round := (splitLog events).2

/-- The candidates for a path, unless the base URL is no URL. -/
def offers (path : Utf16) : List Candidate := (candidates P C path).getD []

/-- What the client tries with some headers, from the `i`-th sending on. -/
def attempt (method path body : Utf16) (headers : List (Utf16 × Utf16)) (i : Nat) :
    List (HttpRequest × Outcome) :=
  tried Outcome.movesOn w.send i ((offers P C path).map (requestTo method body headers))

/-- What the last of the hosts that were tried makes of a request. -/
def settled (outcome : Option Outcome) : Except RequestFailure HttpResponse :=
  match outcome with
  | some (.answer res) => .ok res
  | some (.transportError false) =>
    .error (apiError .transport "transport failed after connect")
  | _ => .error (apiError .allHostsBlocked "all hosts failed to connect")

/-! ## Steps of a run -/

variable {P C w} {α β : Type} {s t : State}

theorem run_bind (x : Run α) (f : α → Run β) (s : State) :
    (x >>= f) s = match x s with
      | (.ok a, t) => f a t
      | (.error e, t) => (.error e, t) := by
  rcases h : x s with ⟨e | a, t⟩
  · simp only [bind, ExceptT.bind, ExceptT.mk, StateT.bind, h, ExceptT.bindCont]
    rfl
  · simp only [bind, ExceptT.bind, ExceptT.mk, StateT.bind, h, ExceptT.bindCont]

theorem run_bind_ok {x : Run α} {f : α → Run β} (h : x s = (.ok a, t)) : (x >>= f) s = f a t := by
  rw [run_bind, h]

theorem run_bind_error {x : Run α} {f : α → Run β} (h : x s = (.error e, t)) :
    (x >>= f) s = (.error e, t) := by
  rw [run_bind, h]

theorem settled_movesOn {outcome : Outcome} (h : outcome.movesOn = true) :
    settled (some outcome) = settled none := by
  cases outcome with
  | answer res => cases h
  | transportError connect => cases h; rfl
  | otherError => rfl

theorem settled_cons {x : HttpRequest × Outcome} (h : x.2.movesOn = true)
    (sent : List (HttpRequest × Outcome)) :
    settled ((x :: sent).getLast?.map (·.2)) = settled (sent.getLast?.map (·.2)) := by
  rw [List.getLast?_cons]
  cases sent.getLast? with
  | none => exact settled_movesOn h
  | some y => rfl

/-- The hosts that are tried, and what the last of them makes of the request. -/
theorem sendToFirst_run (request : Candidate → HttpRequest) (hosts : List Candidate) (s : State) :
    let sent := tried Outcome.movesOn w.send s.sends (hosts.map request)
    sendToFirst w request hosts s = (settled (sent.getLast?.map (·.2)),
      { s with sends := s.sends + sent.length, log := s.log ++
          sent.map fun x => .sent x.1 x.2 }) := by
  induction hosts generalizing s with
  | nil =>
    intro sent
    simp only [sent, List.map_nil, tried, List.append_nil, List.length_nil, Nat.add_zero]
    rfl
  | cons host hosts ih =>
    intro sent
    have hsend : send w (request host) s = (.ok (w.send s.sends),
        { s with
          sends := s.sends + 1
          log := s.log ++ [.sent (request host) (w.send s.sends)] }) := rfl
    rw [sendToFirst, run_bind, hsend]
    simp only [sent, List.map_cons, tried]
    by_cases hmoves : (w.send s.sends).movesOn = true
    · rw [if_pos hmoves, settled_cons hmoves, List.length_cons]
      have hrest := ih { s with
        sends := s.sends + 1
        log := s.log ++ [.sent (request host) (w.send s.sends)] }
      dsimp only at hrest
      rw [List.append_assoc, List.singleton_append, Nat.add_right_comm, Nat.add_assoc] at hrest
      cases houtcome : w.send s.sends with
      | answer res =>
        rw [houtcome] at hmoves
        cases hmoves
      | transportError connect =>
        rw [houtcome] at hmoves hrest
        cases hmoves
        exact hrest
      | otherError =>
        rw [houtcome] at hrest
        exact hrest
    · rw [if_neg hmoves]
      cases houtcome : w.send s.sends with
      | answer res => rfl
      | transportError connect =>
        rw [houtcome] at hmoves
        cases connect with
        | true => exact absurd rfl hmoves
        | false => rfl
      | otherError =>
        rw [houtcome] at hmoves
        exact absurd rfl hmoves

/-- A whole attempt: without a valid base URL nothing is sent. -/
theorem sendToFirstHostThatAnswers_run (method path body : Utf16)
    (headers : List (Utf16 × Utf16)) (s : State) :
    let sent := attempt P C w method path body headers s.sends
    ∃ result, sendToFirstHostThatAnswers P C w method path body headers s = (result,
      { s with sends := s.sends + sent.length, log := s.log ++ sent.map fun x => .sent x.1 x.2 }) ∧
      result.toOption = sent.getLast?.bind (·.2.answer?) := by
  unfold sendToFirstHostThatAnswers attempt offers
  cases candidates P C path with
  | none =>
    refine ⟨.error .invalidUrl, ?_, rfl⟩
    simp only [Option.getD_none, List.map_nil, tried, List.append_nil, List.length_nil,
      Nat.add_zero]
    rfl
  | some hosts =>
    refine ⟨_, sendToFirst_run _ hosts s, ?_⟩
    rw [Option.getD_some]
    cases (tried Outcome.movesOn w.send s.sends _).getLast? with
    | none => rfl
    | some x =>
      obtain ⟨request, outcome⟩ := x
      cases outcome with
      | answer res => rfl
      | transportError connect => cases connect <;> rfl
      | otherError => rfl

def signedHeaders (body : Utf16) (sig : RequestSignature) : List (Utf16 × Utf16) :=
  baseHeaders body ++ signatureHeaders sig

/-- What is signed at a reading of the device clock, with the `i`-th nonce. -/
def signAt (P : Platform) (w : World) (keyPair : WarrenKeyPair) (method path body : Utf16)
    (deviceNow : Int) (offset : Double) (i : Nat) : RequestSignature :=
  signWithKeyPair P keyPair method path body (correctedTimestamp P.toCalendar deviceNow offset)
    (w.nonce i)

theorem buildHeaders_run (hkey : C.keyPair = some keyPair)
    (hnow : unixTime (w.now s.readings) = some deviceNow) (method path body : Utf16) :
    let sig := signAt P w keyPair method path body deviceNow s.offset s.nonces
    buildHeaders P C w method path body true s =
      (.ok (signedHeaders body sig, sig.timestamp),
        { s with
          readings := s.readings + 1
          nonces := s.nonces + 1
          log := s.log ++ [.signed deviceNow sig] }) := by
  intro sig
  have hclock : now w s = (.ok (w.now s.readings), { s with readings := s.readings + 1 }) := rfl
  rw [buildHeaders, if_pos rfl]
  simp only [hkey]
  rw [run_bind, hclock]
  simp only [hnow]
  rfl

/-- Without a key or a valid clock nothing is signed. -/
theorem buildHeaders_error (h : C.keyPair = none ∨ unixTime (w.now s.readings) = none)
    (method path body : Utf16) :
    ∃ e n, buildHeaders P C w method path body true s = (.error e, { s with readings := n }) := by
  have hclock : now w s = (.ok (w.now s.readings), { s with readings := s.readings + 1 }) := rfl
  rw [buildHeaders, if_pos rfl]
  cases hkey : C.keyPair with
  | none => exact ⟨_, s.readings, rfl⟩
  | some keyPair =>
    obtain hnone | hnow := h
    · rw [hkey] at hnone
      cases hnone
    · refine ⟨apiError .badClock "system clock is not a valid unix time", s.readings + 1, ?_⟩
      simp only
      rw [run_bind, hclock]
      simp only [hnow]
      rfl

/-- The offset that is known when a refusal has been read. -/
def learnedOffset (P : Platform) (w : World) (res : HttpResponse) (s : State) : Double :=
  (res.date.bind fun date => clockOffsetSecs P.toCalendar date (w.now s.readings)).getD s.offset

/-- How often the clock has been read when a refusal has been. -/
def readingsAfter (res : HttpResponse) (s : State) : Nat :=
  if res.date.isSome then s.readings + 1 else s.readings

theorem observeDate_run (date : Utf16) (deviceNow : Double) (s : State) :
    observeDate P date deviceNow s = (.ok (),
      { s with offset := (clockOffsetSecs P.toCalendar date deviceNow).getD s.offset }) := by
  unfold observeDate
  cases clockOffsetSecs P.toCalendar date deviceNow <;> rfl

theorem refusedForTheClock_run (res : HttpResponse) (stamp : Int) (s : State) :
    refusedForTheClock P w res stamp s = (.ok (refusal P res stamp),
      if res.status = 401 then
        { s with readings := readingsAfter res s, offset := learnedOffset P w res s }
      else s) := by
  unfold refusedForTheClock refusal learnedOffset readingsAfter
  by_cases hstatus : res.status = 401
  · rw [if_neg (not_not.mpr hstatus), if_pos hstatus, decide_eq_true hstatus, Bool.true_and]
    cases hdate : res.date with
    | none => rfl
    | some date =>
      have hclock : now w s = (.ok (w.now s.readings), { s with readings := s.readings + 1 }) := rfl
      change (now w >>= fun deviceNow => observeDate P date deviceNow >>= fun _ => pure _) s = _
      rw [run_bind, hclock]
      dsimp only
      rw [run_bind, observeDate_run]
      rfl
  · rw [if_pos hstatus, if_neg hstatus, decide_eq_false hstatus, Bool.false_and]
    rfl

theorem clockSkew_run (res : HttpResponse) (s : State) :
    ∃ offsetSecs n, clockSkew P w res s =
      (.ok (.api clockSkewError offsetSecs), { s with readings := n }) := by
  unfold clockSkew
  cases res.date with
  | none => exact ⟨none, s.readings, rfl⟩
  | some date => exact ⟨_, s.readings + 1, rfl⟩

end

end WarrenSdk.Core.Api
