import WarrenSdk.Core.Api.Client
import WarrenSdk.Lib.Json

/-!
# Signed requests

What a signed call of the API client draws, sends and returns, for any readings of the device clock,
any nonces and any outcomes of its sendings. `Ran` is everything that it can do.
-/

namespace WarrenSdk.Core.Api
open Lib

/-! ## The rounds of a log -/

def Round.log (r : Round) : List Event :=
  .signed r.deviceNow r.sig :: r.sent.map fun x => .sent x.1 x.2

theorem splitLog_sent (sent : List (HttpRequest × Outcome)) (events : List Event) :
    splitLog ((sent.map fun x => Event.sent x.1 x.2) ++ events) =
      (sent ++ (splitLog events).1, (splitLog events).2) := by
  induction sent with
  | nil => rfl
  | cons x sent ih =>
    rw [List.map_cons, List.cons_append, splitLog, ih]
    rfl

theorem splitLog_rounds (rs : List Round) : splitLog (rs.flatMap Round.log) = ([], rs) := by
  induction rs with
  | nil => rfl
  | cons r rs ih =>
    rw [List.flatMap_cons, Round.log, List.cons_append, splitLog, splitLog_sent, ih,
      List.append_nil]

/-! ## What a signed call can do -/

section
variable (P : Platform) (C : WarrenApiClient) (w : World) (method path body : Utf16)

/-- The state before a call. -/
def start (offset : Double) : State where
  readings := 0
  nonces := 0
  sends := 0
  offset
  log := []

/-- The state behind the answer of the first round. -/
def answered (offset : Double) (res : HttpResponse) : State where
  readings := readingsAfter res { start offset with readings := 1 }
  nonces := 1
  sends := 0
  offset := learnedOffset P w res { start offset with readings := 1 }
  log := []

/-- A round is signed at a state of the client. -/
def Signs (s : State) (r : Round) : Prop :=
  ∃ keyPair, C.keyPair = some keyPair ∧ unixTime (w.now s.readings) = some r.deviceNow ∧
    r.sig = signAt P w keyPair method path body r.deviceNow s.offset s.nonces

/-- A round is sent from the `i`-th sending on. -/
def Sends (i : Nat) (r : Round) : Prop :=
  r.sent = attempt P C w method path body (signedHeaders body r.sig) i

inductive Ran (offset : Double) : List Round → Except RequestFailure HttpResponse → Prop
  | failed (hnone : C.keyPair = none ∨ unixTime (w.now 0) = none) : Ran offset [] (.error e)
  | unanswered (hsigns : Signs P C w method path body (start offset) r)
      (hsends : Sends P C w method path body 0 r) (hnone : r.answer? = none) :
      Ran offset [r] (.error e)
  | returned (hsigns : Signs P C w method path body (start offset) r)
      (hsends : Sends P C w method path body 0 r) (hanswer : r.answer? = some res)
      (hrefusal : refusal P res r.sig.timestamp = false) : Ran offset [r] (.ok res)
  | failedAgain (hsigns : Signs P C w method path body (start offset) r)
      (hsends : Sends P C w method path body 0 r) (hanswer : r.answer? = some res)
      (hrefusal : refusal P res r.sig.timestamp = true)
      (hclock : unixTime (w.now (answered P w offset res).readings) = none) :
      Ran offset [r] (.error e)
  | misfit (hsigns : Signs P C w method path body (start offset) r)
      (hsends : Sends P C w method path body 0 r) (hanswer : r.answer? = some res)
      (hrefusal : refusal P res r.sig.timestamp = true)
      (hagain : Signs P C w method path body (answered P w offset res) r')
      (hfits : stampFitsTheWindow P res r'.sig.timestamp = false) (hsent : r'.sent = []) :
      Ran offset [r, r'] (.error (.api clockSkewError offsetSecs))
  | unansweredAgain (hsigns : Signs P C w method path body (start offset) r)
      (hsends : Sends P C w method path body 0 r) (hanswer : r.answer? = some res)
      (hrefusal : refusal P res r.sig.timestamp = true)
      (hagain : Signs P C w method path body (answered P w offset res) r')
      (hfits : stampFitsTheWindow P res r'.sig.timestamp = true)
      (hsendsAgain : Sends P C w method path body r.sent.length r') (hnone : r'.answer? = none) :
      Ran offset [r, r'] (.error e)
  | returnedAgain (hsigns : Signs P C w method path body (start offset) r)
      (hsends : Sends P C w method path body 0 r) (hanswer : r.answer? = some res)
      (hrefusal : refusal P res r.sig.timestamp = true)
      (hagain : Signs P C w method path body (answered P w offset res) r')
      (hfits : stampFitsTheWindow P res r'.sig.timestamp = true)
      (hsendsAgain : Sends P C w method path body r.sent.length r')
      (hanswerAgain : r'.answer? = some res')
      (hrefusalAgain : refusal P res' r'.sig.timestamp = false) : Ran offset [r, r'] (.ok res')
  | skew (hsigns : Signs P C w method path body (start offset) r)
      (hsends : Sends P C w method path body 0 r) (hanswer : r.answer? = some res)
      (hrefusal : refusal P res r.sig.timestamp = true)
      (hagain : Signs P C w method path body (answered P w offset res) r')
      (hfits : stampFitsTheWindow P res r'.sig.timestamp = true)
      (hsendsAgain : Sends P C w method path body r.sent.length r')
      (hanswerAgain : r'.answer? = some res')
      (hrefusalAgain : refusal P res' r'.sig.timestamp = true) :
      Ran offset [r, r'] (.error (.api clockSkewError offsetSecs))

end

variable {P : Platform} {C : WarrenApiClient} {w : World} {method path body : Utf16}
  {offset : Double}

/-- What follows a refusal for the clock. -/
def retry (P : Platform) (C : WarrenApiClient) (w : World) (method path body : Utf16)
    (res : HttpResponse) : Run HttpResponse := do
  let (retryHeaders, retryStamp) ← buildHeaders P C w method path body true
  if !stampFitsTheWindow P res retryStamp then throw (← clockSkew P w res)
  let retried ← sendToFirstHostThatAnswers P C w method path body retryHeaders
  if ← refusedForTheClock P w retried retryStamp then throw (← clockSkew P w retried)
  return retried

/-- A signature is drawn at a state, or nothing is. -/
theorem signs_or (P : Platform) (C : WarrenApiClient) (w : World) (method path body : Utf16)
    (s : State) :
    (∃ deviceNow sig, (∀ sent, Signs P C w method path body s { deviceNow, sig, sent }) ∧
      buildHeaders P C w method path body true s = (.ok (signedHeaders body sig, sig.timestamp),
        { s with
          readings := s.readings + 1
          nonces := s.nonces + 1
          log := s.log ++ [.signed deviceNow sig] })) ∨
    (C.keyPair = none ∨ unixTime (w.now s.readings) = none) ∧
      ∃ e n, buildHeaders P C w method path body true s = (.error e, { s with readings := n }) := by
  cases hkey : C.keyPair with
  | none => exact .inr ⟨.inl rfl, buildHeaders_error (.inl hkey) method path body⟩
  | some keyPair =>
    cases hnow : unixTime (w.now s.readings) with
    | none => exact .inr ⟨.inr rfl, buildHeaders_error (.inr hnow) method path body⟩
    | some deviceNow =>
      exact .inl ⟨deviceNow, _, fun sent => ⟨keyPair, hkey, hnow, rfl⟩,
        buildHeaders_run hkey hnow method path body⟩

/-- The state behind a round that is signed and sent at `s`. -/
def State.behind (s : State) (r : Round) : State where
  readings := s.readings + 1
  nonces := s.nonces + 1
  sends := s.sends + r.sent.length
  offset := s.offset
  log := s.log ++ r.log

/-- A round that is signed at `s` is sent, and its last host settles the request. -/
theorem sends_run (P : Platform) (C : WarrenApiClient) (w : World) (method path body : Utf16)
    (s : State) (deviceNow : Int) (sig : RequestSignature) :
    ∃ r result, r.deviceNow = deviceNow ∧ r.sig = sig ∧ Sends P C w method path body s.sends r ∧
      sendToFirstHostThatAnswers P C w method path body (signedHeaders body sig)
        { s with
          readings := s.readings + 1
          nonces := s.nonces + 1
          log := s.log ++ [.signed deviceNow sig] } = (result, s.behind r) ∧
      result.toOption = r.answer? := by
  obtain ⟨result, hrun, hresult⟩ := sendToFirstHostThatAnswers_run (P := P) (C := C) (w := w) method
    path body (signedHeaders body sig)
    { s with
      readings := s.readings + 1
      nonces := s.nonces + 1
      log := s.log ++ [.signed deviceNow sig] }
  refine ⟨{ deviceNow, sig,
            sent := attempt P C w method path body (signedHeaders body sig) s.sends },
    result, rfl, rfl, rfl, hrun.trans ?_, hresult⟩
  simp only [State.behind, Round.log, List.append_assoc, List.singleton_append]

theorem refusedForTheClock_log (res : HttpResponse) (stamp : Int) (s : State) :
    ∃ t, refusedForTheClock P w res stamp s = (.ok (refusal P res stamp), t) ∧ t.log = s.log := by
  refine ⟨_, refusedForTheClock_run res stamp s, ?_⟩
  split <;> rfl

theorem retry_ran {r : Round} {res : HttpResponse} {s : State}
    (hsigns : Signs P C w method path body (start offset) r)
    (hsends : Sends P C w method path body 0 r) (hanswer : r.answer? = some res)
    (hrefusal : refusal P res r.sig.timestamp = true)
    (hs : s = { answered P w offset res with sends := r.sent.length, log := r.log }) :
    ∃ rs result t, retry P C w method path body res s = (result, t) ∧
      t.log = (r :: rs).flatMap Round.log ∧
      Ran P C w method path body offset (r :: rs) result := by
  have hat : ∀ {r'}, Signs P C w method path body s r' →
      Signs P C w method path body (answered P w offset res) r' := by
    subst hs
    exact id
  have hreadings : s.readings = (answered P w offset res).readings := by rw [hs]
  have hlog : s.log = r.log := by rw [hs]
  have hsends' : s.sends = r.sent.length := by rw [hs]
  clear hs
  obtain ⟨deviceNow, sig, hagain, hbuild⟩ | ⟨hnone, e, n, hbuild⟩ :=
    signs_or P C w method path body s
  · cases hfits : stampFitsTheWindow P res sig.timestamp with
    | false =>
      obtain ⟨offsetSecs, n, hskew⟩ := clockSkew_run (P := P) (w := w) res
        { s with
          readings := s.readings + 1
          nonces := s.nonces + 1
          log := s.log ++ [.signed deviceNow sig] }
      refine ⟨[{ deviceNow, sig, sent := [] }], .error (.api clockSkewError offsetSecs),
        { s with
          readings := n
          nonces := s.nonces + 1
          log := s.log ++ [.signed deviceNow sig] },
        (run_bind_ok hbuild).trans ?_, ?_,
        .misfit hsigns hsends hanswer hrefusal (hat (hagain [])) hfits rfl⟩
      · dsimp only
        rw [hfits]
        exact run_bind_ok hskew
      · simp [Round.log, hlog]
    | true =>
      obtain ⟨r', result, rfl, rfl, hsendsAgain, hrun, hresult⟩ :=
        sends_run P C w method path body s deviceNow sig
      rw [hsends'] at hsendsAgain
      have htwo : (s.behind r').log = [r, r'].flatMap Round.log := by simp [State.behind, hlog]
      cases result with
      | error e =>
        refine ⟨[r'], .error e, s.behind r', (run_bind_ok hbuild).trans ?_, htwo,
          .unansweredAgain hsigns hsends hanswer hrefusal (hat (hagain _)) hfits hsendsAgain
            hresult.symm⟩
        dsimp only
        rw [hfits]
        exact run_bind_error hrun
      | ok res' =>
        obtain ⟨after, hafter, hafterLog⟩ :=
          refusedForTheClock_log (P := P) (w := w) res' r'.sig.timestamp (s.behind r')
        cases hrefusalAgain : refusal P res' r'.sig.timestamp with
        | false =>
          refine ⟨[r'], .ok res', after, (run_bind_ok hbuild).trans ?_, hafterLog.trans htwo,
            .returnedAgain hsigns hsends hanswer hrefusal (hat (hagain _)) hfits hsendsAgain
              hresult.symm hrefusalAgain⟩
          dsimp only
          rw [hfits]
          refine (run_bind_ok hrun).trans ((run_bind_ok hafter).trans ?_)
          rw [hrefusalAgain]
          rfl
        | true =>
          obtain ⟨offsetSecs, n, hskew⟩ := clockSkew_run (P := P) (w := w) res' after
          refine ⟨[r'], .error (.api clockSkewError offsetSecs), { after with readings := n },
            (run_bind_ok hbuild).trans ?_, hafterLog.trans htwo,
            .skew hsigns hsends hanswer hrefusal (hat (hagain _)) hfits hsendsAgain hresult.symm
              hrefusalAgain⟩
          dsimp only
          rw [hfits]
          refine (run_bind_ok hrun).trans ((run_bind_ok hafter).trans ?_)
          rw [hrefusalAgain]
          exact run_bind_ok hskew
  · obtain hkey | hclock := hnone
    · obtain ⟨keyPair, hsome, -⟩ := hsigns
      rw [hkey] at hsome
      cases hsome
    · refine ⟨[], .error e, _, run_bind_error hbuild, ?_,
        .failedAgain hsigns hsends hanswer hrefusal (hreadings ▸ hclock)⟩
      simp [hlog]

/-- A signed call does one of the things that `Ran` lists. -/
theorem request_ran (P : Platform) (C : WarrenApiClient) (w : World) (method path body : Utf16)
    (offset : Double) :
    ∃ rs result t, request P C w method path body true (start offset) = (result, t) ∧
      t.log = rs.flatMap Round.log ∧ Ran P C w method path body offset rs result := by
  obtain ⟨deviceNow, sig, hsigns, hbuild⟩ | ⟨hnone, e, n, hbuild⟩ :=
    signs_or P C w method path body (start offset)
  · obtain ⟨r, result, rfl, rfl, hsends, hrun, hresult⟩ :=
      sends_run P C w method path body (start offset) deviceNow sig
    have hlog : ((start offset).behind r).log = [r].flatMap Round.log := by
      simp [State.behind, start]
    cases result with
    | error e =>
      exact ⟨[r], .error e, _, (run_bind_ok hbuild).trans (run_bind_error hrun), hlog,
        .unanswered (hsigns _) hsends hresult.symm⟩
    | ok res =>
      have hafter := refusedForTheClock_run (P := P) (w := w) res r.sig.timestamp
        ((start offset).behind r)
      cases hrefusal : refusal P res r.sig.timestamp with
      | false =>
        obtain ⟨after, hafter, hafterLog⟩ :=
          refusedForTheClock_log (P := P) (w := w) res r.sig.timestamp ((start offset).behind r)
        refine ⟨[r], .ok res, after, (run_bind_ok hbuild).trans ((run_bind_ok hrun).trans ?_),
          hafterLog.trans hlog, .returned (hsigns _) hsends hresult.symm hrefusal⟩
        refine (run_bind_ok hafter).trans ?_
        rw [hrefusal]
        rfl
      | true =>
        have hstatus : res.status = 401 := by
          unfold refusal at hrefusal
          exact of_decide_eq_true (Bool.and_eq_true_iff.mp hrefusal).1
        rw [if_pos hstatus] at hafter
        obtain ⟨rs, result, t, hretry, hlogs, hran⟩ :=
          retry_ran (hsigns _) hsends hresult.symm hrefusal rfl
        refine ⟨r :: rs, result, t, (run_bind_ok hbuild).trans ((run_bind_ok hrun).trans ?_),
          hlogs, hran⟩
        refine (run_bind_ok hafter).trans ?_
        rw [hrefusal, ← hretry]
        have hstate : { (start offset).behind r with
              readings := readingsAfter res ((start offset).behind r)
              offset := learnedOffset P w res ((start offset).behind r) } =
            { answered P w offset res with sends := r.sent.length, log := r.log } := by
          simp only [State.behind, answered, start, readingsAfter, learnedOffset, Nat.zero_add,
            List.nil_append]
        exact congrArg (retry P C w method path body res) hstate
  · exact ⟨[], .error e, _, run_bind_error hbuild, rfl, .failed hnone⟩

/-! ## What a signed call may do -/

section
variable (P : Platform) (C : WarrenApiClient) (w : World) (method path body : Utf16)

/-- A stamp lies within the window of an answer's `Date`. -/
def WithinWindow (res : HttpResponse) (stamp : Int) : Prop :=
  ∃ date secs, res.date = some date ∧ serverSecs P.toCalendar date = some secs ∧
    |secs - stamp| ≤ SIGNATURE_WINDOW_SECS

/-- What a signed call may sign and send, and what it returns. -/
structure Disciplined (log : List Event) (result : Except RequestFailure HttpResponse) : Prop where
  /-- Nothing is sent without a signature. -/
  signed : (splitLog log).1 = []
  drawn : (rounds log).length ≤ 2
  nonces : ∀ i r, (rounds log)[i]? = some r → r.sig.nonceHex = w.nonce i
  stamps : ∀ r ∈ rounds log, 0 ≤ r.sig.timestamp ∧
    r.sig.timestamp ≤ r.deviceNow + MAX_FORWARD_CORRECTION_SECS
  /-- The hosts are tried in order, each of them at most once with a signature. -/
  offered : ∀ r ∈ rounds log, r.sent.map (·.1) <+:
    (offers P C path).map (requestTo method body (signedHeaders body r.sig))
  moved : ∀ r ∈ rounds log, ∀ x ∈ r.sent.dropLast, x.2.movesOn = true
  /-- A second signature follows a refusal, and its stamp is one that its server takes. -/
  second : ∀ r r', rounds log = [r, r'] → ∃ res, r.answer? = some res ∧
    refusal P res r.sig.timestamp = true ∧ WithinWindow P res r'.sig.timestamp
  /-- A refusal whose `Date` may be followed is signed again and sent. -/
  again : ∀ r rs res date secs, rounds log = r :: rs → r.answer? = some res →
    refusal P res r.sig.timestamp = true → res.date = some date →
    serverSecs P.toCalendar date = some secs → 0 ≤ secs →
    secs ≤ r.deviceNow + MAX_FORWARD_CORRECTION_SECS →
    (∀ i ≤ 2, w.now i = .finite r.deviceNow) → ∃ r', rs = [r'] ∧ r'.sent ≠ []
  returned : ∀ r res, (rounds log).getLast? = some r → r.answer? = some res →
    refusal P res r.sig.timestamp = false → result = .ok res
  skew : ∀ r r' res, rounds log = [r, r'] → r'.answer? = some res →
    refusal P res r'.sig.timestamp = true →
    ∃ offsetSecs, result = .error (.api clockSkewError offsetSecs)

/-- The first answer that a call gets. -/
def firstAnswer : Option HttpResponse :=
  (tried Outcome.movesOn w.send 0 (offers P C path)).getLast?.bind (·.2.answer?)

/-- The first answer refuses the first stamp for the clock, and the stamp that a valid device clock
gives then is not one that its server takes. -/
def Misfit (offset : Double) : Prop :=
  ∃ deviceNow res deviceNow', C.keyPair.isSome ∧ unixTime (w.now 0) = some deviceNow ∧
    firstAnswer P C w path = some res ∧
    refusal P res (correctedTimestamp P.toCalendar deviceNow offset) = true ∧
    unixTime (w.now (answered P w offset res).readings) = some deviceNow' ∧
    ¬WithinWindow P res
      (correctedTimestamp P.toCalendar deviceNow' (answered P w offset res).offset)

end

@[simp] theorem stampFitsTheWindow_iff {res : HttpResponse} {stamp : Int} :
    stampFitsTheWindow P res stamp = true ↔ WithinWindow P res stamp := by
  unfold stampFitsTheWindow stampOffset WithinWindow
  cases res.date with
  | none => simp
  | some date =>
    rw [Option.bind_some, clockOffsetSecs_stamp]
    cases hsecs : serverSecs P.toCalendar date with
    | none => simp [hsecs]
    | some secs =>
      simp only [Option.map_some, decide_eq_true_eq, absLe_stamp]
      constructor
      · intro hwindow
        exact ⟨date, secs, rfl, hsecs, hwindow⟩
      · rintro ⟨date', secs', hdate, hsecs', hwindow⟩
        cases hdate
        rw [hsecs] at hsecs'
        cases hsecs'
        exact hwindow

theorem Sends.answer? {r : Round} (h : Sends P C w method path body 0 r) :
    r.answer? = firstAnswer P C w path := by
  unfold Round.answer? firstAnswer
  rw [h, attempt, tried_map, List.getLast?_map]
  cases (tried Outcome.movesOn w.send 0 (offers P C path)).getLast? <;> rfl

theorem Signs.timestamp {s : State} {r : Round} (h : Signs P C w method path body s r) :
    r.sig.timestamp = correctedTimestamp P.toCalendar r.deviceNow s.offset := by
  obtain ⟨keyPair, -, -, hsig⟩ := h
  rw [hsig]
  rfl

theorem Signs.nonceHex {s : State} {r : Round} (h : Signs P C w method path body s r) :
    r.sig.nonceHex = w.nonce s.nonces := by
  obtain ⟨keyPair, -, -, hsig⟩ := h
  rw [hsig]
  rfl

theorem unixTime_eq_some {d : Double} : unixTime d = some n ↔
    d = .finite n ∧ n.natAbs < MAX_EXACT ∧ 0 ≤ n := by
  unfold unixTime
  rw [Option.filter_eq_some_iff, Double.safeInteger?_eq_some, decide_eq_true_eq, and_assoc]

theorem Signs.stamp {s : State} {r : Round} (h : Signs P C w method path body s r) :
    0 ≤ r.sig.timestamp ∧ r.sig.timestamp ≤ r.deviceNow + MAX_FORWARD_CORRECTION_SECS := by
  have htimestamp := h.timestamp
  obtain ⟨keyPair, -, hnow, -⟩ := h
  obtain ⟨-, hsafe, hpos⟩ := unixTime_eq_some.mp hnow
  rw [htimestamp]
  exact ⟨correctedTimestamp_nonneg hpos _, correctedTimestamp_le hsafe _⟩

theorem Sends.offers_ne_nil {r : Round} (h : Sends P C w method path body i r)
    (hanswer : r.answer? = some res) : offers P C path ≠ [] := by
  intro hnil
  have hsent : r.sent = [] := by rw [h, attempt, hnil, List.map_nil, tried]
  rw [Round.answer?, hsent] at hanswer
  cases hanswer

theorem Sends.sent_ne_nil {r : Round} (h : Sends P C w method path body i r)
    (hoffers : offers P C path ≠ []) : r.sent ≠ [] := by
  rw [h, attempt]
  exact tried_ne_nil _ _ i (mt List.map_eq_nil_iff.mp hoffers)

theorem misfit_of_signs {r r' : Round} (hsigns : Signs P C w method path body (start offset) r)
    (hsends : Sends P C w method path body 0 r) (hanswer : r.answer? = some res)
    (hrefusal : refusal P res r.sig.timestamp = true)
    (hagain : Signs P C w method path body (answered P w offset res) r')
    (hfits : ¬WithinWindow P res r'.sig.timestamp) : Misfit P C w path offset := by
  rw [hsigns.timestamp] at hrefusal
  rw [hagain.timestamp] at hfits
  obtain ⟨keyPair, hkey, hnow, -⟩ := hsigns
  obtain ⟨-, -, hnow', -⟩ := hagain
  exact ⟨r.deviceNow, res, r'.deviceNow, Option.isSome_of_eq_some hkey, hnow,
    hsends.answer?.symm.trans hanswer, hrefusal, hnow', hfits⟩

section
variable {rs : List Round} {result : Except RequestFailure HttpResponse}
  (h : Ran P C w method path body offset rs result)
include h

/-- Every round is signed at some state, and what is sent of it is tried. -/
theorem Ran.mem : ∀ r ∈ rs, (∃ s, Signs P C w method path body s r) ∧
    (r.sent = [] ∨ ∃ i, Sends P C w method path body i r) := by
  cases h with
  | failed => exact fun r hr => absurd hr List.not_mem_nil
  | unanswered hsigns hsends | returned hsigns hsends | failedAgain hsigns hsends =>
    exact List.forall_mem_singleton.mpr ⟨⟨_, hsigns⟩, .inr ⟨_, hsends⟩⟩
  | misfit hsigns hsends _ _ hagain _ hsent =>
    exact List.forall_mem_cons.mpr ⟨⟨⟨_, hsigns⟩, .inr ⟨_, hsends⟩⟩,
      List.forall_mem_singleton.mpr ⟨⟨_, hagain⟩, .inl hsent⟩⟩
  | unansweredAgain hsigns hsends _ _ hagain _ hsendsAgain
  | returnedAgain hsigns hsends _ _ hagain _ hsendsAgain
  | skew hsigns hsends _ _ hagain _ hsendsAgain =>
    exact List.forall_mem_cons.mpr ⟨⟨⟨_, hsigns⟩, .inr ⟨_, hsends⟩⟩,
      List.forall_mem_singleton.mpr ⟨⟨_, hagain⟩, .inr ⟨_, hsendsAgain⟩⟩⟩

theorem Ran.drawn : rs.length ≤ 2 := by
  cases h <;> simp

theorem Ran.nonces (hr : rs[i]? = some r) : r.sig.nonceHex = w.nonce i := by
  cases h with
  | failed => cases hr
  | unanswered hsigns | returned hsigns | failedAgain hsigns =>
    cases i with
    | zero =>
      cases hr
      exact hsigns.nonceHex
    | succ i => cases hr
  | misfit hsigns _ _ _ hagain | unansweredAgain hsigns _ _ _ hagain
  | returnedAgain hsigns _ _ _ hagain | skew hsigns _ _ _ hagain =>
    match i with
    | 0 =>
      cases hr
      exact hsigns.nonceHex
    | 1 =>
      cases hr
      exact hagain.nonceHex
    | i + 2 => cases hr

theorem Ran.second (hfit : ¬Misfit P C w path offset) (hrs : rs = [r, r']) :
    ∃ res, r.answer? = some res ∧ refusal P res r.sig.timestamp = true ∧
      WithinWindow P res r'.sig.timestamp := by
  cases h with
  | failed | unanswered | returned | failedAgain => cases hrs
  | misfit hsigns hsends hanswer hrefusal hagain hfits =>
    cases hrs
    have houtside := mt stampFitsTheWindow_iff.mpr (Bool.eq_false_iff.mp hfits)
    exact absurd (misfit_of_signs hsigns hsends hanswer hrefusal hagain houtside) hfit
  | unansweredAgain _ _ hanswer hrefusal _ hfits | returnedAgain _ _ hanswer hrefusal _ hfits
  | skew _ _ hanswer hrefusal _ hfits =>
    cases hrs
    exact ⟨_, hanswer, hrefusal, stampFitsTheWindow_iff.mp hfits⟩

/-- A call whose first refusal leads to no stamp that fits draws a second signature all the same. -/
theorem Ran.of_misfit (hmisfit : Misfit P C w path offset) : ∃ r res r', rs = [r, r'] ∧
    r.answer? = some res ∧ ¬WithinWindow P res r'.sig.timestamp := by
  obtain ⟨deviceNow, res, deviceNow', hkey, hnow, hfirst, hrefusal, hnow', houtside⟩ := hmisfit
  -- The readings and the outcomes of a call determine its rounds.
  have hsame : ∀ {r}, Signs P C w method path body (start offset) r →
      Sends P C w method path body 0 r → r.answer? = some res ∧
        refusal P res r.sig.timestamp = true := by
    intro r hsigns hsends
    refine ⟨hsends.answer?.trans hfirst, ?_⟩
    have htimestamp := hsigns.timestamp
    obtain ⟨-, -, hread, -⟩ := hsigns
    have hdevice : r.deviceNow = deviceNow := Option.some.inj (hread.symm.trans hnow)
    rw [htimestamp, hdevice]
    exact hrefusal
  have hagainOutside : ∀ {r'}, Signs P C w method path body (answered P w offset res) r' →
      ¬WithinWindow P res r'.sig.timestamp := by
    intro r' hagain
    have htimestamp := hagain.timestamp
    obtain ⟨-, -, hread, -⟩ := hagain
    have hdevice : r'.deviceNow = deviceNow' := Option.some.inj (hread.symm.trans hnow')
    rw [htimestamp, hdevice]
    exact houtside
  cases h with
  | failed hnone =>
    obtain hnone | hnone := hnone
    · rw [hnone] at hkey
      cases hkey
    · rw [hnone] at hnow
      cases hnow
  | unanswered hsigns hsends hnone =>
    rw [(hsame hsigns hsends).1] at hnone
    cases hnone
  | returned hsigns hsends hanswer haccepted =>
    obtain ⟨hanswer', hrefused⟩ := hsame hsigns hsends
    rw [hanswer] at hanswer'
    cases hanswer'
    rw [haccepted] at hrefused
    cases hrefused
  | failedAgain hsigns hsends hanswer hrefused hclock =>
    rw [(hsame hsigns hsends).1] at hanswer
    cases hanswer
    rw [hclock] at hnow'
    cases hnow'
  | misfit hsigns hsends hanswer hrefused hagain
  | unansweredAgain hsigns hsends hanswer hrefused hagain
  | returnedAgain hsigns hsends hanswer hrefused hagain
  | skew hsigns hsends hanswer hrefused hagain =>
    rw [(hsame hsigns hsends).1] at hanswer
    cases hanswer
    exact ⟨_, res, _, rfl, (hsame hsigns hsends).1, hagainOutside hagain⟩

theorem Ran.again (hrs : rs = r :: rest) (hanswer : r.answer? = some res)
    (hrefusal : refusal P res r.sig.timestamp = true) (hdate : res.date = some date)
    (hsecs : serverSecs P.toCalendar date = some secs) (hpos : 0 ≤ secs)
    (hforward : secs ≤ r.deviceNow + MAX_FORWARD_CORRECTION_SECS)
    (hstill : ∀ i ≤ 2, w.now i = .finite r.deviceNow) : ∃ r', rest = [r'] ∧ r'.sent ≠ [] := by
  have hreadings : (answered P w offset res).readings = 2 := by
    rw [answered, readingsAfter, hdate]
    rfl
  have hlearned : clockOffsetSecs P.toCalendar date (.finite r.deviceNow) =
      some (answered P w offset res).offset := by
    rw [answered, learnedOffset, hdate, Option.bind_some]
    dsimp only
    rw [hstill 1 (by decide), clockOffsetSecs_stamp, hsecs]
    rfl
  cases h with
  | failed => cases hrs
  | unanswered _ _ hnone =>
    cases hrs
    rw [hnone] at hanswer
    cases hanswer
  | returned _ _ hanswer' haccepted =>
    cases hrs
    rw [hanswer] at hanswer'
    cases hanswer'
    rw [haccepted] at hrefusal
    cases hrefusal
  | failedAgain hsigns _ hanswer' _ hclock =>
    cases hrs
    rw [hanswer] at hanswer'
    cases hanswer'
    obtain ⟨-, -, hnow, -⟩ := hsigns
    rw [hreadings, hstill 2 (by decide), ← hstill 0 (by decide)] at hclock
    exact absurd (hnow.symm.trans hclock) (by simp)
  | misfit hsigns _ hanswer' _ hagain hfits =>
    cases hrs
    rw [hanswer] at hanswer'
    cases hanswer'
    have htimestamp := hagain.timestamp
    obtain ⟨-, -, hnow, -⟩ := hagain
    rw [hreadings, hstill 2 (by decide)] at hnow
    obtain ⟨hsame, hsafe, hnonneg⟩ := unixTime_eq_some.mp hnow
    have hdevice : _ = _ := Int.cast_injective (Double.finite.inj hsame)
    rw [← hdevice] at htimestamp hsafe hnonneg
    have hwithin : WithinWindow P res _ := ⟨date, secs, hdate, hsecs,
      correctedTimestamp_fits hsecs hpos hnonneg hsafe hforward hlearned⟩
    rw [← htimestamp] at hwithin
    rw [stampFitsTheWindow_iff.mpr hwithin] at hfits
    cases hfits
  | unansweredAgain _ hsends hanswer' _ _ _ hsendsAgain
  | returnedAgain _ hsends hanswer' _ _ _ hsendsAgain | skew _ hsends hanswer' _ _ _ hsendsAgain =>
    cases hrs
    exact ⟨_, rfl, hsendsAgain.sent_ne_nil (hsends.offers_ne_nil hanswer')⟩

theorem Ran.returned_last (hlast : rs.getLast? = some r) (hanswer : r.answer? = some res)
    (haccepted : refusal P res r.sig.timestamp = false) : result = .ok res := by
  cases h with
  | failed => cases hlast
  | unanswered _ _ hnone =>
    rw [List.getLast?_singleton] at hlast
    cases hlast
    rw [hnone] at hanswer
    cases hanswer
  | returned _ _ hanswer' =>
    rw [List.getLast?_singleton] at hlast
    cases hlast
    rw [hanswer] at hanswer'
    cases hanswer'
    rfl
  | failedAgain _ _ hanswer' hrefused =>
    rw [List.getLast?_singleton] at hlast
    cases hlast
    rw [hanswer] at hanswer'
    cases hanswer'
    rw [haccepted] at hrefused
    cases hrefused
  | misfit _ _ _ _ _ _ hsent =>
    rw [List.getLast?_cons_cons, List.getLast?_singleton] at hlast
    cases hlast
    rw [Round.answer?, hsent] at hanswer
    cases hanswer
  | unansweredAgain _ _ _ _ _ _ _ hnone =>
    rw [List.getLast?_cons_cons, List.getLast?_singleton] at hlast
    cases hlast
    rw [hnone] at hanswer
    cases hanswer
  | returnedAgain _ _ _ _ _ _ _ hanswer' =>
    rw [List.getLast?_cons_cons, List.getLast?_singleton] at hlast
    cases hlast
    rw [hanswer] at hanswer'
    cases hanswer'
    rfl
  | skew _ _ _ _ _ _ _ hanswer' hrefused =>
    rw [List.getLast?_cons_cons, List.getLast?_singleton] at hlast
    cases hlast
    rw [hanswer] at hanswer'
    cases hanswer'
    rw [haccepted] at hrefused
    cases hrefused

theorem Ran.skewed (hrs : rs = [r, r']) (hanswer : r'.answer? = some res)
    (hrefusal : refusal P res r'.sig.timestamp = true) :
    ∃ offsetSecs, result = .error (.api clockSkewError offsetSecs) := by
  cases h with
  | failed | unanswered | returned | failedAgain => cases hrs
  | misfit | skew => exact ⟨_, rfl⟩
  | unansweredAgain _ _ _ _ _ _ _ hnone =>
    cases hrs
    rw [hnone] at hanswer
    cases hanswer
  | returnedAgain _ _ _ _ _ _ _ hanswer' haccepted =>
    cases hrs
    rw [hanswer] at hanswer'
    cases hanswer'
    rw [haccepted] at hrefusal
    cases hrefusal

end

theorem Ran.disciplined {rs : List Round} {result : Except RequestFailure HttpResponse}
    {events : List Event} (h : Ran P C w method path body offset rs result)
    (hsplit : splitLog events = ([], rs)) (hfit : ¬Misfit P C w path offset) :
    Disciplined P C w method path body events result := by
  have hrounds : rounds events = rs := congrArg Prod.snd hsplit
  exact {
    signed := congrArg Prod.fst hsplit
    drawn := hrounds ▸ h.drawn
    nonces := fun i r hr => h.nonces (hrounds ▸ hr)
    stamps := fun r hr => by
      obtain ⟨⟨s, hsigns⟩, -⟩ := h.mem r (hrounds ▸ hr)
      exact hsigns.stamp
    offered := fun r hr => by
      obtain ⟨-, hnil | ⟨i, hsends⟩⟩ := h.mem r (hrounds ▸ hr)
      · rw [hnil]
        exact List.nil_prefix
      · rw [hsends]
        exact tried_requests _ _ i _
    moved := fun r hr => by
      obtain ⟨-, hnil | ⟨i, hsends⟩⟩ := h.mem r (hrounds ▸ hr)
      · rw [hnil]
        exact fun x hx => absurd hx List.not_mem_nil
      · rw [hsends]
        exact tried_moves _ _ i _
    second := fun r r' hrs => h.second hfit (hrounds.symm.trans hrs)
    again := fun r rest res date secs hrs => h.again (hrounds.symm.trans hrs)
    returned := fun r res hlast => h.returned_last (hrounds ▸ hlast)
    skew := fun r r' res hrs => h.skewed (hrounds.symm.trans hrs) }

theorem Ran.not_disciplined {rs : List Round} {result : Except RequestFailure HttpResponse}
    {events : List Event} (h : Ran P C w method path body offset rs result)
    (hsplit : splitLog events = ([], rs)) (hmisfit : Misfit P C w path offset) :
    ¬Disciplined P C w method path body events result := by
  intro hdisciplined
  obtain ⟨r, res, r', hrs, hanswer, houtside⟩ := h.of_misfit hmisfit
  have hrounds : rounds events = [r, r'] := (congrArg Prod.snd hsplit).trans hrs
  obtain ⟨res', hanswer', -, hwithin⟩ := hdisciplined.second r r' hrounds
  rw [hanswer] at hanswer'
  cases hanswer'
  exact houtside hwithin

/-- The log and the result of a signed call. -/
def signedCall (P : Platform) (C : WarrenApiClient) (w : World) (method path body : Utf16)
    (offset : Double) : List Event × Except RequestFailure HttpResponse :=
  let run := request P C w method path body true (start offset)
  (run.2.log, run.1)

theorem signedCall_ran (P : Platform) (C : WarrenApiClient) (w : World) (method path body : Utf16)
    (offset : Double) : ∃ rs, splitLog (signedCall P C w method path body offset).1 = ([], rs) ∧
      Ran P C w method path body offset rs (signedCall P C w method path body offset).2 := by
  obtain ⟨rs, result, t, hrun, hlog, hran⟩ := request_ran P C w method path body offset
  refine ⟨rs, ?_, ?_⟩
  · rw [signedCall, hrun]
    dsimp only
    rw [hlog, splitLog_rounds]
  · rw [signedCall, hrun]
    exact hran

/-- A signed call keeps to what it may do, unless a refusal leads to a stamp that does not fit. -/
theorem signedCall_disciplined_iff (P : Platform) (C : WarrenApiClient) (w : World)
    (method path body : Utf16) (offset : Double) :
    Disciplined P C w method path body (signedCall P C w method path body offset).1
      (signedCall P C w method path body offset).2 ↔ ¬Misfit P C w path offset := by
  obtain ⟨rs, hsplit, hran⟩ := signedCall_ran P C w method path body offset
  constructor
  · intro hdisciplined hmisfit
    exact hran.not_disciplined hsplit hmisfit hdisciplined
  · exact hran.disciplined hsplit

/-! ## A refusal without a date -/

def plainPlatform : Platform where
  rounding := { toFun := id, mono := monotone_id, int := fun _ _ => rfl }
  parse _ := none
  parse_le h := by cases h
  sha256Hex _ := []
  parseJson := Json.parse
  replaceHost _ _ := none

def keyedClient : WarrenApiClient where
  baseUrl := "https://api.example.com"
  alternativeHosts := []
  keyPair := some { address := [], sign := fun _ => [] }

def undatedRefusal : HttpResponse where
  status := 401
  body := "\x7b\"error\":\"clock_skew\"\x7d"
  date := none

/-- A server that refuses every stamp, and does not say its time. -/
def undatedWorld : World where
  now _ := .finite (1000 : Int)
  nonce _ := []
  send _ := .answer undatedRefusal

theorem signedCall_not_disciplined_undated :
    ¬Disciplined plainPlatform keyedClient undatedWorld "GET" "/v1/check" []
      (signedCall plainPlatform keyedClient undatedWorld "GET" "/v1/check" [] (.finite 0)).1
      (signedCall plainPlatform keyedClient undatedWorld "GET" "/v1/check" [] (.finite 0)).2 := by
  obtain ⟨rs, hsplit, hran⟩ :=
    signedCall_ran plainPlatform keyedClient undatedWorld "GET" "/v1/check" [] (.finite 0)
  refine hran.not_disciplined hsplit ?_
  have hnow : unixTime (.finite (1000 : Int)) = some 1000 :=
    unixTime_eq_some.mpr ⟨rfl, by simp [MAX_EXACT], by decide⟩
  have hnames : namesTheClock plainPlatform undatedRefusal.body = true := by decide +kernel
  have hrefusal : ∀ stamp, refusal plainPlatform undatedRefusal stamp = true := by
    intro stamp
    rw [refusal, refusesTheClock, hnames]
    rfl
  refine ⟨1000, undatedRefusal, 1000, rfl, hnow, rfl, hrefusal _, hnow, ?_⟩
  rintro ⟨date, secs, hdate, -⟩
  cases hdate

end WarrenSdk.Core.Api
