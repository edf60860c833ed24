import Mathlib.Data.Finset.Card
import WarrenSdk.Extension.Client.Requests

/-!
# The port outlives its questions

With no tunnel the last question to finish closes the port: `questions` counts those in flight, so
the end of one never cuts another off. A `connect` that fails does: it closes whatever port is open,
and with it the questions on that port. `SparesQuestions` says that no `connect` fails while a
question is unanswered.
-/

namespace WarrenSdk.Extension
open Lib

namespace State

/-- The call `r` has not settled, and waits on the open port `p`: for an answer there, or to go on
from that port's handshake. -/
def Waits (s : State) (p r : Nat) : Prop :=
  s.On p ∧ s.results r = none ∧
    match s.tasks r with
    | some (.hello m) | some (.requestAnswer m) => m ∈ s.pending
    | some (.requestHandshake _ h) => s.handshake = some h
    | _ => False

/-- A question is unanswered on the port `p`. -/
def Unanswered (s : State) (p : Nat) : Prop :=
  ∃ a q r, s.tasks a = some (.asking q r) ∧ s.Waits p r

/-- In an event from `s` to `s'`, the client itself disconnects the port `p`. -/
def Disconnects (s : State) (e : Event) (s' : State) (p : Nat) : Prop :=
  s.live p = true ∧ s'.live p = false ∧ e ≠ .death p

/-- The calls that release their host: `disconnect`, a `reconnect` that replaces it, and a hello
that is refused. -/
def ReleasedBy (s : State) : Task → Prop
  | .reconnectLockdown _ _ | .reconnectRelease _ _ | .disconnectRelease _ | .disconnectSettings _
  | .disconnectPolicy _ | .disconnectPrediction _ => True
  | .hello m => ∃ r, s.answers m = some r ∧ helloRefused r = true
  | _ => False

/-- The events that are part of such a call. -/
def Releases (s : State) : Event → Prop
  | .reconnect _ _ | .disconnect _ => True
  | .resume t _ | .timeout t => ∃ x, s.tasks t = some x ∧ s.ReleasedBy x
  | _ => False

/-- The client disconnects no port with a question unanswered on it, but to release its host. -/
def OutlivesQuestions (api : ChromeLike) (s : State) (e : Event) : Prop :=
  ∀ s' p, Extension.step api s e = some s' → s.Disconnects e s' p → s.Unanswered p → s.Releases e

/-- No `connect` gives up while a question is unanswered. -/
def SparesQuestions (api : ChromeLike) (s : State) (e : Event) : Prop :=
  ∀ t native c a p, e = .resume t native → s.tasks t = some (.connect c a) →
    s.GivesUp api c a → ¬ s.Unanswered p

/-- The questions in flight are those that are counted. -/
def Counted (s : State) : Prop :=
  ∃ A : Finset Nat, (∀ u, u ∈ A ↔ ∃ q r, s.tasks u = some (.asking q r)) ∧
    A.card = s.questions ∧ ∀ u ∈ A, u < s.nextTask

variable {api : ChromeLike} {s s' : State}

/-! ## The count -/

theorem Counted.calm (h : s.Counted) (hc : Calm cuts t s s')
    (ht : ∀ q r, s.tasks t ≠ some (.asking q r)) : s'.Counted := by
  obtain ⟨A, hA, hcard, hlt⟩ := h
  refine ⟨A, fun u => ⟨fun hu => ?_, fun ⟨q, r, hu⟩ => ?_⟩, hcard.trans hc.questions.symm, ?_⟩
  · obtain ⟨q, r, htask⟩ := (hA u).mp hu
    have hne : u ≠ t := by
      rintro rfl
      exact ht q r htask
    exact ⟨q, r, hc.asking hne (hlt u hu) htask⟩
  · exact (hA u).mpr ⟨q, r, hc.asked hu⟩
  · intro u hu
    exact Nat.lt_of_lt_of_le (hlt u hu) hc.nextTask

theorem Counted.frame (h : s.Counted) (ht : s'.tasks = s.tasks) (hq : s'.questions = s.questions)
    (hn : s'.nextTask = s.nextTask) : s'.Counted := by
  unfold Counted
  rw [ht, hq, hn]
  exact h

theorem Counted.unasked (h : s.Counted) (ht : s.nextTask ≤ t) (q : Question) (r : Nat) :
    s.tasks t ≠ some (.asking q r) := by
  obtain ⟨A, hA, -, hlt⟩ := h
  intro htask
  exact absurd (hlt t ((hA t).mpr ⟨q, r, htask⟩)) (Nat.not_lt.mpr ht)

/-- `finishAsking`, but for a port it may close. -/
theorem finishAsking_rest (q : Question) (r : TaskResult) :
    (s.finishAsking t q r).tasks = s.tasks ∧
      (s.finishAsking t q r).questions = s.questions - 1 ∧
      (s.finishAsking t q r).nextTask = s.nextTask := by
  unfold finishAsking
  dsimp only
  split
  · exact ⟨rfl, rfl, rfl⟩
  · exact ⟨rfl, rfl, rfl⟩

/-- A question ends. -/
theorem Counted.finishAsking (h : s.Counted) (ht : s.tasks t = some (.asking q n))
    (r : TaskResult) : ((s.wake t).finishAsking t q r).Counted := by
  obtain ⟨A, hA, hcard, hlt⟩ := h
  obtain ⟨htasks, hquestions, hnext⟩ := finishAsking_rest (s := s.wake t) (t := t) q r
  refine ⟨A.erase t, fun u => ?_, ?_, fun u hu => ?_⟩
  · rw [htasks, Finset.mem_erase, hA]
    rcases eq_or_ne u t with rfl | hne
    · have hself : (s.wake u).tasks u = none := Function.update_self ..
      simp [hself]
    · have hother : (s.wake t).tasks u = s.tasks u := Function.update_of_ne hne ..
      simp [hother, hne]
  · rw [hquestions, Finset.card_erase_of_mem ((hA t).mpr ⟨q, n, ht⟩), hcard]
    rfl
  · rw [hnext]
    exact hlt u (Finset.mem_of_mem_erase hu)

/-- A question waits, after what was said to its host for it. -/
theorem Counted.waiting (h : s.Counted) (q : Question) (n : Nat)
    (ha : Aside { s with nextTask := s.nextTask + 1, questions := s.questions + 1 } u) :
    (u.suspend s.nextTask (.asking q n)).Counted := by
  have hnew := h.unasked (Nat.le_refl _)
  obtain ⟨A, hA, hcard, hlt⟩ := h
  refine ⟨insert s.nextTask A, fun v => ?_, ?_, fun v hv => ?_⟩
  · rw [Finset.mem_insert, hA]
    rcases eq_or_ne v s.nextTask with rfl | hne
    · have hself : (u.suspend s.nextTask (.asking q n)).tasks s.nextTask = some (.asking q n) :=
        Function.update_self ..
      simp [hself]
    · have hother : (u.suspend s.nextTask (.asking q n)).tasks v = u.tasks v :=
        Function.update_of_ne hne ..
      simp only [hne, false_or, hother]
      constructor
      · rintro ⟨q', r, htask⟩
        have hold : v < s.nextTask := hlt v ((hA v).mpr ⟨q', r, htask⟩)
        exact ⟨q', r, (ha.old (Nat.lt_succ_of_lt hold)).1.trans htask⟩
      · rintro ⟨q', r, htask⟩
        exact ⟨q', r, ha.tasks_of htask rfl⟩
  · have hmem : s.nextTask ∉ A := fun hmem => absurd (hlt _ hmem) (Nat.lt_irrefl _)
    rw [Finset.card_insert_of_notMem hmem, hcard]
    exact ha.questions.symm
  · have hnext : s.nextTask + 1 ≤ u.nextTask := ha.nextTask
    rcases Finset.mem_insert.mp hv with rfl | hv
    · exact hnext
    · exact Nat.lt_trans (hlt v hv) hnext

/-- A question is asked. -/
theorem Counted.askStart (h : s.Counted) (native : Bool) (q : Question) :
    (State.askStart api s.nextTask native q { s with nextTask := s.nextTask + 1 }).Counted := by
  unfold State.askStart
  dsimp only
  split
  · split
    · next e _ =>
      obtain ⟨htasks, hquestions, hnext⟩ := finishAsking_rest (t := s.nextTask)
        (s := { s with nextTask := s.nextTask + 1, questions := s.questions + 1 }) q (.error e)
      obtain ⟨A, hA, hcard, hlt⟩ := h
      refine ⟨A, fun u => ?_, hcard.trans hquestions.symm, fun u hu => ?_⟩
      · rw [htasks]
        exact hA u
      · rw [hnext]
        exact Nat.lt_succ_of_lt (hlt u hu)
    · next hopen =>
      exact h.waiting q _ ((openPort_aside hopen).trans (shakeHands_aside api native))
  · exact h.waiting q _ request_aside

/-! ## Steps -/

theorem askStart_on (hp : s.On p) (native : Bool) (q : Question) :
    (s.askStart api t native q).On p := by
  have hasked : On { s with questions := s.questions + 1 } p := hp
  have hopen := openPort_of_open (portOpen_of_on hasked) native
  unfold askStart
  dsimp only
  split
  · rw [hopen]
    exact (shakeHands_keeps api native).on hasked
  · exact (request_keeps api native _).on hasked

/-- The end of a question that leaves others in flight leaves the port open. -/
theorem finishAsking_on (hp : s.On p) (hq : s.questions ≠ 1) (h : s.questions ≠ 0) (q : Question)
    (r : TaskResult) : (s.finishAsking t q r).On p := by
  unfold finishAsking
  dsimp only
  rw [if_neg fun hidle => absurd hidle.1 (by omega)]
  exact hp

/-- A question that is unanswered is another one than the one that ends. -/
theorem Counted.others (h : s.Counted) (ht : s.tasks t = some (.asking q n))
    (hr : s.results n = some r) (hu : s.Unanswered p) : s.questions ≠ 1 ∧ s.questions ≠ 0 := by
  obtain ⟨A, hA, hcard, -⟩ := h
  obtain ⟨a, q', n', ha, -, hnone, -⟩ := hu
  have hne : a ≠ t := by
    rintro rfl
    cases ht.symm.trans ha
    cases hr.symm.trans hnone
  have htwo : 1 < A.card :=
    Finset.one_lt_card.mpr ⟨a, (hA a).mpr ⟨q', n', ha⟩, t, (hA t).mpr ⟨q, n, ht⟩, hne⟩
  omega

theorem counted_initial (settings : Option ProxyValue) (policy : Option String)
    (prediction : Option Bool) : (initial settings policy prediction).Counted := by
  refine ⟨∅, fun u => ?_, rfl, nofun⟩
  simp [initial]

/-- The questions in flight stay counted. -/
theorem counted_step (h : s.Counted) (hs : Extension.step api s e = some s') : s'.Counted := by
  have hlater : Counted { s with nextTask := s.nextTask + 1 } := by
    obtain ⟨A, hA, hcard, hlt⟩ := h
    exact ⟨A, hA, hcard, fun u hu => Nat.lt_succ_of_lt (hlt u hu)⟩
  have hstart {u : State} (hpart : Part api True s.nextTask
    { s with nextTask := s.nextTask + 1 } u) :
      u.Counted := hlater.calm hpart.toCalm (h.unasked (Nat.le_refl _))
  cases e with
  | connect options =>
    cases hs
    exact hstart .connectStart
  | reconnect options native =>
    cases hs
    exact hstart (.reconnectStart trivial)
  | disconnect native =>
    cases hs
    exact hstart .disconnectStart
  | applySplit split =>
    cases hs
    exact hstart .applySplitStart
  | ask q native =>
    cases hs
    exact h.askStart native q
  | resume t native =>
    obtain ⟨x, ht, hs⟩ := Option.bind_eq_some_iff.mp hs
    cases x with
    | requestHandshake body n =>
      obtain ⟨r, -, rfl⟩ := Option.map_eq_some_iff.mp hs
      have hwake : Part api True t s (s.wake t) := .wake
      refine h.calm (hwake.toCalm.trans .requestHandshakeDone) fun q r htask => ?_
      cases ht.symm.trans htask
    | asking q n =>
      obtain ⟨r, -, rfl⟩ := Option.map_eq_some_iff.mp hs
      exact h.finishAsking ht r
    | _ =>
      refine h.calm (Part.wake.trans (.resume rfl hs)).toCalm fun q r htask => ?_
      cases ht.symm.trans htask
  | timeout t =>
    obtain ⟨x, ht, hs⟩ := Option.bind_eq_some_iff.mp hs
    cases x with
    | reconnectRelease | disconnectRelease =>
      refine h.calm (Part.wake.trans (.timeout hs)).toCalm fun q r htask => ?_
      cases ht.symm.trans htask
    | _ => cases hs
  | browserAnswer n r =>
    simp only [Extension.step] at hs
    split at hs
    · split at hs
      · cases hs
        rw [takeEffect_eq]
        exact h.frame rfl rfl rfl
      · cases hs
    · cases hs
  | message p m =>
    simp only [Extension.step] at hs
    split at hs
    · cases hs
      obtain ⟨received, pending, answers, heq⟩ := s.onMessage_eq p m
      rw [heq]
      exact h.frame rfl rfl rfl
    · cases hs
  | death p =>
    simp only [Extension.step] at hs
    split at hs
    · cases hs
      obtain ⟨calls, heq⟩ := s.portDied_eq api p
      rw [heq]
      exact h.frame rfl rfl rfl
    · cases hs

/-- A call that goes on where no `connect` gives up with questions unanswered, and that releases no
host, leaves the port of an unanswered question open. -/
theorem resume_on (h : s.Counted) (ht : s.tasks t = some x)
    (hs : (s.wake t).resume api t native x = some s')
    (hspares : SparesQuestions api s (.resume t native)) (hr : ¬ s.Releases (.resume t native))
    (hp : s.On p) (hu : s.Unanswered p) : s'.On p := by
  have hpart (hplain : x.isPlain = true) (hcut : ¬ (s.wake t).MayCut api x) : s'.On p :=
    (Part.resume hplain hs).spares hcut hp
  cases x with
  | connect c a => exact hpart rfl fun hgives => hspares t native c a p rfl ht hgives hu
  | hello m =>
    exact hpart rfl fun hrefused => hr ⟨_, ht, hrefused⟩
  | requestHandshake body n =>
    obtain ⟨r, -, rfl⟩ := Option.map_eq_some_iff.mp hs
    have hcalm : Calm False t (s.wake t) ((s.wake t).requestHandshakeDone t native body r) :=
      .requestHandshakeDone
    exact hcalm.spares id hp
  | asking q n =>
    obtain ⟨r, hresult, rfl⟩ := Option.map_eq_some_iff.mp hs
    obtain ⟨hone, hzero⟩ := h.others ht hresult hu
    exact finishAsking_on (s := s.wake t) hp hone hzero q r
  | requestAnswer | applySplitProxy | applySplitVerify => exact hpart rfl id
  | reconnectLockdown | reconnectRelease | disconnectRelease | disconnectSettings
  | disconnectPolicy | disconnectPrediction => exact absurd ⟨_, ht, trivial⟩ hr

/-- Where no `connect` gives up with questions unanswered, the port outlives them. -/
theorem outlives_of_spares (hl : s.LiveOpen) (h : s.Counted) (hspares : SparesQuestions api s e) :
    OutlivesQuestions api s e := by
  intro s' p hs hcut hu
  obtain ⟨hlive, hdead, hdeath⟩ := hcut
  have hp : s.On p := (hl p).mp hlive
  have hoff : ¬ s'.On p := by
    intro hp'
    rw [(liveOpen_step hl hs p).mpr hp'] at hdead
    cases hdead
  by_contra hr
  refine hoff ?_
  have hstart {u : State} (hpart : Part api False s.nextTask
    { s with nextTask := s.nextTask + 1 } u) :
      u.On p := hpart.spares id hp
  cases e with
  | connect options =>
    cases hs
    exact hstart .connectStart
  | reconnect | disconnect => exact absurd trivial hr
  | applySplit split =>
    cases hs
    exact hstart .applySplitStart
  | ask q native =>
    cases hs
    exact askStart_on (s := { s with nextTask := s.nextTask + 1 }) hp native q
  | resume t native =>
    obtain ⟨x, ht, hs⟩ := Option.bind_eq_some_iff.mp hs
    exact resume_on h ht hs hspares hr hp hu
  | timeout t =>
    obtain ⟨x, ht, hs⟩ := Option.bind_eq_some_iff.mp hs
    cases x with
    | reconnectRelease | disconnectRelease => exact absurd ⟨_, ht, trivial⟩ hr
    | _ => cases hs
  | browserAnswer n r =>
    simp only [Extension.step] at hs
    split at hs
    · split at hs
      · cases hs
        rw [takeEffect_eq]
        exact hp
      · cases hs
    · cases hs
  | message q m =>
    simp only [Extension.step] at hs
    split at hs
    · cases hs
      obtain ⟨received, pending, answers, heq⟩ := s.onMessage_eq q m
      rw [heq]
      exact hp
    · cases hs
  | death q =>
    simp only [Extension.step] at hs
    split at hs
    · next hq =>
      have hport := ((hl q).mp hq).1.symm.trans hp.1
      cases hport
      exact absurd rfl hdeath
    · cases hs

/-! ## A `connect` that gives up -/

theorem connectFailed_off (p : Nat) : ¬ (s.connectFailed t c e).On p := fun hp => by cases hp.1

theorem connectCatch_off (hc : c.hardened = false) (p : Nat) : ¬ (s.connectCatch t c e).On p := by
  unfold connectCatch
  rw [hc]
  exact connectFailed_off p

theorem gaveUp_off (hgives : s.GivesUp api c a) (hs : s.resumeConnect api t native c a = some s')
    (p : Nat) : ¬ s'.On p := by
  cases a with
  | assertProxyControl n =>
    obtain ⟨hc, r, e, hr, he⟩ := hgives
    obtain ⟨r', hr', rfl⟩ := Option.map_eq_some_iff.mp hs
    cases hr.symm.trans hr'
    unfold connectControlled
    rw [he]
    exact connectCatch_off hc p
  | holdsLeakHardening n =>
    obtain ⟨hc, e, hr⟩ := hgives
    obtain ⟨r', hr', rfl⟩ := Option.map_eq_some_iff.mp hs
    cases hr.symm.trans hr'
    exact connectCatch_off hc p
  | isAllowedIncognitoAccess n =>
    obtain ⟨hc, r, hr, hdenied⟩ := hgives
    obtain ⟨r', hr', rfl⟩ := Option.map_eq_some_iff.mp hs
    cases hr.symm.trans hr'
    unfold connectAccessKnown
    split
    · exact connectCatch_off hc p
    · next v =>
      split
      · exact connectCatch_off hc p
      · next hv =>
        rw [(hdenied v rfl).resolve_left hv]
        exact connectCatch_off hc p
  | request u =>
    obtain ⟨hc, r, hr, hdenied⟩ := hgives
    obtain ⟨r', hr', rfl⟩ := Option.map_eq_some_iff.mp hs
    cases hr.symm.trans hr'
    unfold connectAnswered
    split
    · exact connectCatch_off hc p
    · split
      · exact connectCatch_off hc p
      · next auth hauth => exact absurd ⟨auth, hauth⟩ hdenied
    · exact connectCatch_off hc p
  | hardenPolicy g n =>
    obtain ⟨hc, e, hr⟩ := hgives
    obtain ⟨r', hr', rfl⟩ := Option.map_eq_some_iff.mp hs
    cases hr.symm.trans hr'
    exact connectCatch_off hc p
  | hardenPrediction g n =>
    obtain ⟨hc, e, hr⟩ := hgives
    obtain ⟨r', hr', rfl⟩ := Option.map_eq_some_iff.mp hs
    cases hr.symm.trans hr'
    exact connectCatch_off hc p
  | applyProxy g n =>
    obtain ⟨hc, r, e, hr, he⟩ := hgives
    obtain ⟨r', hr', rfl⟩ := Option.map_eq_some_iff.mp hs
    cases hr.symm.trans hr'
    unfold connectApplied
    rw [he]
    exact connectCatch_off hc p
  | verifyRouting g n =>
    obtain ⟨hc, r, hr, hdenied⟩ := hgives
    obtain ⟨r', hr', rfl⟩ := Option.map_eq_some_iff.mp hs
    cases hr.symm.trans hr'
    unfold connectVerified
    split
    · exact connectCatch_off hc p
    · next d hd =>
      rw [if_pos (hdenied d hd)]
      exact connectCatch_off hc p
  | restoreSettings e n =>
    obtain ⟨r, hr, hheld⟩ := hgives
    obtain ⟨r', hr', rfl⟩ := Option.map_eq_some_iff.mp hs
    cases hr.symm.trans hr'
    unfold connectRestored
    split
    · exact connectFailed_off p
    · next v =>
      rw [if_neg]
      · exact connectFailed_off p
      · intro hboth
        rcases hheld v rfl with hleaks | hcontrolled
        · cases hboth.1.symm.trans hleaks
        · cases hboth.2.symm.trans hcontrolled
  | releasePolicy e n =>
    obtain ⟨e', hr⟩ := hgives
    obtain ⟨r', hr', rfl⟩ := Option.map_eq_some_iff.mp hs
    cases hr.symm.trans hr'
    exact connectFailed_off p
  | releasePrediction e n =>
    obtain ⟨r', -, rfl⟩ := Option.map_eq_some_iff.mp hs
    exact connectFailed_off p

/-- A `connect` that gives up cuts the unanswered questions off. -/
theorem spares_of_outlives (hl : s.LiveOpen) (hs : Extension.step api s e = some s')
    (h : OutlivesQuestions api s e) : SparesQuestions api s e := by
  intro t native c a p he ht hgives hu
  subst he
  have hgoes : (s.wake t).resumeConnect api t native c a = some s' := by
    obtain ⟨x, hx, hgoes⟩ := Option.bind_eq_some_iff.mp hs
    cases ht.symm.trans hx
    exact hgoes
  have hp : s.On p := by
    obtain ⟨_, _, _, _, hp, _⟩ := hu
    exact hp
  have hdead : s'.live p = false := by
    by_contra hlive
    rw [Bool.not_eq_false] at hlive
    exact gaveUp_off (s := s.wake t) hgives hgoes p ((liveOpen_step hl hs p).mp hlive)
  obtain ⟨x, hx, hreleased⟩ := h s' p hs ⟨(hl p).mpr hp, hdead, nofun⟩ hu
  cases ht.symm.trans hx
  exact hreleased

/-- The port outlives its questions exactly in the runs in which no `connect` gives up while one is
unanswered. -/
theorem outlivesQuestions_iff (api : ChromeLike) (settings : Option ProxyValue)
    (policy : Option String) (prediction : Option Bool) (es : List Event) :
    Guarded (Extension.step api) (OutlivesQuestions api) (.initial settings policy prediction) es ↔
      Guarded (Extension.step api) (SparesQuestions api) (.initial settings policy prediction)
          es := by
  refine guarded_iff (I := fun s => s.LiveOpen ∧ s.Counted) ?_ ?_
    ⟨liveOpen_initial settings policy prediction, counted_initial settings policy prediction⟩
  · intro s e s' hI hs
    exact ⟨liveOpen_step hI.1 hs, counted_step hI.2 hs⟩
  · intro s e s' hI hs
    exact ⟨spares_of_outlives hI.1 hs, outlives_of_spares hI.1 hI.2⟩

/-- A `status` waits for its answer when a `connect` starts, over proxy settings that another
extension controls. -/
def statusAsked : List Event := [
  .ask .status true,
  .message 0 (some (.response (.ok 1 (.hello 3 none)))),
  .resume 2 true,
  .resume 1 true,
  .connect { mnemonic := "" },
  .browserAnswer 0 (.ok (.details { levelOfControl := some .controlledByOtherExtensions }))]

/-- The `connect` fails, and takes the port of the `status` with it. -/
theorem not_outlivesQuestions_statusAsked : ¬ Guarded (Extension.step chromium)
    (OutlivesQuestions chromium) (.initial none none none) (statusAsked ++ [.resume 3 true]) := by
  have hrun : ∃ s, exec (Extension.step chromium) (fun _ _ => true) (.initial none none none)
      statusAsked = some s ∧ s.Unanswered 0 ∧ s.live 0 = true ∧
        (∃ c a, s.tasks 3 = some (.connect c a)) ∧
        ∃ s', Extension.step chromium s (.resume 3 true) = some s' ∧ s'.live 0 = false :=
    ⟨_, rfl, ⟨0, .status, 1, rfl, ⟨rfl, rfl⟩, rfl, List.mem_singleton_self 2⟩, rfl, ⟨_, _, rfl⟩,
      _, rfl, rfl⟩
  obtain ⟨s, hs, hu, hlive, ⟨c, a, ht⟩, s', hs', hdead⟩ := hrun
  intro h
  have houtlives := ((h.exec hs) s' hs').1
  obtain ⟨x, hx, hreleased⟩ := houtlives s' 0 hs' ⟨hlive, hdead, nofun⟩ hu
  cases ht.symm.trans hx
  exact hreleased

end State

end WarrenSdk.Extension
