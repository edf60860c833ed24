import WarrenSdk.Extension.Client.Operations

/-!
# Talking to the host leaves the browser alone

Opening or closing a port, sending a message, shaking hands and making a request change the ports,
the messages and the calls in flight, and nothing else: `Aside s s'` says that `s'` comes from `s`
by such parts, and that the calls they leave suspended are fresh requests.
-/

namespace WarrenSdk.Extension

/-- A call that only waits for the host and then settles. -/
def Task.isRequest : Task → Bool
  | .hello _ | .requestHandshake _ _ | .requestAnswer _ => true
  | _ => false

def Task.isConnect : Task → Bool
  | .connect _ _ => true
  | _ => false

namespace State

/-- `s'` differs from `s` in its ports, its messages and fresh calls of `request`. -/
structure Aside (s s' : State) : Prop where
  proxied : s'.proxied = s.proxied
  tunnelUp : s'.tunnelUp = s.tunnelUp
  endpoints : s'.endpoints = s.endpoints
  auth : s'.auth = s.auth
  connecting : s'.connecting = s.connecting
  questions : s'.questions = s.questions
  releasing : s'.releasing = s.releasing
  onRequestHandler : s'.onRequestHandler = s.onRequestHandler
  calls : s'.calls = s.calls
  browserResults : s'.browserResults = s.browserResults
  settings : s'.settings = s.settings
  policy : s'.policy = s.policy
  predictionSetting : s'.predictionSetting = s.predictionSetting
  handlers : s'.handlers = s.handlers
  nextHandler : s'.nextHandler = s.nextHandler
  source : s'.source = s.source
  nextTask : s.nextTask ≤ s'.nextTask
  old : ∀ {t}, t < s.nextTask → s'.tasks t = s.tasks t ∧ s'.results t = s.results t
  fresh : ∀ {t}, s.nextTask ≤ t → s'.tasks t = s.tasks t ∨
    t < s'.nextTask ∧ ∃ x, s'.tasks t = some x ∧ x.isRequest = true
  settled : ∀ {t}, s.nextTask ≤ t → s'.results t = s.results t ∨
    t < s'.nextTask ∧ ∃ e, s'.results t = some (.error e)

theorem Aside.refl : Aside s s := by
  constructor <;> simp

theorem Aside.trans (h : Aside s u) (h' : Aside u v) : Aside s v := by
  have hn := h'.nextTask
  constructor
  case nextTask => exact Nat.le_trans h.nextTask hn
  case old =>
    intro t ht
    obtain ⟨h1, h2⟩ := h'.old (Nat.lt_of_lt_of_le ht h.nextTask)
    exact ⟨h1.trans (h.old ht).1, h2.trans (h.old ht).2⟩
  case fresh =>
    intro t ht
    rcases Nat.lt_or_ge t u.nextTask with hlt | hge
    · rw [(h'.old hlt).1]
      exact (h.fresh ht).imp_right fun ⟨h1, h2⟩ => ⟨Nat.lt_of_lt_of_le h1 hn, h2⟩
    · rcases h'.fresh hge with he | hx
      · rw [he]
        exact (h.fresh ht).imp_right fun ⟨h1, h2⟩ => ⟨Nat.lt_of_lt_of_le h1 hn, h2⟩
      · exact .inr hx
  case settled =>
    intro t ht
    rcases Nat.lt_or_ge t u.nextTask with hlt | hge
    · rw [(h'.old hlt).2]
      exact (h.settled ht).imp_right fun ⟨h1, h2⟩ => ⟨Nat.lt_of_lt_of_le h1 hn, h2⟩
    · rcases h'.settled hge with he | hx
      · rw [he]
        exact (h.settled ht).imp_right fun ⟨h1, h2⟩ => ⟨Nat.lt_of_lt_of_le h1 hn, h2⟩
      · exact .inr hx
  case proxied => exact h'.proxied.trans h.proxied
  case tunnelUp => exact h'.tunnelUp.trans h.tunnelUp
  case endpoints => exact h'.endpoints.trans h.endpoints
  case auth => exact h'.auth.trans h.auth
  case connecting => exact h'.connecting.trans h.connecting
  case questions => exact h'.questions.trans h.questions
  case releasing => exact h'.releasing.trans h.releasing
  case onRequestHandler => exact h'.onRequestHandler.trans h.onRequestHandler
  case calls => exact h'.calls.trans h.calls
  case browserResults => exact h'.browserResults.trans h.browserResults
  case settings => exact h'.settings.trans h.settings
  case policy => exact h'.policy.trans h.policy
  case predictionSetting => exact h'.predictionSetting.trans h.predictionSetting
  case handlers => exact h'.handlers.trans h.handlers
  case nextHandler => exact h'.nextHandler.trans h.nextHandler
  case source => exact h'.source.trans h.source

theorem openPort_aside (h : openPort native s = .ok s') : Aside s s' := by
  unfold openPort at h
  split at h
  · cases h; exact .refl
  · split at h
    · cases h; constructor <;> simp
    · cases h

theorem closePort_aside : Aside s s.closePort := by
  constructor <;> simp [closePort, rejectPending]

theorem send_aside (h : send native body s = .ok s') : Aside s s' := by
  unfold send at h
  split at h
  · cases h
  · next ho =>
    cases h
    refine (openPort_aside ho).trans ?_
    constructor <;> simp

/-- A fresh call suspended as a request. -/
theorem Aside.suspend (h : Aside s s') (ht : s.nextTask ≤ t) (hlt : t < s'.nextTask)
    (hx : x.isRequest = true) : Aside s (s'.suspend t x) :=
  { h with
    old := fun {t'} hold => by
      simpa [State.suspend, Nat.ne_of_lt (Nat.lt_of_lt_of_le hold ht)] using h.old hold
    fresh := fun {t'} ht' => by
      by_cases he : t' = t
      · subst he
        exact .inr ⟨hlt, x, by simp [State.suspend], hx⟩
      · simpa [State.suspend, he] using h.fresh ht' }

/-- A fresh call rejected. -/
theorem Aside.settle (h : Aside s s') (ht : s.nextTask ≤ t) (hlt : t < s'.nextTask) :
    Aside s (s'.settle t (.error e)) :=
  { h with
    old := fun {t'} hold => by
      simpa [State.settle, Nat.ne_of_lt (Nat.lt_of_lt_of_le hold ht)] using h.old hold
    settled := fun {t'} ht' => by
      by_cases he : t' = t
      · subst he
        exact .inr ⟨hlt, e, by simp [State.settle]⟩
      · simpa [State.settle, he] using h.settled ht' }

/-- Parts that talk to the host leave the calls that are no requests suspended as they are. -/
theorem Aside.tasks_of (h : Aside s s') (ht : s'.tasks t = some x) (hx : x.isRequest = false) :
    s.tasks t = some x := by
  rcases Nat.lt_or_ge t s.nextTask with hlt | hge
  · rw [← (h.old hlt).1]
    exact ht
  · rcases h.fresh hge with he | ⟨-, y, hy, hreq⟩
    · rw [← he]
      exact ht
    · cases hy.symm.trans ht
      rw [hx] at hreq
      cases hreq

variable {api : ChromeLike}

theorem shakeHands_aside (api : ChromeLike) (native : Bool) :
    Aside s (s.shakeHands api native).2 := by
  unfold shakeHands
  split
  · exact .refl
  · have h : Aside s { s with nextTask := s.nextTask + 1, handshake := some s.nextTask } := by
      constructor <;> simp
    simp only
    split
    · exact h.settle (Nat.le_refl _) (Nat.lt_succ_self _)
    · next hs =>
      have hs := send_aside hs
      exact (h.trans hs).suspend (Nat.le_refl _) hs.nextTask rfl

/-- The handshake a port waits for is numbered below the calls to come. -/
theorem request_aside : Aside s (s.request api native body) := by
  have h : Aside s { s with nextTask := s.nextTask + 1 } := by constructor <;> simp
  unfold request
  simp only
  split
  · exact h.settle (Nat.le_refl _) (Nat.lt_succ_self _)
  · next ho =>
    have ho := (openPort_aside ho).trans (shakeHands_aside api native)
    exact (h.trans ho).suspend (Nat.le_refl _) ho.nextTask rfl

/-- An answer of the browser changes its settings alone. -/
theorem takeEffect_eq : takeEffect c r s =
    { s with settings := (takeEffect c r s).settings
             policy := (takeEffect c r s).policy
             predictionSetting := (takeEffect c r s).predictionSetting } := by
  unfold takeEffect
  split
  · rfl
  · rfl
  · split <;> rfl

end State

end WarrenSdk.Extension
