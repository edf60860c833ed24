import WarrenSdk.Extension.BrowserRouting
import WarrenSdk.Lib.LowerCase
import WarrenSdk.Lib.Recent
import WarrenSdk.Lib.Run

/-!
# Chromium's proxy authentication (`attachChromiumProxyAuth`)

The provider registered for the extension's life, with everything it reads: the live local session,
the routing record and the credential, each of which may change or fail at any time. A challenge in
flight is an `AuthTask`, named by what its answer awaits.
-/

namespace WarrenSdk.Extension

open Lib (Utf16 remember Spaced Trace)
open Lib.Utf16 (asciiLowerCase)

/-- The proxy or server asking, as the browser dialed it. -/
structure Challenger where
  host : Utf16
  port : Nat
deriving DecidableEq

def Challenger.listener (c : Challenger) : Utf16 := (c.host ++ ":" ++ toString c.port : Utf16)

/-- What `webRequest.onAuthRequired` says about a challenge. -/
structure AuthChallenge where
  isProxy : Bool
  requestId : Option Utf16 := none
  challenger : Option Challenger := none
deriving DecidableEq

/-- What a challenge's callback is given. -/
inductive AuthResponse
  | empty
  | cancel
  | authCredentials (auth : ExtensionProxyAuth)
deriving DecidableEq

/-- The live session of the local host: the listeners it owns and their credentials. -/
structure LocalSession where
  endpoints : ExtensionEndpoints
  auth : ExtensionProxyAuth

/-- `WarrenBrowserVpn.forListener` of a live session. -/
def LocalSession.forListener (listener : Utf16) (session : LocalSession) :
    Option ExtensionProxyAuth :=
  if session.endpoints.http.map Utf16.ofString = some listener ∨
      listener = session.endpoints.socks5 then
    some session.auth
  else none

/-- The live session of a browser VPN client. -/
def State.session (s : State) : Option LocalSession :=
  match s.endpoints, s.auth with
  | some endpoints, some auth => some { endpoints, auth }
  | _, _ => none

/-- The lookup over a client is the client's own. -/
theorem State.forListener_eq (listener : String) (s : State) :
    s.forListener listener = s.session.bind (·.forListener listener) := by
  unfold State.forListener State.session
  cases s.auth with
  | none => cases s.endpoints <;> rfl
  | some auth =>
    cases s.endpoints with
    | none => rfl
    | some endpoints =>
      have hhttp : endpoints.http.map Utf16.ofString = some (Utf16.ofString listener) ↔
          endpoints.http = some listener := by
        rw [Option.map_eq_some_iff]
        constructor
        · rintro ⟨http, hhttp, heq⟩
          rw [hhttp, Utf16.ofString_inj.mp heq]
        · intro h
          exact ⟨listener, h, rfl⟩
      simp only [LocalSession.forListener, Option.bind_some, hhttp, Utf16.ofString_inj]

/-- What the sources hold, or that reading them fails. A source left out is one that holds
nothing. -/
structure AuthSources where
  session : Except Failure (Option LocalSession)
  routing : Except Failure (Option RoutingRecord)
  credential : Except Failure (Option String)

/-- A challenge in flight, by the promise its answer awaits: `routing.load()`,
`credentials.current()`, or what `credentialFor` came to. -/
inductive AuthTask
  | load (requestId : Utf16) (challenger : Challenger)
  | current (requestId : Utf16)
  | credential (requestId : Utf16) (result : Except Failure (Option ExtensionProxyAuth))

def AuthTask.requestId : AuthTask → Utf16
  | .load id _ | .current id | .credential id _ => id

structure AuthState where
  sources : AuthSources
  /-- The set of answered ids, in the order they were added. -/
  answered : List Utf16 := []
  /-- Every challenge, in the order they came. -/
  challenges : List AuthChallenge := []
  tasks : Nat → Option AuthTask := fun _ => none
  /-- Every call of a challenge's callback. -/
  callbacks : List (Nat × AuthResponse) := []

def ANSWERED_MEMORY : Nat := 512

namespace AuthState

def call (n : Nat) (r : AuthResponse) (s : AuthState) : AuthState :=
  { s with callbacks := s.callbacks ++ [(n, r)], tasks := Function.update s.tasks n none }

def suspend (n : Nat) (task : AuthTask) (s : AuthState) : AuthState :=
  { s with tasks := Function.update s.tasks n (some task) }

section
variable (toLowerCase : Utf16 → Utf16)

/-- Whether a record names the challenger as its ingress. -/
def namesIngress (c : Challenger) : Option RoutingRecord → Bool
  | some (.ingress endpoint _) =>
    toLowerCase endpoint.host = toLowerCase c.host && endpoint.port = c.port
  | _ => false

/-- The listener up to its first await. -/
def challenge (d : AuthChallenge) (s : AuthState) : AuthState :=
  let n := s.challenges.length
  let s := { s with challenges := s.challenges ++ [d] }
  if !d.isProxy then s.call n .empty
  else
    match d.challenger with
    | none => s.call n .cancel
    | some c =>
      match d.requestId with
      | none => s.call n .cancel
      | some id =>
        if s.answered.contains id then s.call n .cancel
        else if isLoopbackHost toLowerCase c.host then
          s.suspend n (.credential id (s.sources.session.map (·.bind (·.forListener c.listener))))
        else s.suspend n (.load id c)

/-- `credentialFor` once a promise of a source is settled, up to its next await. -/
def settle (n : Nat) (s : AuthState) : AuthTask → Option AuthState
  | .load id c =>
    match s.sources.routing with
    | .error e => some (s.suspend n (.credential id (.error e)))
    | .ok record =>
      if namesIngress toLowerCase c record then some (s.suspend n (.current id))
      else some (s.suspend n (.credential id (.ok none)))
  | .current id =>
    some <| s.suspend n <| .credential id <| s.sources.credential.map <| Option.map fun password =>
      { username := CREDENTIAL_USERNAME, password }
  | .credential _ _ => none

end

/-- The answer once its credential is known, and the callback it is passed to. -/
def answer (n : Nat) (s : AuthState) : AuthTask → Option AuthState
  | .credential _ (.error _) | .credential _ (.ok none) => some (s.call n .cancel)
  | .credential id (.ok (some auth)) =>
    some <| { s with answered := remember ANSWERED_MEMORY s.answered id }.call n
      (.authCredentials auth)
  | _ => none

end AuthState

/-- What can happen next: a challenge, a change of the sources, a promise of theirs settled for the
challenge `n`, or its answer. -/
inductive AuthEvent
  | challenge (details : AuthChallenge)
  | sources (sources : AuthSources)
  | settle (n : Nat)
  | answer (n : Nat)

def authStep (toLowerCase : Utf16 → Utf16) (s : AuthState) : AuthEvent → Option AuthState
  | .challenge d => some (s.challenge toLowerCase d)
  | .sources sources => some { s with sources }
  | .settle n => (s.tasks n).bind (s.settle toLowerCase n)
  | .answer n => (s.tasks n).bind (s.answer n)

namespace AuthState

/-- A second challenge for a request id comes only after the first was answered. -/
def InTurn (s : AuthState) : AuthEvent → Prop
  | .challenge d => ∀ n task, s.tasks n = some task → d.requestId ≠ some task.requestId
  | _ => True

/-! ## What holds of every run -/

/-- The challenge `n` waits for its answer. -/
def Asking (n : Nat) (s : AuthState) : Prop := s.tasks n ≠ none

/-- The live session owns the challenger's address, and these are its credentials. -/
def OwnsListener (c : Challenger) (auth : ExtensionProxyAuth) (s : AuthState) : Prop :=
  ∃ session, s.sources.session = .ok (some session) ∧
    session.forListener c.listener = some auth

/-- The routing record names the challenger as its ingress. -/
def RoutesThrough (toLowerCase : Utf16 → Utf16) (c : Challenger) (s : AuthState) : Prop :=
  ∃ endpoint split, s.sources.routing = .ok (some (.ingress endpoint split)) ∧
    toLowerCase endpoint.host = toLowerCase c.host ∧ endpoint.port = c.port

/-- The challenger of `n` may be given `auth`: while the challenge was in flight it was a loopback
address that the live session owned with these credentials, or the ingress of the routing record,
and these are its credential. -/
def Entitled (toLowerCase : Utf16 → Utf16) (past : List AuthState) (n : Nat) (c : Challenger)
    (auth : ExtensionProxyAuth) : Prop :=
  if isLoopbackHost toLowerCase c.host then ∃ t ∈ past, t.Asking n ∧ t.OwnsListener c auth
  else
    (∃ t ∈ past, t.Asking n ∧ t.RoutesThrough toLowerCase c) ∧
      auth.username = CREDENTIAL_USERNAME ∧
      ∃ t ∈ past, t.Asking n ∧ t.sources.credential = .ok (some auth.password)

/-- The request ids answered with credentials, in that order. -/
def credentialled (s : AuthState) : List Utf16 :=
  s.callbacks.filterMap fun (n, r) =>
    match r with
    | .authCredentials _ => s.challenges[n]?.bind (·.requestId)
    | _ => none

/-- At most `k` events answer the challenge `n`. -/
def AnsweredWithin (toLowerCase : Utf16 → Utf16) (n k : Nat) (s : AuthState) : Prop :=
  ∃ es t, es.length ≤ k ∧ Lib.exec (authStep toLowerCase) (fun _ _ => true) s es = some t ∧
    ¬ t.Asking n

/-- What the provider guarantees at a state and the states before it. -/
structure Safe (toLowerCase : Utf16 → Utf16) (past : List AuthState) (s : AuthState) : Prop where
  /-- Credentials go to a proxy that is entitled to them. -/
  entitled : ∀ n auth, (n, .authCredentials auth) ∈ s.callbacks → ∃ d c,
    s.challenges[n]? = some d ∧ d.isProxy = true ∧ d.challenger = some c ∧
      Entitled toLowerCase past n c auth
  /-- None of the last 512 request ids answered with credentials receives them again. -/
  spaced : Spaced ANSWERED_MEMORY s.credentialled
  /-- Every other proxy challenge is cancelled, and no other challenge answered at all. -/
  cancelled : ∀ n r d, (n, r) ∈ s.callbacks → s.challenges[n]? = some d →
    if d.isProxy then r = .cancel ∨ ∃ auth, r = .authCredentials auth else r = .empty
  /-- A challenge in flight was not answered, any other exactly once. -/
  once : ∀ n < s.challenges.length,
    (s.callbacks.filter (·.1 = n)).length = if (s.tasks n).isSome then 0 else 1
  /-- A challenge in flight is answered by at most three events. -/
  answers : ∀ n, s.Asking n → AnsweredWithin toLowerCase n 3 s

/-! ## The invariant -/

variable {toLowerCase : Utf16 → Utf16}

theorem Entitled.mono {past past' : List AuthState} (hp : past ⊆ past')
    (h : Entitled toLowerCase past n c auth) : Entitled toLowerCase past' n c auth := by
  unfold Entitled at h ⊢
  split at h
  · obtain ⟨t, ht, h⟩ := h
    rw [if_pos ‹_›]
    exact ⟨t, hp ht, h⟩
  · obtain ⟨⟨t, ht, h⟩, hu, u, hu', h'⟩ := h
    rw [if_neg ‹_›]
    exact ⟨⟨t, hp ht, h⟩, hu, u, hp hu', h'⟩

/-- What a task of the challenge `n` from `c` has come to know. -/
def Knows (toLowerCase : Utf16 → Utf16) (past : List AuthState) (n : Nat) (c : Challenger) :
    AuthTask → Prop
  | .load _ c' => c' = c ∧ isLoopbackHost toLowerCase c.host = false
  | .current _ => isLoopbackHost toLowerCase c.host = false ∧
      ∃ t ∈ past, t.Asking n ∧ t.RoutesThrough toLowerCase c
  | .credential _ (.ok (some auth)) => Entitled toLowerCase past n c auth
  | .credential _ _ => True

theorem Knows.mono {past past' : List AuthState} {task : AuthTask} (hp : past ⊆ past')
    (h : Knows toLowerCase past n c task) : Knows toLowerCase past' n c task := by
  match task, h with
  | .load _ _, h => exact h
  | .current _, ⟨hl, t, ht, h⟩ => exact ⟨hl, t, hp ht, h⟩
  | .credential _ (.ok (some auth)), h => exact Entitled.mono hp h
  | .credential _ (.ok none), _ | .credential _ (.error _), _ => trivial

/-- A task belongs to a proxy's challenge for a request that is not among those remembered. -/
def Belongs (toLowerCase : Utf16 → Utf16) (past : List AuthState) (s : AuthState) (n : Nat)
    (task : AuthTask) : Prop :=
  ∃ d c, s.challenges[n]? = some d ∧ d.isProxy = true ∧ d.requestId = some task.requestId ∧
    d.challenger = some c ∧ task.requestId ∉ s.answered ∧ Knows toLowerCase past n c task

structure AuthInv (toLowerCase : Utf16 → Utf16) (past : List AuthState) (s : AuthState) :
    Prop where
  called : ∀ n r, (n, r) ∈ s.callbacks → n < s.challenges.length
  belongs : ∀ n task, s.tasks n = some task → Belongs toLowerCase past s n task
  distinct : ∀ n m t u, s.tasks n = some t → s.tasks m = some u → t.requestId = u.requestId →
    n = m
  answered : s.answered = s.credentialled.rtake ANSWERED_MEMORY
  entitled : ∀ n auth, (n, .authCredentials auth) ∈ s.callbacks → ∃ d c,
    s.challenges[n]? = some d ∧ d.isProxy = true ∧ d.challenger = some c ∧
      Entitled toLowerCase past n c auth
  spaced : Spaced ANSWERED_MEMORY s.credentialled
  cancelled : ∀ n r d, (n, r) ∈ s.callbacks → s.challenges[n]? = some d →
    if d.isProxy then r = .cancel ∨ ∃ auth, r = .authCredentials auth else r = .empty
  once : ∀ n < s.challenges.length,
    (s.callbacks.filter (·.1 = n)).length = if (s.tasks n).isSome then 0 else 1

theorem AuthInv.initial (sources : AuthSources) :
    AuthInv toLowerCase [{ sources }] { sources } where
  called := by simp
  belongs := by simp
  distinct := by simp
  answered := by simp [credentialled]
  entitled := by simp
  spaced := .nil
  cancelled := by simp
  once := by simp

/-! ### Steps -/

/-- A challenge that arrives changes nothing about the ones before it. -/
def arrive (d : AuthChallenge) (s : AuthState) : AuthState :=
  { s with challenges := s.challenges ++ [d] }

/-- What an event can do. -/
inductive Moves (toLowerCase : Utf16 → Utf16) (s : AuthState) : AuthEvent → AuthState → Prop
  | change (sources : AuthSources) : Moves toLowerCase s (.sources sources) { s with sources }
  | refuse : (if d.isProxy then r = .cancel else r = .empty) →
    Moves toLowerCase s (.challenge d) ((s.arrive d).call s.challenges.length r)
  | ask : d.isProxy = true → d.requestId = some task.requestId → d.challenger = some c →
    task.requestId ∉ s.answered →
    Knows toLowerCase [(s.arrive d).suspend s.challenges.length task] s.challenges.length c task →
    Moves toLowerCase s (.challenge d) ((s.arrive d).suspend s.challenges.length task)
  | learn : s.tasks n = some task → task'.requestId = task.requestId →
    (∀ past c, Knows toLowerCase past n c task →
      Knows toLowerCase (s.suspend n task' :: past) n c task') →
    Moves toLowerCase s e (s.suspend n task')
  | cancel : s.tasks n = some task → Moves toLowerCase s e (s.call n .cancel)
  | grant {id : Utf16} : s.tasks n = some (.credential id (.ok (some auth))) →
    Moves toLowerCase s e ({ s with answered := remember ANSWERED_MEMORY s.answered id }.call n
      (.authCredentials auth))

theorem asking_suspend (n : Nat) (task : AuthTask) (s : AuthState) :
    (s.suspend n task).Asking n := by
  simp [Asking, suspend]

/-- What the lookup of the local session comes to is known in the state it was made in. -/
theorem knows_session {t : AuthState} {id : Utf16} (hl : isLoopbackHost toLowerCase c.host = true)
    (ht : (t.suspend n (.credential id
      (t.sources.session.map (·.bind (·.forListener c.listener))))) ∈ past) :
    Knows toLowerCase past n c
      (.credential id (t.sources.session.map (·.bind (·.forListener c.listener)))) := by
  cases hs : t.sources.session with
  | error e => trivial
  | ok session =>
    cases session with
    | none => trivial
    | some session =>
      rw [hs] at ht
      simp only [Except.map, Option.bind_some] at ht ⊢
      cases hauth : session.forListener c.listener with
      | none => trivial
      | some auth =>
        rw [hauth] at ht
        simp only [Knows, Entitled, if_pos hl]
        exact ⟨_, ht, asking_suspend _ _ _, session, hs, hauth⟩

theorem Moves.of_challenge : Moves toLowerCase s (.challenge d) (s.challenge toLowerCase d) := by
  have hrefuse {r : AuthResponse} (hr : if d.isProxy then r = .cancel else r = .empty) :
      Moves toLowerCase s (.challenge d) ((s.arrive d).call s.challenges.length r) := .refuse hr
  cases hproxy : d.isProxy with
  | false =>
    rw [challenge, if_pos (by simp [hproxy])]
    exact hrefuse (by simp [hproxy])
  | true =>
    have hcancel := hrefuse (r := .cancel) (by simp [hproxy])
    rw [challenge, if_neg (by simp [hproxy])]
    cases hc : d.challenger with
    | none => exact hcancel
    | some c =>
      cases hid : d.requestId with
      | none => exact hcancel
      | some id =>
        dsimp only
        split
        next => exact hcancel
        next hnew =>
          have hnew : id ∉ s.answered := by simpa using hnew
          split
          next hl =>
            refine .ask hproxy hid hc hnew ?_
            have hmem := List.mem_singleton_self ((s.arrive d).suspend s.challenges.length
              (.credential id (s.sources.session.map (·.bind (·.forListener c.listener)))))
            exact knows_session (t := s.arrive d) hl hmem
          next hl =>
            refine .ask hproxy hid hc hnew ?_
            exact ⟨rfl, Bool.eq_false_iff.mpr hl⟩

theorem routesThrough_of_namesIngress {t : AuthState} (hrecord : t.sources.routing = .ok record)
    (h : namesIngress toLowerCase c record = true) : t.RoutesThrough toLowerCase c := by
  match record, h with
  | some (.ingress endpoint split), h =>
    simp only [namesIngress, Bool.and_eq_true, decide_eq_true_eq] at h
    exact ⟨endpoint, split, hrecord, h.1, h.2⟩

theorem Moves.of_settle (ht : s.tasks n = some task)
    (h : s.settle toLowerCase n task = some s') : Moves toLowerCase s e s' := by
  cases task with
  | credential id result => cases h
  | load id c =>
    simp only [settle] at h
    split at h
    next e he =>
      cases h
      exact .learn ht rfl fun _ _ _ => trivial
    next record hrecord =>
      split at h
      next hnames =>
        cases h
        refine .learn ht rfl ?_
        rintro past c' ⟨rfl, hl⟩
        refine ⟨hl, _, List.mem_cons_self, asking_suspend _ _ _, ?_⟩
        exact routesThrough_of_namesIngress hrecord hnames
      next =>
        cases h
        exact .learn ht rfl fun _ _ _ => trivial
  | current id =>
    cases h
    refine .learn ht rfl ?_
    rintro past c ⟨hl, t, ht', hroutes⟩
    cases hcredential : s.sources.credential with
    | error e => trivial
    | ok credential =>
      cases credential with
      | none => trivial
      | some password =>
        simp only [Except.map, Option.map_some, Knows, Entitled, hl, Bool.false_eq_true, if_false]
        exact ⟨⟨t, List.mem_cons_of_mem _ ht', hroutes⟩, trivial, _, List.mem_cons_self,
          asking_suspend _ _ _, hcredential⟩

theorem Moves.of_answer (ht : s.tasks n = some task) (h : s.answer n task = some s') :
    Moves toLowerCase s e s' := by
  match task, h with
  | .credential _ (.error _), h | .credential _ (.ok none), h =>
    cases h
    exact .cancel ht
  | .credential id (.ok (some auth)), h =>
    cases h
    exact .grant ht

theorem Moves.of_step (h : authStep toLowerCase s e = some s') : Moves toLowerCase s e s' := by
  cases e with
  | challenge d =>
    cases h
    exact .of_challenge
  | sources sources =>
    cases h
    exact .change sources
  | settle n =>
    obtain ⟨task, ht, h⟩ := Option.bind_eq_some_iff.mp h
    exact .of_settle ht h
  | answer n =>
    obtain ⟨task, ht, h⟩ := Option.bind_eq_some_iff.mp h
    exact .of_answer ht h

/-! ### What the steps keep -/

variable {past : List AuthState} {s : AuthState} {d d' : AuthChallenge}

theorem credentialled_arrive (h : ∀ n r, (n, r) ∈ s.callbacks → n < s.challenges.length)
    (d : AuthChallenge) : (s.arrive d).credentialled = s.credentialled := by
  apply List.filterMap_congr
  rintro ⟨n, r⟩ hr
  have hget : (s.arrive d).challenges[n]? = s.challenges[n]? :=
    List.getElem?_append_left (h n r hr)
  cases r with
  | empty | cancel => rfl
  | authCredentials auth => simp only [hget]

theorem credentialled_call {r : AuthResponse} (hr : ∀ auth, r ≠ .authCredentials auth) (n : Nat)
    (s : AuthState) : (s.call n r).credentialled = s.credentialled := by
  cases r with
  | empty | cancel => simp [credentialled, call]
  | authCredentials auth => exact absurd rfl (hr auth)

theorem credentialled_grant {id : Utf16} {n : Nat} (hd : s.challenges[n]? = some d)
    (hid : d.requestId = some id)
    (auth : ExtensionProxyAuth) :
    (s.call n (.authCredentials auth)).credentialled = s.credentialled ++ [id] := by
  simp [credentialled, call, hd, hid]

theorem count_callbacks_call (m n : Nat) (r : AuthResponse) (s : AuthState) :
    ((s.call n r).callbacks.filter (·.1 = m)).length =
      (s.callbacks.filter (·.1 = m)).length + if n = m then 1 else 0 := by
  rw [call, List.filter_append, List.length_append]
  by_cases h : n = m <;> simp [h]

/-- No callback of a challenge that has not come was called. -/
theorem count_callbacks_of_le (h : ∀ n r, (n, r) ∈ s.callbacks → n < s.challenges.length)
    (hn : s.challenges.length ≤ n) : (s.callbacks.filter (·.1 = n)).length = 0 := by
  rw [List.length_eq_zero_iff, List.filter_eq_nil_iff]
  rintro ⟨m, r⟩ hr
  have hlt := h m r hr
  simp only [decide_eq_true_eq]
  omega

theorem tasks_call (n m : Nat) (r : AuthResponse) (s : AuthState) :
    (s.call n r).tasks m = if m = n then none else s.tasks m :=
  Function.update_apply _ _ _ _

theorem tasks_suspend (n m : Nat) (task : AuthTask) (s : AuthState) :
    (s.suspend n task).tasks m = if m = n then some task else s.tasks m :=
  Function.update_apply _ _ _ _

namespace AuthInv

theorem lt_of_task (h : AuthInv toLowerCase past s) (ht : s.tasks n = some task) :
    n < s.challenges.length := by
  obtain ⟨d, c, hd, -⟩ := h.belongs n task ht
  exact (List.getElem?_eq_some_iff.mp hd).1

/-- A state that differs only in what the sources hold. -/
theorem change (h : AuthInv toLowerCase past s) (sources : AuthSources) :
    AuthInv toLowerCase ({ s with sources } :: past) { s with sources } where
  called := h.called
  belongs n task ht := by
    obtain ⟨d, c, hd, hp, hid, hc, hnew, hk⟩ := h.belongs n task ht
    exact ⟨d, c, hd, hp, hid, hc, hnew, hk.mono (List.subset_cons_self _ _)⟩
  distinct := h.distinct
  answered := h.answered
  entitled n auth hr := by
    obtain ⟨d, c, hd, hp, hc, he⟩ := h.entitled n auth hr
    exact ⟨d, c, hd, hp, hc, he.mono (List.subset_cons_self _ _)⟩
  spaced := h.spaced
  cancelled := h.cancelled
  once := h.once

/-- The facts about challenges that came earlier, once another has. -/
theorem getElem?_arrive {n : Nat} (hd : s.challenges[n]? = some d') (d : AuthChallenge) :
    (s.arrive d).challenges[n]? = some d' := by
  have hlt := (List.getElem?_eq_some_iff.mp hd).1
  exact (List.getElem?_append_left hlt).trans hd

theorem refuse (h : AuthInv toLowerCase past s)
    (hr : if d.isProxy then r = .cancel else r = .empty) :
    AuthInv toLowerCase ((s.arrive d).call s.challenges.length r :: past)
      ((s.arrive d).call s.challenges.length r) := by
  have hnot : ∀ auth, r ≠ .authCredentials auth := by
    rintro auth rfl
    cases hp : d.isProxy <;> simp [hp] at hr
  have hcredentialled : ((s.arrive d).call s.challenges.length r).credentialled =
      s.credentialled := (credentialled_call hnot _ _).trans (credentialled_arrive h.called d)
  have hlen : ((s.arrive d).call s.challenges.length r).challenges.length =
      s.challenges.length + 1 := List.length_append
  have htask (n : Nat) (task : AuthTask)
      (ht : ((s.arrive d).call s.challenges.length r).tasks n = some task) :
      s.tasks n = some task := by
    rw [tasks_call] at ht
    split at ht
    · cases ht
    · exact ht
  constructor
  case called =>
    intro n r' hr'
    rw [hlen]
    rcases List.mem_append.mp hr' with hr' | hr'
    · have := h.called n r' hr'
      omega
    · cases List.mem_singleton.mp hr'
      omega
  case belongs =>
    intro n task ht
    obtain ⟨d', c, hd, hp, hid, hc, hnew, hk⟩ := h.belongs n task (htask n task ht)
    exact ⟨d', c, getElem?_arrive hd d, hp, hid, hc, hnew, hk.mono (List.subset_cons_self _ _)⟩
  case distinct =>
    intro n m t u ht hu
    exact h.distinct n m t u (htask n t ht) (htask m u hu)
  case answered =>
    rw [hcredentialled]
    exact h.answered
  case entitled =>
    intro n auth hr'
    rcases List.mem_append.mp hr' with hr' | hr'
    · obtain ⟨d', c, hd, hp, hc, he⟩ := h.entitled n auth hr'
      exact ⟨d', c, getElem?_arrive hd d, hp, hc, he.mono (List.subset_cons_self _ _)⟩
    · cases List.mem_singleton.mp hr'
      exact absurd rfl (hnot auth)
  case spaced =>
    rw [hcredentialled]
    exact h.spaced
  case cancelled =>
    intro n r' d' hr' hd'
    rcases List.mem_append.mp hr' with hr' | hr'
    · have hlt := h.called n r' hr'
      exact h.cancelled n r' d' hr' ((List.getElem?_append_left hlt).symm.trans hd')
    · cases List.mem_singleton.mp hr'
      have hd : d' = d := by simpa [call, arrive] using hd'.symm
      subst hd
      cases hp : d'.isProxy with
      | true => exact .inl (by simpa [hp] using hr)
      | false => simpa [hp] using hr
  case once =>
    intro n hn
    rw [hlen] at hn
    rw [count_callbacks_call, tasks_call]
    rcases Nat.lt_succ_iff_lt_or_eq.mp hn with hn | rfl
    · rw [if_neg hn.ne', if_neg hn.ne]
      exact h.once n hn
    · have hzero := count_callbacks_of_le h.called (Nat.le_refl _)
      simpa [arrive] using hzero

theorem ask {task : AuthTask} (h : AuthInv toLowerCase past s)
    (hturn : InTurn s (.challenge d)) (hproxy : d.isProxy = true)
    (hid : d.requestId = some task.requestId) (hc : d.challenger = some c)
    (hnew : task.requestId ∉ s.answered)
    (hk : Knows toLowerCase [(s.arrive d).suspend s.challenges.length task] s.challenges.length c
      task) :
    AuthInv toLowerCase ((s.arrive d).suspend s.challenges.length task :: past)
      ((s.arrive d).suspend s.challenges.length task) := by
  have hcredentialled : ((s.arrive d).suspend s.challenges.length task).credentialled =
      s.credentialled := credentialled_arrive h.called d
  have hlen : ((s.arrive d).suspend s.challenges.length task).challenges.length =
      s.challenges.length + 1 := List.length_append
  have htask (n : Nat) (t : AuthTask)
      (ht : ((s.arrive d).suspend s.challenges.length task).tasks n = some t) :
      (n = s.challenges.length ∧ t = task) ∨ s.tasks n = some t := by
    rw [tasks_suspend] at ht
    split at ht
    next hn => exact .inl ⟨hn, (Option.some.inj ht).symm⟩
    next => exact .inr ht
  constructor
  case called =>
    intro n r hr
    rw [hlen]
    exact Nat.lt_succ_of_lt (h.called n r hr)
  case belongs =>
    intro n t ht
    rcases htask n t ht with ⟨rfl, rfl⟩ | ht
    · refine ⟨d, c, ?_, hproxy, hid, hc, hnew, hk.mono (by simp)⟩
      simp [suspend, arrive]
    · obtain ⟨d', c', hd, hp, hid, hc, hnew, hk⟩ := h.belongs n t ht
      exact ⟨d', c', getElem?_arrive hd d, hp, hid, hc, hnew, hk.mono (List.subset_cons_self _ _)⟩
  case distinct =>
    -- A challenge in its turn shares its id with none in flight.
    intro n m t u ht hu heq
    rcases htask n t ht with ⟨rfl, rfl⟩ | hold
    · rcases htask m u hu with ⟨rfl, -⟩ | hold'
      · rfl
      · exact absurd (hid.trans (congrArg some heq)) (hturn m u hold')
    · rcases htask m u hu with ⟨rfl, rfl⟩ | hold'
      · exact absurd (hid.trans (congrArg some heq.symm)) (hturn n t hold)
      · exact h.distinct n m t u hold hold' heq
  case answered =>
    rw [hcredentialled]
    exact h.answered
  case entitled =>
    intro n auth hr
    obtain ⟨d', c', hd, hp, hc, he⟩ := h.entitled n auth hr
    exact ⟨d', c', getElem?_arrive hd d, hp, hc, he.mono (List.subset_cons_self _ _)⟩
  case spaced =>
    rw [hcredentialled]
    exact h.spaced
  case cancelled =>
    intro n r d' hr hd'
    exact h.cancelled n r d' hr ((List.getElem?_append_left (h.called n r hr)).symm.trans hd')
  case once =>
    intro n hn
    rw [hlen] at hn
    rw [tasks_suspend]
    rcases Nat.lt_succ_iff_lt_or_eq.mp hn with hn | rfl
    · rw [if_neg hn.ne]
      exact h.once n hn
    · rw [if_pos rfl]
      exact count_callbacks_of_le (s := s) h.called (Nat.le_refl _)

theorem learn {task task' : AuthTask} (h : AuthInv toLowerCase past s)
    (ht : s.tasks n = some task) (hid : task'.requestId = task.requestId)
    (hk : ∀ past c, Knows toLowerCase past n c task →
      Knows toLowerCase (s.suspend n task' :: past) n c task') :
    AuthInv toLowerCase (s.suspend n task' :: past) (s.suspend n task') := by
  have htask (m : Nat) (t : AuthTask) (hm : (s.suspend n task').tasks m = some t) :
      ∃ t', s.tasks m = some t' ∧ t.requestId = t'.requestId := by
    rw [tasks_suspend] at hm
    split at hm
    next hn =>
      cases hm
      exact ⟨task, hn ▸ ht, hid⟩
    next => exact ⟨t, hm, rfl⟩
  constructor
  case called => exact h.called
  case belongs =>
    intro m t hm
    rw [tasks_suspend] at hm
    split at hm
    next hn =>
      cases hm
      subst hn
      obtain ⟨d, c, hd, hp, hid', hc, hnew, hknows⟩ := h.belongs m task ht
      exact ⟨d, c, hd, hp, hid ▸ hid', hc, hid ▸ hnew, hk past c hknows⟩
    next =>
      obtain ⟨d, c, hd, hp, hid, hc, hnew, hknows⟩ := h.belongs m t hm
      exact ⟨d, c, hd, hp, hid, hc, hnew, hknows.mono (List.subset_cons_self _ _)⟩
  case distinct =>
    intro m m' t u hm hm' heq
    obtain ⟨t', ht', hid⟩ := htask m t hm
    obtain ⟨u', hu', hid'⟩ := htask m' u hm'
    exact h.distinct m m' t' u' ht' hu' (hid.symm.trans (heq.trans hid'))
  case answered => exact h.answered
  case entitled =>
    intro m auth hr
    obtain ⟨d, c, hd, hp, hc, he⟩ := h.entitled m auth hr
    exact ⟨d, c, hd, hp, hc, he.mono (List.subset_cons_self _ _)⟩
  case spaced => exact h.spaced
  case cancelled => exact h.cancelled
  case once =>
    intro m hm
    rw [tasks_suspend]
    split
    next hn =>
      subst hn
      have honce := h.once m hm
      rwa [ht] at honce
    next => exact h.once m hm

/-- The answer of a challenge in flight, which leaves everything of the others as it was. -/
theorem answer {task : AuthTask} {answered : List Utf16} (h : AuthInv toLowerCase past s)
    (ht : s.tasks n = some task)
    (hanswered : answered = ({ s with answered }.call n r).credentialled.rtake ANSWERED_MEMORY)
    (hspaced : Spaced ANSWERED_MEMORY ({ s with answered }.call n r).credentialled)
    (hnew : ∀ m t, m ≠ n → s.tasks m = some t → t.requestId ∉ answered)
    (hentitled : ∀ d c, s.challenges[n]? = some d → d.challenger = some c →
      Knows toLowerCase past n c task → ∀ auth, r = .authCredentials auth →
        Entitled toLowerCase past n c auth)
    (hr : r = .cancel ∨ ∃ auth, r = .authCredentials auth) :
    AuthInv toLowerCase ({ s with answered }.call n r :: past) ({ s with answered }.call n r) := by
  have htask (m : Nat) (t : AuthTask) (hm : ({ s with answered }.call n r).tasks m = some t) :
      m ≠ n ∧ s.tasks m = some t := by
    rw [tasks_call] at hm
    split at hm
    next => cases hm
    next hn => exact ⟨hn, hm⟩
  obtain ⟨d, c, hd, hp, -, hc, -, hknows⟩ := h.belongs n task ht
  constructor
  case called =>
    intro m r' hr'
    rcases List.mem_append.mp hr' with hr' | hr'
    · exact h.called m r' hr'
    · cases List.mem_singleton.mp hr'
      exact h.lt_of_task ht
  case belongs =>
    intro m t hm
    obtain ⟨hne, hm⟩ := htask m t hm
    obtain ⟨d, c, hd, hp, hid, hc, -, hk⟩ := h.belongs m t hm
    exact ⟨d, c, hd, hp, hid, hc, hnew m t hne hm, hk.mono (List.subset_cons_self _ _)⟩
  case distinct =>
    intro m m' t u hm hm' heq
    exact h.distinct m m' t u (htask m t hm).2 (htask m' u hm').2 heq
  case answered => exact hanswered
  case entitled =>
    intro m auth hr'
    rcases List.mem_append.mp hr' with hr' | hr'
    · obtain ⟨d, c, hd, hp, hc, he⟩ := h.entitled m auth hr'
      exact ⟨d, c, hd, hp, hc, he.mono (List.subset_cons_self _ _)⟩
    · obtain ⟨rfl, hauth⟩ := Prod.mk.inj (List.mem_singleton.mp hr')
      have he := hentitled d c hd hc hknows auth hauth.symm
      exact ⟨d, c, hd, hp, hc, he.mono (List.subset_cons_self _ _)⟩
  case spaced => exact hspaced
  case cancelled =>
    intro m r' d' hr' hd'
    rcases List.mem_append.mp hr' with hr' | hr'
    · exact h.cancelled m r' d' hr' hd'
    · cases List.mem_singleton.mp hr'
      cases Option.some.inj (hd.symm.trans hd')
      rw [if_pos hp]
      exact hr
  case once =>
    intro m hm
    have honce := h.once m hm
    rw [count_callbacks_call, tasks_call]
    by_cases hmn : m = n
    · subst hmn
      rw [ht] at honce
      rw [if_pos rfl, if_pos rfl]
      exact congrArg (· + 1) honce
    · rw [if_neg hmn, if_neg (Ne.symm hmn)]
      exact honce

theorem cancel {task : AuthTask} (h : AuthInv toLowerCase past s) (ht : s.tasks n = some task) :
    AuthInv toLowerCase (s.call n .cancel :: past) (s.call n .cancel) := by
  have hcredentialled : (s.call n .cancel).credentialled = s.credentialled :=
    credentialled_call (fun _ => AuthResponse.noConfusion) n s
  apply h.answer ht
  · rw [hcredentialled]
    exact h.answered
  · rw [hcredentialled]
    exact h.spaced
  · intro m t _ hm
    obtain ⟨_, _, _, _, _, _, hnew, _⟩ := h.belongs m t hm
    exact hnew
  · intro _ _ _ _ _ auth hr
    cases hr
  · exact .inl rfl

theorem grant {id : Utf16} {auth : ExtensionProxyAuth} (h : AuthInv toLowerCase past s)
    (ht : s.tasks n = some (.credential id (.ok (some auth)))) :
    AuthInv toLowerCase
      ({ s with answered := remember ANSWERED_MEMORY s.answered id }.call n
        (.authCredentials auth) :: past)
      ({ s with answered := remember ANSWERED_MEMORY s.answered id }.call n
        (.authCredentials auth)) := by
  obtain ⟨d, c, hd, hp, hid, hc, hnew, hk⟩ := h.belongs n _ ht
  have hcredentialled : ({ s with answered := remember ANSWERED_MEMORY s.answered id }.call n
      (.authCredentials auth)).credentialled = s.credentialled ++ [id] :=
    credentialled_grant (s := { s with answered := remember ANSWERED_MEMORY s.answered id }) hd hid
      auth
  have hfresh : id ∉ s.credentialled.rtake ANSWERED_MEMORY := h.answered ▸ hnew
  have hanswered : remember ANSWERED_MEMORY s.answered id =
      (s.credentialled ++ [id]).rtake ANSWERED_MEMORY := by
    rw [h.answered]
    exact Lib.remember_rtake hfresh
  apply h.answer ht
  · rw [hcredentialled]
    exact hanswered
  · rw [hcredentialled]
    exact h.spaced.concat hfresh
  · intro m t hne hm hmem
    obtain ⟨_, _, _, _, _, _, hold, _⟩ := h.belongs m t hm
    rcases Lib.mem_of_mem_remember hmem with hmem | heq
    · exact hold hmem
    · exact hne (h.distinct m n t _ hm ht heq)
  · intro d' c' hd' hc' hk auth' hr
    cases hr
    exact hk
  · exact .inr ⟨auth, rfl⟩

theorem moves (h : AuthInv toLowerCase past s) (hturn : InTurn s e)
    (hm : Moves toLowerCase s e s') : AuthInv toLowerCase (s' :: past) s' := by
  cases hm with
  | change sources => exact h.change sources
  | refuse hr => exact h.refuse hr
  | ask hproxy hid hc hnew hk => exact h.ask hturn hproxy hid hc hnew hk
  | learn ht hid hk => exact h.learn ht hid hk
  | cancel ht => exact h.cancel ht
  | grant ht => exact h.grant ht

end AuthInv

/-! ### Progress -/

theorem AnsweredWithin.cons (h : authStep toLowerCase s e = some t)
    (ht : AnsweredWithin toLowerCase n k t) : AnsweredWithin toLowerCase n (k + 1) s := by
  obtain ⟨es, u, hlen, hexec, hu⟩ := ht
  refine ⟨e :: es, u, Nat.succ_le_succ hlen, ?_, hu⟩
  rw [Lib.exec_cons_of_step es rfl h]
  exact hexec

theorem AnsweredWithin.mono (h : AnsweredWithin toLowerCase n k s) (hk : k ≤ k') :
    AnsweredWithin toLowerCase n k' s := by
  obtain ⟨es, t, hlen, h⟩ := h
  exact ⟨es, t, hlen.trans hk, h⟩

theorem answeredWithin_call (n : Nat) (r : AuthResponse) (s : AuthState) :
    AnsweredWithin toLowerCase n 0 (s.call n r) :=
  ⟨[], _, Nat.le_refl _, rfl, by simp [Asking, tasks_call]⟩

theorem answeredWithin_credential {id : Utf16} (ht : s.tasks n = some (.credential id result)) :
    AnsweredWithin toLowerCase n 1 s := by
  have hstep : authStep toLowerCase s (.answer n) = s.answer n (.credential id result) := by
    rw [authStep, ht]
    rfl
  match result with
  | .error _ | .ok none | .ok (some auth) => exact .cons hstep (answeredWithin_call n _ _)

theorem answeredWithin_current {id : Utf16} (ht : s.tasks n = some (.current id)) :
    AnsweredWithin toLowerCase n 2 s := by
  have hstep : authStep toLowerCase s (.settle n) = s.settle toLowerCase n (.current id) := by
    rw [authStep, ht]
    rfl
  exact .cons hstep (answeredWithin_credential ((tasks_suspend n n _ s).trans (if_pos rfl)))

theorem answeredWithin_load {id : Utf16} (ht : s.tasks n = some (.load id c)) :
    AnsweredWithin toLowerCase n 3 s := by
  have hstep : authStep toLowerCase s (.settle n) = s.settle toLowerCase n (.load id c) := by
    rw [authStep, ht]
    rfl
  have hsuspend (task : AuthTask) : (s.suspend n task).tasks n = some task :=
    (tasks_suspend n n task s).trans (if_pos rfl)
  have hlater {result : Except Failure (Option ExtensionProxyAuth)}
      (h : authStep toLowerCase s (.settle n) = some (s.suspend n (.credential id result))) :
      AnsweredWithin toLowerCase n 3 s :=
    .mono (.cons h (answeredWithin_credential (hsuspend _))) (by decide)
  rw [settle] at hstep
  split at hstep
  next => exact hlater hstep
  next =>
    split at hstep
    next => exact .cons hstep (answeredWithin_current (hsuspend _))
    next => exact hlater hstep

theorem answeredWithin_of_asking (h : s.Asking n) : AnsweredWithin toLowerCase n 3 s := by
  obtain ⟨task, ht⟩ := Option.ne_none_iff_exists'.mp h
  cases task with
  | load id c => exact answeredWithin_load ht
  | current id => exact (answeredWithin_current ht).mono (by decide)
  | credential id result => exact (answeredWithin_credential ht).mono (by decide)

/-- Credentials reach only the proxy they belong to, and once. -/
theorem safe_of_trace (sources : AuthSources)
    (h : Trace (authStep toLowerCase) InTurn { sources } past s) : Safe toLowerCase past s := by
  have hinv : AuthInv toLowerCase past s :=
    h.invariant (.initial sources) fun hi ho hs => hi.moves ho (.of_step hs)
  exact {
    entitled := hinv.entitled
    spaced := hinv.spaced
    cancelled := hinv.cancelled
    once := hinv.once
    answers := fun _ => answeredWithin_of_asking }

/-- Sources with an ingress and its credential. -/
def ingressSources : AuthSources where
  session := .ok none
  routing := .ok (some (.ingress (.https "in.example" 443)
    { mode := .all, rules := none, tabs := none }))
  credential := .ok (some "token")

def ingressChallenge : AuthChallenge where
  isProxy := true
  requestId := some "1"
  challenger := some { host := "IN.example", port := 443 }

/-- The ingress is given its credential, in whatever case it is named. -/
theorem safe_of_trace_ingress : ∃ past s,
    Trace (authStep asciiLowerCase) InTurn { sources := ingressSources } past s ∧
      s.callbacks = [(0, .authCredentials { username := "warren", password := "token" })] ∧
      Safe asciiLowerCase past s := by
  have htrace : ∃ past s,
      Trace (authStep asciiLowerCase) InTurn { sources := ingressSources } past s ∧
        s.callbacks = [(0, .authCredentials { username := "warren", password := "token" })] := by
    have hturn : InTurn { sources := ingressSources } (.challenge ingressChallenge) := by
      intro n task ht
      cases ht
    have h₁ := Trace.start.next hturn (rfl : authStep asciiLowerCase _ _ = some _)
    have h₂ := h₁.next (e := AuthEvent.settle 0) trivial rfl
    have h₃ := h₂.next (e := AuthEvent.settle 0) trivial rfl
    have h₄ := h₃.next (e := AuthEvent.answer 0) trivial rfl
    exact ⟨_, _, h₄, rfl⟩
  obtain ⟨past, s, ht, hs⟩ := htrace
  exact ⟨past, s, ht, hs, safe_of_trace ingressSources ht⟩

end AuthState

end WarrenSdk.Extension
