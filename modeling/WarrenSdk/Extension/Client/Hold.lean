import WarrenSdk.Extension.Client.Aside

/-!
# What a client holds on the browser

Once a `connect` has resolved, the browser stays routed or blocked and its leaks stay closed until
an explicit `disconnect`. `HoldInv` is the invariant behind that in the runs without one. Before any
`connect` has resolved it tracks what the one in flight has secured of the settings; from then on,
`since` being the number of browser calls made by that time, that every later `connect` finds the
settings its own and so restores them rather than clear them, and that the handler Firefox routes
through is never the one removed.
-/

namespace WarrenSdk.Extension

/-- The stores of the browser settings can be read. -/
structure ChromeLike.Readable (api : ChromeLike) : Prop where
  settingsGet : api.settingsGet = true
  policyGet : api.policyGet = true

def Task.isDisconnect : Task → Bool
  | .disconnectRelease _ | .disconnectSettings _ | .disconnectPolicy _ | .disconnectPrediction _ =>
    true
  | _ => false

/-- The calls that hand a setting back to the browser. -/
def BrowserCall.isClear : BrowserCall → Bool
  | .settingsClear | .policyClear | .predictionClear => true
  | _ => false

namespace State

/-- On Firefox, the handler the client tracks is registered. -/
def Routed (api : ChromeLike) (s : State) : Prop :=
  api.platform = .firefox → ∃ h ∈ s.handlers, s.onRequestHandler = some h

/-- What a `connect` at an await has secured, and the browser call it waits for. -/
def Knows (api : ChromeLike) (s : State) : ConnectAwait → Prop
  | .assertProxyControl n => s.calls[n]? = some .settingsGet
  | .holdsLeakHardening n => s.calls[n]? = some .policyGet
  | .hardenPolicy _ n => (∃ v, s.calls[n]? = some (.policySet v)) ∧
    ∀ v, s.browserResults n = some (.ok v) → s.policy ≠ none
  | .hardenPrediction _ _ => s.policy ≠ none
  | .applyProxy _ _ => s.policy ≠ none ∧ s.Routed api
  | .verifyRouting _ n => s.policy ≠ none ∧ s.Routed api ∧
    (api.platform = .chromium → s.calls[n]? = some .settingsGet ∧
      ∀ r d, s.browserResults n = some r → proxyControl [.controlledByThisExtension] r = .ok d →
        s.settings ≠ none)
  | _ => True

/-- A `connect` that found the settings held puts them back when it fails. -/
def Keeps (api : ChromeLike) (c : ConnectCall) : Prop :=
  (api.platform = .chromium → controlled c.before = true) ∧ c.leaksHeld = true

/-- What a `connect` has found held so far. -/
def Kept (api : ChromeLike) (s : State) (c : ConnectCall) : ConnectAwait → Prop
  | .assertProxyControl n => c.hardened = false ∧ (api.platform = .chromium →
    ∀ v, s.browserResults n = some (.ok v) → controlled v.details? = true)
  | .holdsLeakHardening n => c.hardened = false ∧
    (api.platform = .chromium → controlled c.before = true) ∧
      ∀ v, s.browserResults n = some (.ok v) → controlled v.details? = true
  | .restoreSettings _ n =>
    Keeps api c ∧ (api.platform = .chromium → ∃ v, s.calls[n]? = some (.settingsSet v))
  | .releasePolicy _ _ | .releasePrediction _ _ => False
  | _ => Keeps api c

/-- The handler a `connect` holds back is not the tracked one, nor one that an `applySplit` is about
to remove; and once the browser is held, it is registered. -/
structure Carries (api : ChromeLike) (since : Option Nat) (s : State)
    (held : Option OnRequestHandler) : Prop where
  held_lt : ∀ {h}, held = some h → h.id < s.nextHandler
  apart : ∀ {h h'}, held = some h → s.onRequestHandler = some h' → h.id ≠ h'.id
  spare : ∀ {t split p n h}, s.tasks t = some (.applySplitProxy split (some p) n) →
    held = some h → h.id ≠ p.id
  anchor : since ≠ none → api.platform = .firefox → ∃ h ∈ s.handlers, held = some h

structure Waiting (api : ChromeLike) (since : Option Nat) (s : State) (c : ConnectCall)
    (a : ConnectAwait) : Prop extends Carries api since s c.heldHandler where
  knows : s.Knows api a
  kept : since ≠ none → s.Kept api c a

/-- `running` tells whether a `connect` is running, and so suspended nowhere. -/
structure HoldInv (api : ChromeLike) (since : Option Nat) (running : Bool) (s : State) : Prop where
  connecting : ∀ {t c a}, s.tasks t = some (.connect c a) → s.connecting = true
  unique : ∀ {t t' c c' a a'}, s.tasks t = some (.connect c a) →
    s.tasks t' = some (.connect c' a') → t = t'
  alone : running = true → s.connecting = true ∧ ∀ t c a, s.tasks t ≠ some (.connect c a)
  busy : s.connecting = true → running = true ∨ ∃ t c a, s.tasks t = some (.connect c a)
  down : s.connecting = true → s.tunnelUp = false
  task_lt : ∀ {t}, s.tasks t ≠ none → t < s.nextTask
  call_lt : ∀ {n}, s.browserResults n ≠ none → n < s.calls.length
  lasting : ∀ {t x}, s.tasks t = some x → x.isDisconnect = false
  handler_lt : ∀ {h}, s.onRequestHandler = some h → h.id < s.nextHandler
  spare_lt : ∀ {t split p n}, s.tasks t = some (.applySplitProxy split (some p) n) →
    p.id < s.nextHandler
  spare : ∀ {t split p n h}, s.tasks t = some (.applySplitProxy split (some p) n) →
    s.onRequestHandler = some h → h.id ≠ p.id
  waiting : ∀ {t c a}, s.tasks t = some (.connect c a) → Waiting api since s c a
  settingsClear : ∀ {n}, s.calls[n]? = some .settingsClear → s.browserResults n = none →
    ∃ t c e, s.tasks t = some (.connect c (.restoreSettings e n))
  policyClear : ∀ {n}, s.calls[n]? = some .policyClear → s.browserResults n = none →
    ∃ t c e, s.tasks t = some (.connect c (.releasePolicy e n))
  resolved : ∀ {t e}, s.results t = some (.ok (.endpoints e)) → since ≠ none
  noClear : ∀ {k n}, since = some k → k ≤ n → s.calls[n]? ≠ some .policyClear ∧
    s.calls[n]? ≠ some .predictionClear ∧
      (api.platform = .chromium → s.calls[n]? ≠ some .settingsClear)
  policy : since ≠ none → s.policy ≠ none
  settings : since ≠ none → api.platform = .chromium → s.settings ≠ none
  idle : since ≠ none → s.connecting = false → s.Routed api

/-- The invariant between two events: what was held is, and a `connect` may have resolved. -/
def HoldFrom (api : ChromeLike) (since : Option Nat) (s : State) : Prop :=
  ∃ since', (since ≠ none → since' = since) ∧ HoldInv api since' false s

variable {api : ChromeLike} {since : Option Nat} {running : Bool} {s s' : State}

theorem HoldInv.holdFrom (h : HoldInv api since false s) : HoldFrom api since s :=
  ⟨since, fun _ => rfl, h⟩

/-! ## Parts that leave the browser alone -/

/-- What `Carries`, and what `Waiting` speaks of. -/
def carryView (s : State) := (s.tasks, s.handlers, s.onRequestHandler, s.nextHandler)

def waitView (s : State) := (s.carryView, s.calls, s.browserResults, s.settings, s.policy)

/-- What `HoldInv` speaks of, but for `tunnelUp`, which may always fall. -/
def holdView (s : State) := (s.waitView, s.connecting, s.nextTask, s.results)

theorem Carries.frame (h : Carries api since s held) (hv : s'.carryView = s.carryView) :
    Carries api since s' held := by
  simp only [carryView, Prod.mk.injEq] at hv
  obtain ⟨ht, hh, ho, hn⟩ := hv
  exact {
    held_lt := fun h' => hn ▸ h.held_lt h'
    apart := fun h' h'' => h.apart h' (ho ▸ h'')
    spare := fun h' => h.spare (ht ▸ h')
    anchor := fun h' h'' => hh ▸ h.anchor h' h'' }

theorem Waiting.frame (h : Waiting api since s c a) (hv : s'.waitView = s.waitView) :
    Waiting api since s' c a where
  toCarries := h.toCarries.frame (congrArg Prod.fst hv)
  knows := by
    simp only [waitView, carryView, Prod.mk.injEq] at hv
    obtain ⟨⟨-, hh, ho, -⟩, hc, hb, hs, hp⟩ := hv
    have hk : s'.Knows api a = s.Knows api a := by
      cases a <;> simp only [Knows, Routed, hc, hb, hs, hp, hh, ho]
    exact hk ▸ h.knows
  kept h' := by
    simp only [waitView, Prod.mk.injEq] at hv
    obtain ⟨-, hc, hb, -⟩ := hv
    have hk : s'.Kept api c a = s.Kept api c a := by cases a <;> simp only [Kept, hc, hb]
    exact hk ▸ h.kept h'

theorem HoldInv.frame (h : HoldInv api since running s) (hv : s'.holdView = s.holdView)
    (hu : s'.tunnelUp = true → s.tunnelUp = true) : HoldInv api since running s' := by
  have hwait : ∀ {t c a}, s.tasks t = some (.connect c a) → Waiting api since s' c a :=
    fun ht => (h.waiting ht).frame (congrArg Prod.fst hv)
  simp only [holdView, waitView, carryView, Prod.mk.injEq] at hv
  obtain ⟨⟨⟨ht, hh, ho, hnh⟩, hca, hb, hs, hp⟩, hc, hnt, hr⟩ := hv
  constructor
  · rw [ht, hc]; exact h.connecting
  · rw [ht]; exact h.unique
  · rw [hc, ht]; exact h.alone
  · rw [hc, ht]; exact h.busy
  · intro h'
    cases hup : s'.tunnelUp
    · rfl
    · exact (hu hup).symm.trans (h.down (hc ▸ h'))
  · rw [ht, hnt]; exact h.task_lt
  · rw [hb, hca]; exact h.call_lt
  · rw [ht]; exact h.lasting
  · rw [ho, hnh]; exact h.handler_lt
  · rw [ht, hnh]; exact h.spare_lt
  · rw [ht, ho]; exact h.spare
  · rw [ht]; exact hwait
  · rw [hca, hb, ht]; exact h.settingsClear
  · rw [hca, hb, ht]; exact h.policyClear
  · rw [hr]; exact h.resolved
  · rw [hca]; exact h.noClear
  · rw [hp]; exact h.policy
  · rw [hs]; exact h.settings
  · simp only [Routed, hc, hh, ho]; exact h.idle

/-! ## Calls in flight -/

/-- No call is suspended as `t`, which is numbered below the calls to come. -/
def Free (s : State) (t : Nat) : Prop := s.tasks t = none ∧ t < s.nextTask

/-- The calls that can be suspended now: while a `connect` runs, only that one. -/
def Accepts (api : ChromeLike) (since : Option Nat) (running : Bool) (s : State) : Task → Prop
  | .connect c a => running = true ∧ Waiting api since s c a
  | .applySplitProxy _ previous _ => running = false ∧ ∀ p, previous = some p →
    s.connecting = false ∧ p.id < s.nextHandler ∧
      ∀ h, s.onRequestHandler = some h → h.id ≠ p.id
  | x => running = false ∧ x.isDisconnect = false

/-- What is known of a `connect` at an await minds new calls of `applySplit` only. -/
theorem Waiting.setTasks (h : Waiting api since s c a)
    (hf : ∀ {t split p n}, f t = some (.applySplitProxy split (some p) n) →
      s.tasks t = some (.applySplitProxy split (some p) n)) :
    Waiting api since { s with tasks := f } c a :=
  { h with
    spare := fun ht => h.spare (hf ht)
    knows := by
      have hk := h.knows
      cases a <;> exact hk
    kept := fun h' => by
      have hk := h.kept h'
      cases a <;> exact hk }

theorem HoldInv.suspend (h : HoldInv api since running s) (ht : s.Free t)
    (hx : s.Accepts api since running x) : HoldInv api since false (s.suspend t x) := by
  have hget : ∀ {t' y}, (s.suspend t x).tasks t' = some y →
      t' = t ∧ y = x ∨ t' ≠ t ∧ s.tasks t' = some y := by
    intro t' y hy
    simp only [State.suspend, Function.update_apply] at hy
    split at hy
    · next he => exact .inl ⟨he, (Option.some.inj hy).symm⟩
    · next he => exact .inr ⟨he, hy⟩
  have hkeep : ∀ {t' y}, s.tasks t' = some y → (s.suspend t x).tasks t' = some y := by
    intro t' y hy
    have hne : t' ≠ t := by
      rintro rfl
      rw [ht.1] at hy
      cases hy
    simpa only [State.suspend, Function.update_apply, if_neg hne] using hy
  -- A suspended `connect` is the one that ran, if one ran, and else the one there was.
  have hconn : ∀ {t' c a}, (s.suspend t x).tasks t' = some (.connect c a) →
      running = true ∧ t' = t ∧ x = .connect c a ∨
        running = false ∧ s.tasks t' = some (.connect c a) := by
    intro t' c a hy
    rcases hget hy with ⟨he, hx'⟩ | ⟨-, hs⟩
    · subst hx'
      exact .inl ⟨hx.1, he, rfl⟩
    · cases hr : running
      · exact .inr ⟨rfl, hs⟩
      · exact absurd hs ((h.alone hr).2 _ _ _)
  have hsplit : ∀ {t' split p n},
      (s.suspend t x).tasks t' = some (.applySplitProxy split (some p) n) →
      s.tasks t' = some (.applySplitProxy split (some p) n) ∨
        s.connecting = false ∧ p.id < s.nextHandler ∧
          ∀ h, s.onRequestHandler = some h → h.id ≠ p.id := by
    intro t' split p n hy
    rcases hget hy with ⟨-, hx'⟩ | ⟨-, hs⟩
    · subst hx'
      exact .inr (hx.2 p rfl)
    · exact .inl hs
  have hlast : x.isDisconnect = false := by
    cases x <;> first | rfl | exact hx.2
  have hrun : running = true → ∃ c a, x = .connect c a := by
    rintro rfl
    cases x with
    | connect c a => exact ⟨c, a, rfl⟩
    | _ => cases hx.1
  exact { h with
    connecting := fun hy => by
      rcases hconn hy with ⟨hr, -, -⟩ | ⟨-, hs⟩
      · exact (h.alone hr).1
      · exact h.connecting hs
    unique := fun hy hy' => by
      rcases hconn hy with ⟨hr, he, -⟩ | ⟨hr, hs⟩ <;>
        rcases hconn hy' with ⟨hr', he', -⟩ | ⟨hr', hs'⟩
      · exact he.trans he'.symm
      · cases hr.symm.trans hr'
      · cases hr.symm.trans hr'
      · exact h.unique hs hs'
    alone := fun hr => by cases hr
    busy := fun hc => by
      rcases h.busy hc with hr | ⟨t', c, a, hs⟩
      · obtain ⟨c, a, rfl⟩ := hrun hr
        exact .inr ⟨t, c, a, by simp [State.suspend]⟩
      · exact .inr ⟨t', c, a, hkeep hs⟩
    task_lt := fun {t'} hy => by
      obtain ⟨y, hy⟩ := Option.ne_none_iff_exists'.mp hy
      rcases hget hy with ⟨rfl, -⟩ | ⟨-, hs⟩
      · exact ht.2
      · exact h.task_lt (by rw [hs]; simp)
    lasting := fun hy => by
      rcases hget hy with ⟨-, rfl⟩ | ⟨-, hs⟩
      · exact hlast
      · exact h.lasting hs
    spare_lt := fun hy => (hsplit hy).elim h.spare_lt (·.2.1)
    spare := fun hy ho => (hsplit hy).elim (h.spare · ho) (·.2.2 _ ho)
    waiting := fun {t' c a} hy => by
      have hwait : Waiting api since s c a := by
        rcases hconn hy with ⟨-, -, rfl⟩ | ⟨-, hs⟩
        · exact hx.2
        · exact h.waiting hs
      refine hwait.setTasks fun hp => (hsplit hp).resolve_right fun hidle => ?_
      have hc : s.connecting = true := by
        rcases hconn hy with ⟨hr, -, -⟩ | ⟨-, hs⟩
        · exact (h.alone hr).1
        · exact h.connecting hs
      rw [hidle.1] at hc
      cases hc
    settingsClear := fun hc hb => by
      obtain ⟨t', c, e, hs⟩ := h.settingsClear hc hb
      exact ⟨t', c, e, hkeep hs⟩
    policyClear := fun hc hb => by
      obtain ⟨t', c, e, hs⟩ := h.policyClear hc hb
      exact ⟨t', c, e, hkeep hs⟩ }

theorem wake_tasks (hy : (wake t s).tasks t' = some y) : t' ≠ t ∧ s.tasks t' = some y := by
  simp only [State.wake, Function.update_apply] at hy
  split at hy
  · cases hy
  · next he => exact ⟨he, hy⟩

/-- A task that is there once another is woken was there before. -/
theorem wake_ne_none (hy : (wake t s).tasks t' ≠ none) : s.tasks t' ≠ none := by
  obtain ⟨y, hy⟩ := Option.ne_none_iff_exists'.mp hy
  rw [(wake_tasks hy).2]
  exact Option.some_ne_none y

theorem tasks_wake (he : t' ≠ t) : (wake t s).tasks t' = s.tasks t' := by
  simp only [State.wake, Function.update_apply, if_neg he]

theorem HoldInv.free_wake (h : HoldInv api since running s) (ht : s.tasks t = some x) :
    (s.wake t).Free t :=
  ⟨by simp [State.wake], h.task_lt (by rw [ht]; simp)⟩

theorem HoldInv.wake (h : HoldInv api since false s) (ht : s.tasks t = some x)
    (hx : x.isConnect = false) : HoldInv api since false (s.wake t) := by
  have hkeep : ∀ {t' c a}, s.tasks t' = some (.connect c a) →
      (s.wake t).tasks t' = some (.connect c a) := by
    intro t' c a hy
    have hne : t' ≠ t := by
      rintro rfl
      cases ht.symm.trans hy
      cases hx
    rw [tasks_wake hne]
    exact hy
  exact { h with
    connecting := fun hy => h.connecting (wake_tasks hy).2
    unique := fun hy hy' => h.unique (wake_tasks hy).2 (wake_tasks hy').2
    alone := fun hr => by cases hr
    busy := fun hc => (h.busy hc).imp_right fun ⟨t', c, a, hs⟩ => ⟨t', c, a, hkeep hs⟩
    task_lt := fun hy => h.task_lt (wake_ne_none hy)
    lasting := fun hy => h.lasting (wake_tasks hy).2
    spare_lt := fun hy => h.spare_lt (wake_tasks hy).2
    spare := fun hy => h.spare (wake_tasks hy).2
    waiting := fun hy => (h.waiting (wake_tasks hy).2).setTasks fun hp => (wake_tasks hp).2
    settingsClear := fun hc hb =>
      (h.settingsClear hc hb).imp fun _ ⟨c, e, hs⟩ => ⟨c, e, hkeep hs⟩
    policyClear := fun hc hb =>
      (h.policyClear hc hb).imp fun _ ⟨c, e, hs⟩ => ⟨c, e, hkeep hs⟩ }

/-- A `connect` is woken once its await is settled: no clear is left in flight. -/
theorem HoldInv.wake_connect (h : HoldInv api since false s)
    (ht : s.tasks t = some (.connect c a))
    (hs : ∀ e n, a = .restoreSettings e n → s.browserResults n ≠ none)
    (hp : ∀ e n, a = .releasePolicy e n → s.browserResults n ≠ none) :
    HoldInv api since true (s.wake t) ∧ Waiting api since (s.wake t) c a := by
  refine ⟨?_, (h.waiting ht).setTasks fun hp => (wake_tasks hp).2⟩
  exact { h with
    connecting := fun hy => h.connecting (wake_tasks hy).2
    unique := fun hy hy' => h.unique (wake_tasks hy).2 (wake_tasks hy').2
    alone := fun _ => ⟨h.connecting ht, fun t' c' a' hy =>
      (wake_tasks hy).1 (h.unique (wake_tasks hy).2 ht)⟩
    busy := fun _ => .inl rfl
    task_lt := fun hy => h.task_lt (wake_ne_none hy)
    lasting := fun hy => h.lasting (wake_tasks hy).2
    spare_lt := fun hy => h.spare_lt (wake_tasks hy).2
    spare := fun hy => h.spare (wake_tasks hy).2
    waiting := fun hy => (h.waiting (wake_tasks hy).2).setTasks fun hp => (wake_tasks hp).2
    settingsClear := fun hc hb => by
      obtain ⟨t', c', e, ht'⟩ := h.settingsClear hc hb
      obtain rfl := h.unique ht' ht
      cases ht'.symm.trans ht
      exact absurd hb (hs _ _ rfl)
    policyClear := fun hc hb => by
      obtain ⟨t', c', e, ht'⟩ := h.policyClear hc hb
      obtain rfl := h.unique ht' ht
      cases ht'.symm.trans ht
      exact absurd hb (hp _ _ rfl) }

theorem HoldInv.settle (h : HoldInv api since running s)
    (hr : ∀ e, r = .ok (.endpoints e) → since ≠ none) :
    HoldInv api since running (s.settle t r) :=
  { h with
    waiting := fun ht => (h.waiting ht).frame rfl
    resolved := fun {t' e} hy => by
      simp only [State.settle, Function.update_apply] at hy
      split at hy
      · exact hr e (Option.some.inj hy)
      · exact h.resolved hy }

theorem HoldInv.settle_error (h : HoldInv api since running s) :
    HoldInv api since running (s.settle t (.error e)) :=
  h.settle fun _ hr => by cases hr

/-! ## Talking to the host -/

theorem HoldInv.aside (h : HoldInv api since running s) (ha : Aside s s') :
    HoldInv api since running s' := by
  have hconn : ∀ {t c a}, s'.tasks t = some (.connect c a) → s.tasks t = some (.connect c a) :=
    fun ht => ha.tasks_of ht rfl
  have hkeep : ∀ {t x}, s.tasks t = some x → s'.tasks t = some x := fun {t x} ht => by
    rw [(ha.old (h.task_lt (by rw [ht]; simp))).1]
    exact ht
  have hwait : ∀ {t c a}, s'.tasks t = some (.connect c a) → Waiting api since s' c a := by
    intro t c a ht
    refine Waiting.frame (s := { s with tasks := s'.tasks })
      ((h.waiting (hconn ht)).setTasks fun hp => ha.tasks_of hp rfl) ?_
    simp only [waitView, carryView, ha.handlers, ha.onRequestHandler, ha.nextHandler, ha.calls,
      ha.browserResults, ha.settings, ha.policy]
  constructor
  · rw [ha.connecting]; exact fun ht => h.connecting (hconn ht)
  · exact fun ht ht' => h.unique (hconn ht) (hconn ht')
  · rw [ha.connecting]
    exact fun hr => ⟨(h.alone hr).1, fun t c a ht => (h.alone hr).2 t c a (hconn ht)⟩
  · rw [ha.connecting]
    exact fun hc => (h.busy hc).imp_right fun ⟨t, c, a, ht⟩ => ⟨t, c, a, hkeep ht⟩
  · rw [ha.connecting, ha.tunnelUp]; exact h.down
  · intro t ht
    rcases Nat.lt_or_ge t s.nextTask with hlt | hge
    · exact Nat.lt_of_lt_of_le hlt ha.nextTask
    · rcases ha.fresh hge with he | ⟨hlt, -⟩
      · exact absurd (h.task_lt (he ▸ ht)) (Nat.not_lt_of_le hge)
      · exact hlt
  · rw [ha.browserResults, ha.calls]; exact h.call_lt
  · intro t x ht
    cases hx : x.isRequest
    · exact h.lasting (ha.tasks_of ht hx)
    · cases x <;> first | rfl | cases hx
  · rw [ha.onRequestHandler, ha.nextHandler]; exact h.handler_lt
  · rw [ha.nextHandler]; exact fun ht => h.spare_lt (ha.tasks_of ht rfl)
  · rw [ha.onRequestHandler]; exact fun ht => h.spare (ha.tasks_of ht rfl)
  · exact hwait
  · rw [ha.calls, ha.browserResults]
    exact fun hc hb => (h.settingsClear hc hb).imp fun _ ⟨c, e, ht⟩ => ⟨c, e, hkeep ht⟩
  · rw [ha.calls, ha.browserResults]
    exact fun hc hb => (h.policyClear hc hb).imp fun _ ⟨c, e, ht⟩ => ⟨c, e, hkeep ht⟩
  · intro t e hr
    rcases Nat.lt_or_ge t s.nextTask with hlt | hge
    · exact h.resolved ((ha.old hlt).2 ▸ hr)
    · rcases ha.settled hge with he | ⟨-, e', he⟩
      · exact h.resolved (he ▸ hr)
      · cases he.symm.trans hr
  · rw [ha.calls]; exact h.noClear
  · rw [ha.policy]; exact h.policy
  · rw [ha.settings]; exact h.settings
  · simp only [Routed, ha.connecting, ha.handlers, ha.onRequestHandler]; exact h.idle

theorem Free.aside (h : Free s t) (ha : Aside s s') : s'.Free t :=
  ⟨(ha.old h.2).1.trans h.1, Nat.lt_of_lt_of_le h.2 ha.nextTask⟩

theorem Carries.aside (h : Carries api since s held) (ha : Aside s s') :
    Carries api since s' held where
  held_lt h' := by rw [ha.nextHandler]; exact h.held_lt h'
  apart h' h'' := h.apart h' (ha.onRequestHandler ▸ h'')
  spare ht := h.spare (ha.tasks_of ht rfl)
  anchor h' h'' := by rw [ha.handlers]; exact h.anchor h' h''

/-! ## Browser calls -/

variable {call : BrowserCall} {n : Nat}

theorem call_of_append (h : (s.calls ++ [call])[n]? = some c) :
    s.calls[n]? = some c ∨ n = s.calls.length ∧ call = c := by
  rcases Nat.lt_trichotomy n s.calls.length with hlt | rfl | hgt
  · rw [List.getElem?_append_left hlt] at h
    exact .inl h
  · simp only [List.getElem?_concat_length, Option.some.injEq] at h
    exact .inr ⟨rfl, h⟩
  · rw [List.getElem?_eq_none (by simp; omega)] at h
    cases h

theorem append_of_call (h : s.calls[n]? = some c) : (s.calls ++ [call])[n]? = some c := by
  rw [List.getElem?_append_left (List.getElem?_eq_some_iff.mp h).1]
  exact h

theorem Waiting.append (h : Waiting api since s c a) :
    Waiting api since { s with calls := s.calls ++ [call] } c a where
  toCarries := h.toCarries.frame rfl
  knows := by
    have hk := h.knows
    cases a
    case assertProxyControl => exact append_of_call hk
    case holdsLeakHardening => exact append_of_call hk
    case hardenPolicy => exact ⟨hk.1.imp fun _ => append_of_call, hk.2⟩
    case verifyRouting =>
      exact ⟨hk.1, hk.2.1, fun hp => ⟨append_of_call (hk.2.2 hp).1, (hk.2.2 hp).2⟩⟩
    all_goals exact hk
  kept h' := by
    have hk := h.kept h'
    cases a
    case restoreSettings => exact ⟨hk.1, fun hp => (hk.2 hp).imp fun _ => append_of_call⟩
    all_goals exact hk

/-- A browser call is made; a clear is one that a suspended `connect` waits for. -/
theorem HoldInv.append (h : HoldInv api since running s)
    (hs : call = .settingsClear →
      ∃ t c e, s.tasks t = some (.connect c (.restoreSettings e s.calls.length)))
    (hp : call = .policyClear →
      ∃ t c e, s.tasks t = some (.connect c (.releasePolicy e s.calls.length)))
    (hn : since ≠ none → call ≠ .policyClear ∧ call ≠ .predictionClear ∧
      (api.platform = .chromium → call ≠ .settingsClear)) :
    HoldInv api since running { s with calls := s.calls ++ [call] } :=
  { h with
    call_lt := fun hb => by
      have hlt := h.call_lt hb
      simp only [List.length_append, List.length_singleton]
      omega
    waiting := fun ht => (h.waiting ht).append
    settingsClear := fun hc hb => by
      rcases call_of_append hc with hc | ⟨rfl, rfl⟩
      · exact h.settingsClear hc hb
      · exact hs rfl
    policyClear := fun hc hb => by
      rcases call_of_append hc with hc | ⟨rfl, rfl⟩
      · exact h.policyClear hc hb
      · exact hp rfl
    noClear := fun {k n} hk hle => by
      have hnone : since ≠ none := by rw [hk]; simp
      refine ⟨fun hc => ?_, fun hc => ?_, fun hp hc => ?_⟩ <;>
        rcases call_of_append hc with hc | ⟨-, hc⟩
      · exact (h.noClear hk hle).1 hc
      · exact (hn hnone).1 hc
      · exact (h.noClear hk hle).2.1 hc
      · exact (hn hnone).2.1 hc
      · exact (h.noClear hk hle).2.2 hp hc
      · exact (hn hnone).2.2 hp hc }

theorem HoldInv.append_plain (h : HoldInv api since running s) (hc : call.isClear = false) :
    HoldInv api since running { s with calls := s.calls ++ [call] } := by
  refine h.append ?_ ?_ fun _ => ⟨?_, ?_, fun _ => ?_⟩ <;> rintro rfl <;> cases hc

/-- How a store that nothing else writes to answers: `get` reports what is held and by whom, and
setting the WebRTC policy takes effect. Any call may reject. -/
def faithful (s : State) : BrowserCall → BrowserResult → Bool
  | .settingsGet, .ok (.details d) =>
    match s.settings with
    | some value => d.levelOfControl = some .controlledByThisExtension ∧ d.value = some value
    | none => d.levelOfControl = some .controllableByThisExtension
  | .policyGet, .ok (.details d) =>
    match s.policy with
    | some _ => d.levelOfControl = some .controlledByThisExtension
    | none => d.levelOfControl = some .controllableByThisExtension
  | .settingsGet, .ok _ | .policyGet, .ok _ => false
  | .policySet _, .ok v => v ≠ .bool false
  | _, _ => true

theorem faithful_settingsGet (h : s.faithful .settingsGet (.ok v) = true) :
    ∃ d, v = .details d ∧ d.levelOfControl = some (if s.settings = none then
      .controllableByThisExtension else .controlledByThisExtension) := by
  cases v with
  | details d =>
    refine ⟨d, rfl, ?_⟩
    cases hs : s.settings <;> simp_all [faithful]
  | _ => cases h

theorem controlled_of_settings (h : s.faithful .settingsGet (.ok v) = true)
    (hs : s.settings ≠ none) : controlled v.details? = true := by
  obtain ⟨d, rfl, hd⟩ := faithful_settingsGet h
  simp [State.controlled, BrowserValue.details?, hd, hs]

theorem settings_of_controlled (h : s.faithful .settingsGet r = true)
    (hr : proxyControl [.controlledByThisExtension] r = .ok d) : s.settings ≠ none := by
  cases r with
  | error e => cases hr
  | ok v =>
    obtain ⟨d, rfl, hd⟩ := faithful_settingsGet h
    intro hn
    simp [proxyControl, BrowserValue.details?, hd, hn] at hr

theorem controlled_of_policy (h : s.faithful .policyGet (.ok v) = true) (hp : s.policy ≠ none) :
    State.controlled v.details? = true := by
  obtain ⟨p, hp⟩ := Option.ne_none_iff_exists'.mp hp
  cases v with
  | details d => simp_all [faithful, State.controlled, BrowserValue.details?]
  | _ => cases h

theorem takeEffect_settings (hs : s.settings ≠ none) (hc : call ≠ .settingsClear) :
    (takeEffect call r s).settings ≠ none := by
  unfold takeEffect
  split
  · exact hs
  · exact hs
  · split <;> first | exact hs | exact absurd rfl hc | simp

theorem takeEffect_policy (hs : s.policy ≠ none) (hc : call ≠ .policyClear) :
    (takeEffect call r s).policy ≠ none := by
  unfold takeEffect
  split
  · exact hs
  · exact hs
  · split <;> first | exact hs | exact absurd rfl hc | simp

theorem takeEffect_policySet (hv : v ≠ .bool false) :
    (takeEffect (.policySet value) (.ok v) s).policy ≠ none := by
  unfold takeEffect
  split
  · next he => cases he
  · next he => cases he; exact absurd rfl hv
  · simp

theorem HoldInv.settingsClear_of (h : HoldInv api since running s)
    (ht : s.tasks t = some (.connect c a)) (hc : s.calls[n]? = some .settingsClear)
    (hb : s.browserResults n = none) : ∃ e, a = .restoreSettings e n := by
  obtain ⟨t', c', e, ht'⟩ := h.settingsClear hc hb
  obtain rfl := h.unique ht' ht
  cases ht'.symm.trans ht
  exact ⟨e, rfl⟩

theorem HoldInv.policyClear_of (h : HoldInv api since running s)
    (ht : s.tasks t = some (.connect c a)) (hc : s.calls[n]? = some .policyClear)
    (hb : s.browserResults n = none) : ∃ e, a = .releasePolicy e n := by
  obtain ⟨t', c', e, ht'⟩ := h.policyClear hc hb
  obtain rfl := h.unique ht' ht
  cases ht'.symm.trans ht
  exact ⟨e, rfl⟩

/-- A browser call is answered. -/
theorem HoldInv.answer (h : HoldInv api since running s) (hn : s.calls[n]? = some call)
    (hb : s.browserResults n = none) (hf : s.faithful call r = true) :
    HoldInv api since running { s.takeEffect call r with
      browserResults := Function.update s.browserResults n (some r) } := by
  have hS (hs : s.settings ≠ none) (hc : call ≠ .settingsClear) :=
    takeEffect_settings (r := r) hs hc
  have hP (hs : s.policy ≠ none) (hc : call ≠ .policyClear) := takeEffect_policy (r := r) hs hc
  have hset {value v} (hc : call = .policySet value) (hr : r = .ok v) :
      (s.takeEffect call r).policy ≠ none := by
    subst hc hr
    exact takeEffect_policySet (by simpa [faithful] using hf)
  rw [takeEffect_eq]
  generalize (s.takeEffect call r).settings = S at hS ⊢
  generalize (s.takeEffect call r).policy = P at hP hset ⊢
  have hread {m x} (hx : Function.update s.browserResults n (some r) m = some x) :
      m = n ∧ x = r ∨ s.browserResults m = some x := by
    simp only [Function.update_apply] at hx
    split at hx
    · next he => exact .inl ⟨he, (Option.some.inj hx).symm⟩
    · exact .inr hx
  have hopen {m} (hx : Function.update s.browserResults n (some r) m = none) :
      s.browserResults m = none := by
    simp only [Function.update_apply] at hx
    split at hx
    · cases hx
    · exact hx
  have hP' {t c a} (ht : s.tasks t = some (.connect c a)) (hs : s.policy ≠ none)
      (ha : ∀ e, a ≠ .releasePolicy e n) : P ≠ none := by
    refine hP hs fun hc => ?_
    obtain ⟨e, he⟩ := h.policyClear_of ht (hc ▸ hn) hb
    exact ha e he
  exact { h with
    call_lt := fun {m} hx => by
      by_cases he : m = n
      · rw [he]
        exact (List.getElem?_eq_some_iff.mp hn).1
      · simp only [Function.update_apply, if_neg he] at hx
        exact h.call_lt hx
    waiting := fun {t c a} ht =>
      { (h.waiting ht).toCarries with
        knows := by
          have hk := (h.waiting ht).knows
          cases a
          case hardenPolicy g m =>
            refine ⟨hk.1, fun v hx => ?_⟩
            rcases hread hx with ⟨rfl, hr⟩ | hx
            · obtain ⟨value, hv⟩ := hk.1
              exact hset (Option.some.inj (hn.symm.trans hv)) hr.symm
            · exact hP' ht (hk.2 v hx) fun e he => by cases he
          case hardenPrediction => exact hP' ht hk fun e he => by cases he
          case applyProxy => exact ⟨hP' ht hk.1 (fun e he => by cases he), hk.2⟩
          case verifyRouting g m =>
            refine ⟨hP' ht hk.1 (fun e he => by cases he), hk.2.1, fun hp => ⟨(hk.2.2 hp).1, ?_⟩⟩
            intro r' d hx hd
            have hc : call ≠ .settingsClear := by
              rintro rfl
              obtain ⟨e, he⟩ := h.settingsClear_of ht hn hb
              cases he
            rcases hread hx with ⟨rfl, rfl⟩ | hx
            · obtain rfl := Option.some.inj (hn.symm.trans (hk.2.2 hp).1)
              exact hS (settings_of_controlled hf hd) hc
            · exact hS ((hk.2.2 hp).2 r' d hx hd) hc
          all_goals exact hk
        kept := fun hsince => by
          have hk := (h.waiting ht).kept hsince
          have hknows := (h.waiting ht).knows
          cases a
          case assertProxyControl m =>
            refine ⟨hk.1, fun hp v hx => ?_⟩
            rcases hread hx with ⟨rfl, rfl⟩ | hx
            · obtain rfl := Option.some.inj (hn.symm.trans hknows)
              exact controlled_of_settings hf (h.settings hsince hp)
            · exact hk.2 hp v hx
          case holdsLeakHardening m =>
            refine ⟨hk.1, hk.2.1, fun v hx => ?_⟩
            rcases hread hx with ⟨rfl, rfl⟩ | hx
            · obtain rfl := Option.some.inj (hn.symm.trans hknows)
              exact controlled_of_policy hf (h.policy hsince)
            · exact hk.2.2 v hx
          all_goals exact hk }
    settingsClear := fun hc hx => h.settingsClear hc (hopen hx)
    policyClear := fun hc hx => h.policyClear hc (hopen hx)
    policy := fun hsince => hP (h.policy hsince) fun hc => by
      obtain ⟨t, c, e, ht⟩ := h.policyClear (hc ▸ hn) hb
      exact (h.waiting ht).kept hsince
    settings := fun hsince hp => hS (h.settings hsince hp) fun hc => by
      subst hc
      obtain ⟨t, c, e, ht⟩ := h.settingsClear hn hb
      obtain ⟨v, hv⟩ := ((h.waiting ht).kept hsince).2 hp
      cases hv.symm.trans hn }

theorem takeEffect_none : takeEffect BrowserCall.none r s = s := by
  unfold takeEffect
  split <;> rfl

/-- A promise that is settled already. -/
theorem HoldInv.settled (h : HoldInv api since running s) :
    HoldInv api since running { s with
      calls := s.calls ++ [BrowserCall.none]
      browserResults := Function.update s.browserResults s.calls.length (some r) } := by
  have hb : s.browserResults s.calls.length = none := by
    by_contra hb
    exact Nat.lt_irrefl _ (h.call_lt hb)
  have ha : HoldInv api since running { s with calls := s.calls ++ [BrowserCall.none] } :=
    h.append_plain rfl
  have h' := ha.answer (n := s.calls.length) (r := r) List.getElem?_concat_length hb
    (by cases r <;> rfl)
  rw [takeEffect_none] at h'
  exact h'

theorem HoldInv.awaitCall (h : HoldInv api since running s) (ht : s.Free t)
    (hc : call.isClear = false)
    (hx : { s with calls := s.calls ++ [call] }.Accepts api since running (task s.calls.length)) :
    HoldInv api since false (s.awaitCall t call task) :=
  (h.append_plain hc).suspend ht hx

theorem HoldInv.awaitSettled (h : HoldInv api since running s) (ht : s.Free t)
    (hx : { s with
      calls := s.calls ++ [BrowserCall.none]
      browserResults := Function.update s.browserResults s.calls.length (some r) }.Accepts api since
        running (task s.calls.length)) :
    HoldInv api since false (s.awaitSettled t r task) :=
  h.settled.suspend ht hx

end State

end WarrenSdk.Extension
