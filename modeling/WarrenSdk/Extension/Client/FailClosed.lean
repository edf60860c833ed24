import WarrenSdk.Extension.Client.TunnelPort
import WarrenSdk.Extension.Client.HoldSteps
import WarrenSdk.Lib.LowerCase

/-!
# The client fails closed

From the first `connect` that resolves, and for as long as there is no `disconnect`, the client
hands no setting back to the browser and Firefox always has a handler of its own. What such a
handler answers is as good as the credentials it is given: it blocks the request or sends it to the
live listener, in the runs that see every loss of the host.
-/

namespace WarrenSdk.Extension
open Lib

namespace State

variable {api : ChromeLike} {since : Option Nat} {s s₁ s₂ : State}

/-- An answer of the handler `h` that goes to a listener of a live host, or nowhere. -/
def LiveOrBlocked (s : State) (h : OnRequestHandler) : ProxyAnswer → Prop
  | .direct => False
  | .socks listener _ auth => ∃ g, s.source = some g ∧ s.Answered g ∧ s.On g.port ∧
    s.live g.port = true ∧ auth = g.auth ∧ listener = parseAddress h.socks5 ∧
      (h.socks5 = g.endpoints.socks5 ∨ g.endpoints.http = some h.socks5)
  | .failClosed => True

/-- What fails closed in `s₂`, for a client some `connect` of which had resolved in `s₁`. -/
structure FailsClosed (api : ChromeLike) (s₁ s₂ : State) : Prop where
  settings : api.platform = .chromium →
    ∀ n, s₁.calls.length ≤ n → s₂.calls[n]? ≠ some .settingsClear
  leaks : ∀ n, s₁.calls.length ≤ n →
    s₂.calls[n]? ≠ some .policyClear ∧ s₂.calls[n]? ≠ some .predictionClear
  registered : api.platform = .firefox → ∃ h, h ∈ s₂.handlers
  blocked : api.platform = .firefox → ∀ h ∈ s₂.handlers, ∀ request,
    shouldTunnelRequest api.toLowerCase request h.split = true →
      s₂.LiveOrBlocked h (h.answer api.toLowerCase request s₂)

/-- Some `connect` of the client has resolved. -/
def Resolved (s : State) : Prop := ∃ t e, s.results t = some (.ok (.endpoints e))

/-! ## Runs -/

theorem HoldInv.run {ok : State → Event → Prop} (hok : ∀ s e, ok s e → s.holding e = true)
    (hapi : api.Readable) (h : HoldInv api since false s₁)
    (hr : Run (Extension.step api) ok s₁ s₂) :
    HoldFrom api since s₂ := by
  refine hr.invariant ?_ h.holdFrom
  rintro s e t ⟨since', heq, h'⟩ he hs
  obtain ⟨since'', heq', h''⟩ := h'.step hapi (hok s e he) hs
  refine ⟨since'', fun hne => ?_, h''⟩
  have hne' : since' ≠ none := heq hne ▸ hne
  exact (heq' hne').trans (heq hne)

/-- What is held may be counted from any later call on. -/
theorem HoldInv.restart (h : HoldInv api (some k) false s) :
    HoldInv api (some s.calls.length) false s :=
  { h with
    waiting := fun ht =>
      { h.waiting ht with
        anchor := fun _ => (h.waiting ht).anchor (by simp)
        kept := fun _ => (h.waiting ht).kept (by simp) }
    resolved := fun _ => by simp
    noClear := fun hk hle => by
      cases hk
      simp [List.getElem?_eq_none hle]
    policy := fun _ => h.policy (by simp)
    settings := fun _ => h.settings (by simp)
    idle := fun _ => h.idle (by simp) }

/-- Whether or not a `connect` is in flight, Firefox has the handler that is gone back to. -/
theorem HoldInv.registered (h : HoldInv api since false s) (hsince : since ≠ none)
    (hfx : api.platform = .firefox) : ∃ x, x ∈ s.handlers := by
  cases hc : s.connecting
  · exact (h.idle hsince hc hfx).imp fun _ hx => hx.1
  · rcases h.busy hc with hr | ⟨t, c, a, ht⟩
    · cases hr
    · exact ((h.waiting ht).anchor hsince hfx).imp fun _ hx => hx.1

theorem PortInv.run {ok : State → Event → Prop} (hok : ∀ s e, ok s e → s.LossesSeen e)
    (h : PortInv s₁) (hr : Run (Extension.step api) ok s₁ s₂) : PortInv s₂ :=
  hr.invariant (fun h he hs => h.step (hok _ _ he) hs) h

/-- A handler that is given credentials only for the live listener sends nothing elsewhere. -/
theorem TunnelOnItsPort.liveOrBlocked {request : BrowserRequest} (h : TunnelOnItsPort s)
    (hr : shouldTunnelRequest toLowerCase request x.split = true) :
    s.LiveOrBlocked x (x.answer toLowerCase request s) := by
  unfold OnRequestHandler.answer
  rw [if_pos hr]
  split
  · next auth hl =>
    obtain ⟨g, hs, hans, ho, hlive, hauth, hlist⟩ := h.listener hl
    exact ⟨g, hs, hans, ho, hlive, hauth, rfl, hlist⟩
  · trivial

/-- In a run with faithful stores and no `disconnect` that sees, on Firefox, every loss of the host,
the client fails closed from the first resolved `connect` on. -/
theorem failsClosed {settings : Option ProxyValue} {policy : Option String}
    {prediction : Option Bool}
    (hapi : api.Readable)
    (h₁ : Run (Extension.step api)
      (fun s e => s.holding e = true ∧ (api.platform = .firefox → s.LossesSeen e))
      (.initial settings policy prediction) s₁)
    (hresolved : s₁.Resolved)
    (h₂ : Run (Extension.step api)
      (fun s e => s.holding e = true ∧ (api.platform = .firefox → s.LossesSeen e)) s₁ s₂) :
    FailsClosed api s₁ s₂ := by
  obtain ⟨since, -, hi₁⟩ := HoldInv.initial.run (fun _ _ h => h.1) hapi h₁
  obtain ⟨t, e, ht⟩ := hresolved
  obtain ⟨k, rfl⟩ := Option.ne_none_iff_exists'.mp (hi₁.resolved ht)
  obtain ⟨since', hsince, hi₂⟩ := hi₁.restart.run (fun _ _ h => h.1) hapi h₂
  obtain rfl := hsince (by simp)
  exact {
    settings := fun hp n hn => (hi₂.noClear rfl hn).2.2 hp
    leaks := fun n hn => ⟨(hi₂.noClear rfl hn).1, (hi₂.noClear rfl hn).2.1⟩
    registered := hi₂.registered (by simp)
    blocked := fun hfx x _ request hr => by
      have hp : PortInv s₂ :=
        (PortInv.initial.run (fun _ _ h => h.2 hfx) h₁).run (fun _ _ h => h.2 hfx) h₂
      exact hp.tunnelOnItsPort.liveOrBlocked hr }

/-- The tunnel of a first `connect` on Chromium, over the HTTP listener `b:2`. -/
def chromiumTunnel : List Event := [
  .connect { mnemonic := "" },
  .browserAnswer 0 (.ok (.details { levelOfControl := some .controllableByThisExtension })),
  .resume 0 true,
  .browserAnswer 1 (.ok (.details { levelOfControl := some .controllableByThisExtension })),
  .resume 0 true,
  .message 0 (some (.response (.ok 1 (.hello 3 none)))),
  .resume 2 true,
  .resume 1 true,
  .message 0 (some (.response (.ok 2 (.connect { socks5 := "a:1", http := some "b:2" }
    (some { username := some "u", password := some "p" }) none)))),
  .resume 1 true,
  .resume 0 true,
  .browserAnswer 2 (.ok .undefined),
  .resume 0 true,
  .browserAnswer 3 (.ok .undefined),
  .resume 0 true,
  .browserAnswer 4 (.ok .undefined),
  .resume 0 true,
  .browserAnswer 5 (.ok (.details {
    value := some (buildChromiumProxyValue Lib.Utf16.asciiLowerCase "b:2" DEFAULT_SPLIT)
    levelOfControl := some .controlledByThisExtension })),
  .resume 0 true]

/-- Its host dies, and the next `connect` finds none to attach. -/
def chromiumHostLost : List Event := [
  .death 0,
  .browserAnswer 6 (.ok .undefined),
  .connect { mnemonic := "" },
  .browserAnswer 7 (.ok (.details {
    value := some (buildChromiumLockdownValue [])
    levelOfControl := some .controlledByThisExtension })),
  .resume 3 false,
  .browserAnswer 8 (.ok (.details { levelOfControl := some .controlledByThisExtension })),
  .resume 3 false,
  .resume 3 false]

theorem failsClosed_chromiumHostLost : ∃ s₁ s₂,
    exec (Extension.step chromium) holding (.initial none none none) chromiumTunnel = some s₁ ∧
      exec (Extension.step chromium) holding s₁ chromiumHostLost = some s₂ ∧
        FailsClosed chromium s₁ s₂ := by
  have hrun : ∃ s₁ s₂,
      exec (Extension.step chromium) holding (.initial none none none) chromiumTunnel = some s₁ ∧
        s₁.results 0 = some (.ok (.endpoints { socks5 := "a:1", http := some "b:2" })) ∧
      exec (Extension.step chromium) holding s₁ chromiumHostLost = some s₂ :=
    ⟨_, _, rfl, rfl, rfl⟩
  obtain ⟨s₁, s₂, h₁, hres, h₂⟩ := hrun
  have hok : ∀ (s : State) e, s.holding e = true →
      s.holding e = true ∧ (chromium.platform = .firefox → s.LossesSeen e) :=
    fun s e he => ⟨he, fun hp => by cases hp⟩
  exact ⟨s₁, s₂, h₁, h₂, failsClosed ⟨rfl, rfl⟩ ((Run.of_exec h₁).mono hok) ⟨0, _, hres⟩
    ((Run.of_exec h₂).mono hok)⟩

/-- A Firefox with every optional member. -/
def firefox : ChromeLike where
  platform := .firefox
  channel := .prod
  toLowerCase := Lib.Utf16.asciiLowerCase

/-- The tunnel of a first `connect`, over the listener `a:1`. -/
def firstTunnel : List Event := [
  .connect { mnemonic := "" },
  .browserAnswer 0 (.ok (.details { levelOfControl := some .controllableByThisExtension })),
  .resume 0 true,
  .browserAnswer 1 (.ok (.details { levelOfControl := some .controllableByThisExtension })),
  .resume 0 true,
  .browserAnswer 2 (.ok (.bool true)),
  .resume 0 true,
  .message 0 (some (.response (.ok 1 (.hello 3 none)))),
  .resume 2 true,
  .resume 1 true,
  .message 0 (some (.response (.ok 2 (.connect { socks5 := "a:1" }
    (some { username := some "u", password := some "p" }) none)))),
  .resume 1 true,
  .resume 0 true,
  .browserAnswer 3 (.ok .undefined),
  .resume 0 true,
  .browserAnswer 4 (.ok .undefined),
  .resume 0 true,
  .browserAnswer 5 (.ok .undefined),
  .resume 0 true,
  .browserAnswer 6 (.ok (.details {
    value := some (buildFirefoxProxyValue "a:1" DEFAULT_SPLIT)
    levelOfControl := some .controlledByThisExtension })),
  .resume 0 true]

/-- Its host dies; so does the next one, which serves `b:2`, while the `connect` to it hardens the
browser, and a `status` opens a third before `connect` looks. -/
def secondHostLost : List Event := [
  .death 0,
  .connect { mnemonic := "" },
  .browserAnswer 7 (.ok (.details {
    value := some (buildFirefoxProxyValue "a:1" DEFAULT_SPLIT)
    levelOfControl := some .controlledByThisExtension })),
  .resume 3 true,
  .browserAnswer 8 (.ok (.details { levelOfControl := some .controlledByThisExtension })),
  .resume 3 true,
  .browserAnswer 9 (.ok (.bool true)),
  .resume 3 true,
  .message 1 (some (.response (.ok 3 (.hello 3 none)))),
  .resume 5 true,
  .resume 4 true,
  .message 1 (some (.response (.ok 4 (.connect { socks5 := "b:2" }
    (some { username := some "v", password := some "q" }) none)))),
  .resume 4 true,
  .resume 3 true,
  .browserAnswer 10 (.ok .undefined),
  .resume 3 true,
  .browserAnswer 11 (.ok .undefined),
  .death 1,
  .ask .status true,
  .resume 3 true]

/-- A request to `c` is sent to the listener of the second host, which is dead. -/
theorem not_failsClosed_secondHostLost :
    ¬ ∀ s₁ s₂, Run (Extension.step firefox) (fun s e => s.holding e = true)
        (.initial none none none) s₁ → s₁.Resolved →
      Run (Extension.step firefox) (fun s e => s.holding e = true) s₁ s₂ →
        FailsClosed firefox s₁ s₂ := by
  have hrun : ∃ s₁ s₂,
      exec (Extension.step firefox) holding (.initial none none none) firstTunnel = some s₁ ∧
        s₁.results 0 = some (.ok (.endpoints { socks5 := "a:1" })) ∧
      exec (Extension.step firefox) holding s₁ secondHostLost = some s₂ ∧
        s₂.port = some 2 ∧ s₂.source.map (·.port) = some 1 ∧
        s₂.forListener "b:2" = some { username := "v", password := "q" } ∧
        { id := 1, socks5 := "b:2", split := DEFAULT_SPLIT } ∈ s₂.handlers :=
    ⟨_, _, rfl, rfl, rfl, rfl, rfl, rfl, List.mem_cons_of_mem _ (List.mem_singleton.mpr rfl)⟩
  obtain ⟨s₁, s₂, h₁, hres, h₂, hp, hsource, hauth, hx⟩ := hrun
  have hr : shouldTunnelRequest firefox.toLowerCase { host := "c" } DEFAULT_SPLIT = true := by
    decide +kernel
  intro h
  have hb := (h s₁ s₂ (.of_exec h₁) ⟨0, _, hres⟩ (.of_exec h₂)).blocked rfl _ hx _ hr
  simp only [OnRequestHandler.answer, hr, if_true, hauth] at hb
  obtain ⟨g, hg, -, ho, -⟩ := hb
  rw [hg, Option.map_some] at hsource
  have hport : some (2 : Nat) = some 1 := hp.symm.trans (ho.1.trans hsource)
  cases hport

end State

end WarrenSdk.Extension
