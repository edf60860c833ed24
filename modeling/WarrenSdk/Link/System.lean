import WarrenSdk.Lib.JsonForm
import WarrenSdk.Lib.Utf8
import WarrenSdk.Link.ClientParts
import WarrenSdk.Link.Helper

/-!
# The extension and its helpers

A client in the browser, and a helper at each of its ports. The browser carries what is posted on a
port to its helper, and what the helper sends back, in order, to the client; a host may die and a
port be closed at any time, and what is on the way is lost then. In every run no call of the client
fails for the protocol, and the listener that the client holds is that of a tunnel its helper
stores.
-/

namespace WarrenSdk.Link
open Lib Extension
open NativeHost (HostSession TunnelRoute decodeRequest)

/-- A client with the helpers of its ports. -/
structure System where
  client : State
  helper : Nat → HostSession := fun _ => {}
  /-- What each helper has begun to handle. -/
  begun : Nat → Begun := fun _ => []
  /-- How many of a helper's messages were carried to the client. -/
  delivered : Nat → Nat := fun _ => 0

inductive LinkEvent
  | client (e : Extension.Event)
  /-- The helper of port `p` begins to handle the message `m` that was posted there. -/
  | poll (p m : Nat) (route : TunnelRoute)
  | helper (p : Nat) (e : NativeHost.Event)
  /-- The next message of the helper of port `p` comes in. -/
  | deliver (p : Nat)

namespace System

/-- The message `m` as it was posted on `p`. -/
def posted (s : System) (p m : Nat) : Option HostRequest :=
  (s.client.sent.find? fun x => x.1 = p ∧ x.2.1 = m).map (·.2.2)

section
variable (api : ChromeLike) (W : Wires)

/-- A helper begins to handle what it reads. -/
def poll (p m : Nat) (route : TunnelRoute) (body : HostRequest) (s : System) : Option System :=
  match decodeRequest W.crates (W.write (body.toJson m)) with
  | .request envelope =>
    (NativeHost.step (s.helper p) (.handle envelope route)).map fun helper =>
      { s with
        helper := Function.update s.helper p helper
        begun := Function.update s.begun p (s.begun p ++ [((s.helper p).nextCall, m, body)]) }
  | _ => none

/-- The client gets what it can read. -/
def deliver (p : Nat) (m : NativeHost.Message) (s : System) : Option System :=
  let s := { s with delivered := Function.update s.delivered p (s.delivered p + 1) }
  match W.received m with
  | none => some s
  | some message =>
    (Extension.step api s.client (.message p (some message))).map fun client => { s with client }

def step (s : System) : LinkEvent → Option System
  | .client (.message _ _) => none
  | .client e => (Extension.step api s.client e).map fun client => { s with client }
  | .poll p m route =>
    if m ∈ (s.begun p).map (·.2.1) then none
    else (s.posted p m).bind fun body => s.poll W p m route body
  | .helper _ (.handle _ _) => none
  | .helper p e => (NativeHost.step (s.helper p) e).map fun helper =>
    { s with helper := Function.update s.helper p helper }
  | .deliver p => ((s.helper p).outbox[s.delivered p]?).bind fun (_, m) => s.deliver api W p m

/-- The browser throws no error of the client's own, the engine binds the listeners that it is asked
for, and the client has not posted more messages than it can count. -/
def Allowed (s : System) : LinkEvent → Prop
  | .client (.browserAnswer _ (.error e)) => Blameless e
  | .helper p e => Binds (s.helper p) e
  | .deliver _ => s.client.nextId ≤ MAX_EXACT_ID
  | _ => True

end

/-- Each end does what the other takes it to do. -/
structure Linked (api : ChromeLike) (s : System) : Prop where
  client : ∃ s₀, Fair api s₀ s.client
  serving : ∀ p, Serving (s.begun p) (s.helper p)
  posted : ∀ {p t id body}, (t, id, body) ∈ s.begun p → (p, id, body) ∈ s.client.sent
  told : ∀ {p id b}, (p, .ok id b) ∈ s.client.received →
    ∃ t m, (some t, m) ∈ (s.helper p).outbox ∧ Conveys id m b

variable {api : ChromeLike} {W : Wires} {s s' : System}

/-! ## One event -/

theorem posted_mem {p m : Nat} {body : HostRequest} (h : s.posted p m = some body) :
    (p, m, body) ∈ s.client.sent := by
  obtain ⟨x, hx, rfl⟩ := Option.map_eq_some_iff.mp h
  have hmem := List.mem_of_find?_eq_some hx
  have heq : x.1 = p ∧ x.2.1 = m := by simpa using List.find?_some hx
  obtain ⟨rfl, rfl⟩ := heq
  exact hmem

theorem linked_initial (settings : Option ProxyValue) (policy : Option String)
    (predictionSetting : Option Bool) :
    Linked api { client := .initial settings policy predictionSetting } where
  client := ⟨_, fair_initial api settings policy predictionSetting⟩
  serving _ := .new
  posted h := (List.not_mem_nil h).elim
  told h := (List.not_mem_nil h).elim

/-- What a helper has sent stays sent. -/
theorem outbox_grows {h h' : HostSession} {e : NativeHost.Event}
    (hown : NativeHost.HostSession.OwnInv none h) (hs : NativeHost.step h e = some h') :
    h.outbox <+: h'.outbox := by
  rcases NativeHost.HostSession.outbox_of_step hown hs with hq | ⟨m, hq, -⟩
  · exact hq ▸ List.prefix_refl _
  · exact hq ▸ List.prefix_append ..

theorem Linked.client_step {e : Extension.Event} {client : State} (h : Linked api s)
    (hmessage : ∀ p m, e ≠ .message p m)
    (hbrowser : ∀ n f, e = .browserAnswer n (.error f) → Blameless f)
    (hs : Extension.step api s.client e = some client) : Linked api { s with client } := by
  obtain ⟨s₀, hfair⟩ := h.client
  have hstep := hfair.step hmessage hbrowser hs
  obtain ⟨asked, hsound⟩ := hstep
  refine ⟨⟨s.client, asked, hsound⟩, h.serving, fun hb => hsound.grown (h.posted hb), fun hr => ?_⟩
  rw [hsound.heard] at hr
  exact h.told hr

/-- A helper goes on, with more requests begun or none. -/
theorem Linked.helper_step {e : NativeHost.Event} {p : Nat} {helper : HostSession} {more : Begun}
    (h : Linked api s) (hs : NativeHost.step (s.helper p) e = some helper)
    (hserving : Serving (s.begun p ++ more) helper)
    (hmore : ∀ {t id body}, (t, id, body) ∈ more → (p, id, body) ∈ s.client.sent) :
    Linked api { s with
      helper := Function.update s.helper p helper
      begun := Function.update s.begun p (s.begun p ++ more) } where
  client := h.client
  serving q := by
    dsimp only
    rcases eq_or_ne q p with rfl | hne
    · rw [Function.update_self, Function.update_self]
      exact hserving
    · rw [Function.update_of_ne hne, Function.update_of_ne hne]
      exact h.serving q
  posted {q t id body} hb := by
    dsimp only at hb
    rcases eq_or_ne q p with rfl | hne
    · rw [Function.update_self] at hb
      rcases List.mem_append.mp hb with hb | hb
      · exact h.posted hb
      · exact hmore hb
    · rw [Function.update_of_ne hne] at hb
      exact h.posted hb
  told {q id b} hr := by
    obtain ⟨t, m, hm, hconveys⟩ := h.told hr
    refine ⟨t, m, ?_, hconveys⟩
    dsimp only
    rcases eq_or_ne q p with rfl | hne
    · rw [Function.update_self]
      exact (outbox_grows (h.serving q).own hs).subset hm
    · rw [Function.update_of_ne hne]
      exact hm

theorem Linked.poll_step {p m : Nat} {route : TunnelRoute} {body : HostRequest}
    (h : Linked api s) (hW : W.Faithful) (hposted : s.posted p m = some body)
    (hs : s.poll W p m route body = some s') : Linked api s' := by
  obtain ⟨request, hdecode, hrenders⟩ := decodeRequest_toJson (hW.read_write m body)
  obtain ⟨s₀, asked, hsound⟩ := h.client
  have hmem := posted_mem hposted
  unfold poll at hs
  rw [hdecode] at hs
  obtain ⟨helper, hhelper, rfl⟩ := Option.map_eq_some_iff.mp hs
  refine h.helper_step hhelper ((h.serving p).handle hrenders (fun v channel heq => ?_) hhelper) ?_
  · subst heq
    exact hsound.version hmem
  · intro t id b hb
    cases List.mem_singleton.mp hb
    exact hmem

/-- A state event answers nothing. -/
theorem received_state (W : Wires) (state : NativeHost.HostState) (response : HostResponse) :
    W.received (.state state) ≠ some (.response response) := by
  intro h
  rw [Wires.received, written] at h
  split at h
  · obtain ⟨vpnState, hvpn⟩ := ofString?_asStr state
    have hread : parseHostMessage (document W.number
        ((NativeHost.Message.state state).toJson W.spelling)) = some (.state vpnState) := by
      rw [NativeHost.Message.toJson, document, parseHostMessage, textMember_document rfl,
        textMember_document rfl]
      show (ExtensionVpnState.ofString? state.asStr).map HostMessage.state = _
      rw [hvpn]
      rfl
    cases hread.symm.trans h
  · cases h

/-- The client takes a helper's message for what it answers. -/
theorem Linked.fitting {p : Nat} {t : Option Nat} {m : NativeHost.Message}
    {response : HostResponse} (h : Linked api s) (hW : W.Faithful)
    (hid : s.client.nextId ≤ MAX_EXACT_ID) (hm : (t, m) ∈ (s.helper p).outbox)
    (hread : W.received m = some (.response response)) : Fitting s.client p response ∧
      ∀ id b, response = .ok id b → ∃ u, t = some u ∧ Conveys id m b := by
  obtain ⟨s₀, asked, hsound⟩ := h.client
  cases t with
  | none =>
    obtain ⟨state, rfl⟩ := (h.serving p).reports hm
    exact absurd hread (received_state W state response)
  | some t =>
    obtain ⟨id, body, hbegun, hanswers⟩ := (h.serving p).answers hm
    have hsent := h.posted hbegun
    have hreads := hanswers.received hW (Nat.lt_of_lt_of_le (hsound.sent_lt hsent) hid)
    rw [hread] at hreads
    cases hreads with
    | answer hfits hconveys =>
      refine ⟨⟨body, hsent, hfits⟩, fun id' b heq => ?_⟩
      cases heq
      exact ⟨t, rfl, hconveys⟩
    | error hhello code message => exact ⟨⟨body, hsent, hhello⟩, fun id' b heq => by cases heq⟩

theorem received_onMessage (c : State) (p : Nat) (response : HostResponse) :
    (c.onMessage p (some (.response response))).received = c.received ++ [(p, response)] ∧
      (c.onMessage p (some (.response response))).sent = c.sent := by
  unfold State.onMessage
  dsimp only
  split
  · exact ⟨rfl, rfl⟩
  · exact ⟨rfl, rfl⟩

theorem Linked.deliver_step {p : Nat} {t : Option Nat} {m : NativeHost.Message}
    (h : Linked api s) (hW : W.Faithful) (hid : s.client.nextId ≤ MAX_EXACT_ID)
    (hm : (t, m) ∈ (s.helper p).outbox) (hs : s.deliver api W p m = some s') :
    Linked api s' := by
  have hcounted {n : Nat → Nat} : Linked api { s with delivered := n } :=
    ⟨h.client, h.serving, h.posted, h.told⟩
  unfold deliver at hs
  dsimp only at hs
  split at hs
  · cases hs
    exact hcounted
  · next message hread =>
    obtain ⟨client, hclient, rfl⟩ := Option.map_eq_some_iff.mp hs
    unfold Extension.step at hclient
    dsimp only at hclient
    split at hclient
    · cases hclient
      cases message with
      | state vpnState => exact hcounted
      | response response =>
        obtain ⟨s₀, hfair⟩ := h.client
        obtain ⟨hreceived, hsent⟩ := received_onMessage s.client p response
        obtain ⟨hfit, hconveys⟩ := h.fitting hW hid hm hread
        refine ⟨⟨_, hfair.message hfit⟩, h.serving, fun hb => ?_, fun {q id b} hr => ?_⟩
        · rw [hsent]
          exact h.posted hb
        · rw [hreceived] at hr
          rcases List.mem_append.mp hr with hr | hr
          · exact h.told hr
          · cases List.mem_singleton.mp hr
            obtain ⟨u, rfl, hbody⟩ := hconveys id b rfl
            exact ⟨u, m, hm, hbody⟩
    · cases hclient

/-- What an allowed event does. -/
inductive Happens (api : ChromeLike) (W : Wires) (s : System) : System → Prop
  | client (e : Extension.Event) {client : State} (hmessage : ∀ p m, e ≠ .message p m)
      (hbrowser : ∀ n f, e = .browserAnswer n (.error f) → Blameless f)
      (hs : Extension.step api s.client e = some client) : Happens api W s { s with client }
  | poll {p m : Nat} {route : TunnelRoute} {body : HostRequest} {s' : System}
      (hposted : s.posted p m = some body) (hs : s.poll W p m route body = some s') :
    Happens api W s s'
  | helper {p : Nat} {e : NativeHost.Event} {helper : HostSession}
      (hhandle : ∀ envelope route, e ≠ .handle envelope route) (hbinds : Binds (s.helper p) e)
      (hs : NativeHost.step (s.helper p) e = some helper) :
    Happens api W s { s with helper := Function.update s.helper p helper }
  | deliver {p : Nat} {t : Option Nat} {m : NativeHost.Message} {s' : System}
      (hid : s.client.nextId ≤ MAX_EXACT_ID)
      (hm : (s.helper p).outbox[s.delivered p]? = some (t, m))
      (hs : s.deliver api W p m = some s') : Happens api W s s'

theorem happens_of_step {e : LinkEvent} (hok : s.Allowed e) (hs : s.step api W e = some s') :
    Happens api W s s' := by
  cases e with
  | client e =>
    have hgo (hmessage : ∀ p m, e ≠ .message p m)
        (hclient : (Extension.step api s.client e).map (fun client => { s with client }) =
          some s') : Happens api W s s' := by
      obtain ⟨client, hstep, rfl⟩ := Option.map_eq_some_iff.mp hclient
      refine .client e hmessage (fun n f heq => ?_) hstep
      subst heq
      exact hok
    cases e with
    | message p m => cases hs
    | _ => exact hgo (fun p m => by simp) hs
  | poll p m route =>
    simp only [System.step] at hs
    split at hs
    · cases hs
    · obtain ⟨body, hposted, hpoll⟩ := Option.bind_eq_some_iff.mp hs
      exact .poll hposted hpoll
  | helper p e =>
    have hgo (hhandle : ∀ envelope route, e ≠ .handle envelope route)
        (hhelper : (NativeHost.step (s.helper p) e).map (fun helper =>
          { s with helper := Function.update s.helper p helper }) = some s') :
        Happens api W s s' := by
      obtain ⟨helper, hstep, rfl⟩ := Option.map_eq_some_iff.mp hhelper
      exact .helper hhandle hok hstep
    cases e with
    | handle envelope route => cases hs
    | _ => exact hgo (fun envelope route => by simp) hs
  | deliver p =>
    obtain ⟨⟨t, m⟩, hm, hdeliver⟩ := Option.bind_eq_some_iff.mp hs
    exact .deliver hok hm hdeliver

/-- One event. -/
theorem Linked.step {e : LinkEvent} (h : Linked api s) (hW : W.Faithful)
    (hok : s.Allowed e) (hs : s.step api W e = some s') : Linked api s' := by
  cases happens_of_step hok hs with
  | client e hmessage hbrowser hclient => exact h.client_step hmessage hbrowser hclient
  | poll hposted hpoll => exact h.poll_step hW hposted hpoll
  | @helper p e helper hhandle hbinds hhelper =>
    have hserving : Serving (s.begun p ++ []) helper := by
      rw [List.append_nil]
      exact (h.serving p).step hhandle hbinds hhelper
    have hnone := h.helper_step hhelper hserving fun hb => (List.not_mem_nil hb).elim
    rwa [List.append_nil, Function.update_eq_self] at hnone
  | deliver hid hm hdeliver => exact h.deliver_step hW hid (List.mem_of_getElem? hm) hdeliver

/-! ## A connection -/

def isObject : Json → Bool
  | .object _ => true
  | _ => false

theorem isObject_iff {document : Json} :
    isObject document = true ↔ ∃ members, document = .object members := by
  cases document with
  | object members => exact iff_of_true rfl ⟨members, rfl⟩
  | _ => exact iff_of_false (by simp [isObject]) (by simp)

/-- Octets read as JSON texts; an object that does not begin as one is none. -/
def jsonCrates : NativeHost.Crates where
  read payload := (Json.parse (Utf8.decode payload)).filter fun document =>
    isObject document = NativeHost.isObject payload
  deviceId := Serde.string
  read_isObject h := by
    obtain ⟨-, heq⟩ := Option.filter_eq_some_iff.mp h
    rw [← of_decide_eq_true heq]
    exact isObject_iff

/-- Natural numbers up to which numbers are exact, in decimal. -/
def exactSpelling : NativeHost.Spelling where
  Number := Fin MAX_EXACT_ID
  text n := (Nat.toDigits 10 n).map fun c => UInt8.ofNat c.toNat
  length_text n := by
    rw [List.length_map]
    have hlt : (n : Nat) < 10 ^ 24 := Nat.lt_trans n.isLt (by decide)
    exact (Nat.length_toDigits_le_iff (by decide) (by decide)).mpr hlt
  ofRat q := ⟨q.num.toNat % MAX_EXACT_ID, Nat.mod_lt _ (Nat.two_pow_pos 53)⟩

def jsonWires : Wires where
  crates := jsonCrates
  write j := Utf16.utf8 (Json.stringify j)
  spelling := exactSpelling
  number n := (n.val : Nat)

theorem faithful_jsonWires : jsonWires.Faithful where
  read_write id body := by
    have hplain := plain_toJson id body
    obtain ⟨text, htext⟩ : ∃ text, Json.stringify (body.toJson id) = 0x7B :: text := by
      unfold HostRequest.toJson Json.ofFields HostRequest.message
      exact ⟨_, rfl⟩
    have hwell : Utf8.decode (Utf16.utf8 (Json.stringify (body.toJson id))) =
        Json.stringify (body.toJson id) :=
      (Utf8.decode_utf8 _).trans (Json.stringify_wellFormed hplain)
    have hbegins : NativeHost.isObject (Utf16.utf8 (Json.stringify (body.toJson id))) = true := by
      rw [htext, Utf16.utf8, Utf16.codePoints_cons (by decide)]
      rfl
    show (Json.parse (Utf8.decode (Utf16.utf8 (Json.stringify (body.toJson id))))).filter _ = _
    rw [hwell, Json.parse_stringify hplain]
    exact Option.filter_eq_some_iff.mpr ⟨rfl, decide_eq_true (hbegins ▸ rfl)⟩
  number_small {n} hn := by
    show (((n : Rat).num.toNat % MAX_EXACT_ID : Nat) : Rat) = n
    rw [Rat.num_natCast, Int.toNat_natCast, Nat.mod_eq_of_lt hn]
  number_natural n := ⟨_, rfl⟩

/-- What is allowed, as far as the connection below goes. -/
def allowed (s : System) : LinkEvent → Bool
  | .client (.browserAnswer _ (.error _)) => false
  | .helper _ (.dialed _ (.ok l)) => l.endpoints.http.isSome
  | .deliver _ => s.client.nextId ≤ MAX_EXACT_ID
  | _ => true

theorem Allowed.of_allowed {e : LinkEvent} (h : s.allowed e = true) : s.Allowed e := by
  cases e with
  | client e =>
    cases e with
    | browserAnswer n r =>
      cases r with
      | ok v => trivial
      | error e => cases h
    | _ => trivial
  | poll p m route => trivial
  | helper p e =>
    cases e with
    | dialed t r =>
      cases r with
      | ok l => exact fun _ _ _ _ _ _ _ => h
      | error e => trivial
    | _ => trivial
  | deliver p =>
    have hle : s.client.nextId ≤ MAX_EXACT_ID := of_decide_eq_true h
    exact hle

def bothListeners : NativeHost.Listeners where
  endpoints := { socks5 := "127.0.0.1:1080", http := some "127.0.0.1:8080" }
  username := "warren"
  password := "secret"
  exit := none

/-- A `connect` up to where the client holds the listener, and a `connect` that is refused
meanwhile. -/
def connectEvents : List LinkEvent := [
  .client (.connect { mnemonic := "m" }),
  .client (.browserAnswer 0
    (.ok (.details { levelOfControl := some .controllableByThisExtension }))),
  .client (.resume 0 true),
  .client (.browserAnswer 1 (.ok (.details {}))),
  .client (.resume 0 true),
  .poll 0 1 .own,
  .deliver 0,
  .client (.resume 2 true),
  .client (.resume 1 true),
  .client (.connect { mnemonic := "m" }),
  .poll 0 2 .own,
  .helper 0 (.created 1 (.ok ())),
  .helper 0 (.dialed 1 (.ok bothListeners)),
  .helper 0 (.state 1 .connected),
  .deliver 0,
  .client (.resume 1 true),
  .client (.resume 0 true),
  .client (.browserAnswer 2 (.ok .undefined)),
  .client (.resume 0 true),
  .client (.browserAnswer 3 (.ok .undefined)),
  .client (.resume 0 true)]

/-- A call was refused, and a listener is held on an open session that nobody was asked to close. -/
def connected (s : System) : Bool :=
  (match s.client.results 3 with
    | some (.error (.extension _)) => true
    | _ => false) &&
  s.client.source.any (fun g => !(s.helper g.port).inner.closed) &&
  s.client.sent.all fun x => x.2.2 ≠ .disconnect

theorem connected_cases (h : s.connected = true) :
    (∃ e, s.client.results 3 = some (.error (.extension e))) ∧
      (∃ g, s.client.source = some g ∧ (s.helper g.port).inner.closed = false) ∧
      ∀ p id, (p, id, .disconnect) ∉ s.client.sent := by
  obtain ⟨hboth, hsent⟩ := (Bool.and_eq_true ..).mp h
  obtain ⟨hrefused, hheld⟩ := (Bool.and_eq_true ..).mp hboth
  refine ⟨?_, ?_, fun p id hmem => ?_⟩
  · split at hrefused
    · next e he => exact ⟨e, he⟩
    · cases hrefused
  · obtain ⟨g, hg, hopen⟩ := (Option.any_eq_true ..).mp hheld
    exact ⟨g, hg, (Bool.not_eq_true' _).mp hopen⟩
  · exact of_decide_eq_true (List.all_eq_true.mp hsent _ hmem) rfl

theorem exists_connected : ∃ s,
    Run (step State.chromium jsonWires) Allowed { client := .initial none none none } s ∧
      s.connected = true := by
  have hrun : (exec (step State.chromium jsonWires) allowed
      { client := .initial none none none } connectEvents).any connected = true := by
    decide +kernel
  obtain ⟨s, hs, hall⟩ := (Option.any_eq_true ..).mp hrun
  exact ⟨s, (Run.of_exec hs).mono fun _ _ h => Allowed.of_allowed h, hall⟩

/-! ## Every run -/

theorem linked_of_run {settings : Option ProxyValue} {policy : Option String}
    {predictionSetting : Option Bool} (hW : W.Faithful)
    (h : Run (step api W) Allowed { client := .initial settings policy predictionSetting } s) :
    Linked api s :=
  h.invariant (fun hl ho hs => hl.step hW ho hs) (linked_initial settings policy predictionSetting)

/-- Whatever the order in which the client, its helpers and the browser between them go on: no call
of the client fails for the protocol. -/
theorem never_protocol {settings : Option ProxyValue} {policy : Option String}
    {predictionSetting : Option Bool} (hW : W.Faithful)
    (h : Run (step api W) Allowed { client := .initial settings policy predictionSetting } s)
    (t : Nat) (e : WarrenExtensionError)
    (ht : s.client.results t = some (.error (.extension e))) : e.code ≠ .protocol := by
  obtain ⟨s₀, asked, hsound⟩ := (linked_of_run hW h).client
  exact hsound.blameless ht

theorem never_protocol_connect : ∃ (s : System) (e : WarrenExtensionError),
    s.client.results 3 = some (.error (.extension e)) ∧ e.code ≠ .protocol := by
  obtain ⟨s, h, hconnected⟩ := exists_connected
  obtain ⟨⟨e, he⟩, -, -⟩ := connected_cases hconnected
  exact ⟨s, e, he, never_protocol faithful_jsonWires h 3 e he⟩

/-- Whatever the order of their events: the listener that a client holds is that of a tunnel which
the helper of its port stores, and has not handed to `shutdown`, unless that helper was asked to
disconnect or its session is closed. -/
theorem listener_stored {settings : Option ProxyValue} {policy : Option String}
    {predictionSetting : Option Bool} (hW : W.Faithful)
    (h : Run (step api W) Allowed { client := .initial settings policy predictionSetting } s)
    {g : Granted} (hg : s.client.source = some g) :
    (s.helper g.port).inner.closed = true ∨
      (∃ id, (g.port, id, .disconnect) ∈ s.client.sent) ∨
      ∃ n e, (s.helper g.port).inner.tunnel = some n ∧ n ∉ (s.helper g.port).shutdowns ∧
        (s.helper g.port).inner.endpoints = some e ∧ g.endpoints = endpointsOf e := by
  have hlinked := linked_of_run hW h
  obtain ⟨s₀, asked, hsound⟩ := hlinked.client
  obtain ⟨id, auth, hheard, -⟩ := (hsound.source hg).heard
  obtain ⟨t, m, hm, e, username, password, exit, rfl, hendpoints, -⟩ := hlinked.told hheard
  have hserving := hlinked.serving g.port
  rcases hserving.holds hm rfl with htorn | ⟨⟨n, hn⟩, he⟩
  · rcases htorn with hclosed | ⟨t', id', hdisconnect⟩
    · exact .inl hclosed
    · exact .inr (.inl ⟨id', hlinked.posted hdisconnect⟩)
  · exact .inr (.inr ⟨n, e, hn, (hserving.own.stored_apart hn).1, he, hendpoints⟩)

theorem listener_stored_connect : ∃ (s : System) (g : Granted) (n : Nat),
    s.client.source = some g ∧ (s.helper g.port).inner.tunnel = some n ∧
      n ∉ (s.helper g.port).shutdowns := by
  obtain ⟨s, h, hconnected⟩ := exists_connected
  obtain ⟨-, ⟨g, hg, hopen⟩, hnone⟩ := connected_cases hconnected
  rcases listener_stored faithful_jsonWires h hg with
    hclosed | ⟨id, hdisconnect⟩ | ⟨n, e, hn, hlive, -, -⟩
  · cases hopen.symm.trans hclosed
  · exact absurd hdisconnect (hnone _ _)
  · exact ⟨s, g, n, hg, hn, hlive⟩

end System

end WarrenSdk.Link
