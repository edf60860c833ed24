import WarrenSdk.Extension.Client.Requests
import WarrenSdk.Link.System

/-!
# No request is lost

Wherever the client, its helpers and the browser between them have got to, a request that was posted
is answered, or its port is open and it is in one place: on its way to the helper, with a call of
the helper that goes on, or as an answer on its way back.
-/

namespace WarrenSdk.Link
open Lib Extension
open NativeHost (HostSession TunnelRoute)

theorem Answers.id {id : Nat} {body : HostRequest} {m : NativeHost.Message}
    (h : Answers id body m) : m.id? = some (.number id) := by
  cases h <;> rfl

namespace System

variable {api : ChromeLike} {W : Wires} {s s' : System}

/-- Every request is followed from its port to its answer. -/
structure Followed (api : ChromeLike) (s : System) : Prop where
  linked : Linked api s
  hosts : s.client.LiveOpen
  quiet : ∀ p, HostSession.QuietInv (s.helper p)
  owed : ∀ {p t id body}, (t, id, body) ∈ s.begun p →
    HostSession.Owed (s.helper p) t (.number id)
  behind : ∀ p, s.delivered p ≤ (s.helper p).outbox.length
  /-- What was carried to the client settled what it answers. -/
  carried : ∀ {p i t m} {id : Nat}, (s.helper p).outbox[i]? = some (some t, m) → i < s.delivered p →
    m.id? = some (.number id) → s.client.answers id ≠ none

theorem followed_initial (settings : Option ProxyValue) (policy : Option String)
    (predictionSetting : Option Bool) :
    Followed api { client := .initial settings policy predictionSetting } where
  linked := linked_initial settings policy predictionSetting
  hosts := State.liveOpen_initial settings policy predictionSetting
  quiet _ := .new
  owed h := (List.not_mem_nil h).elim
  behind _ := Nat.zero_le _
  carried _ hi := absurd hi (Nat.not_lt_zero _)

/-! ## One event -/

theorem Followed.client_step {e : Extension.Event} {client : State} (h : Followed api s)
    (hmessage : ∀ p m, e ≠ .message p m)
    (hbrowser : ∀ n f, e = .browserAnswer n (.error f) → Blameless f)
    (hs : Extension.step api s.client e = some client) : Followed api { s with client } :=
  { h with
    linked := h.linked.client_step hmessage hbrowser hs
    hosts := State.liveOpen_step h.hosts hs
    carried := fun hm hi hid => by
      obtain ⟨s₀, hfair⟩ := h.linked.client
      obtain ⟨asked, hsound⟩ := hfair.step hmessage hbrowser hs
      exact hsound.kept (h.carried hm hi hid) }

/-- A helper goes on, with more requests begun or none. -/
theorem Followed.helper_step {e : NativeHost.Event} {p : Nat} {helper : HostSession} {more : Begun}
    (h : Followed api s) (hs : NativeHost.step (s.helper p) e = some helper)
    (hlinked : Linked api { s with
      helper := Function.update s.helper p helper
      begun := Function.update s.begun p (s.begun p ++ more) })
    (hmore : ∀ {t id body}, (t, id, body) ∈ more → HostSession.Owed helper t (.number id)) :
    Followed api { s with
      helper := Function.update s.helper p helper
      begun := Function.update s.begun p (s.begun p ++ more) } where
  linked := hlinked
  hosts := h.hosts
  quiet q := by
    dsimp only
    rcases eq_or_ne q p with rfl | hne
    · rw [Function.update_self]
      exact (h.quiet q).step (h.linked.serving q).own hs
    · rw [Function.update_of_ne hne]
      exact h.quiet q
  owed {q t id body} hb := by
    dsimp only at hb ⊢
    rcases eq_or_ne q p with rfl | hne
    · rw [Function.update_self] at hb ⊢
      rcases List.mem_append.mp hb with hb | hb
      · exact (h.owed hb).step (h.linked.serving q).own hs
      · exact hmore hb
    · rw [Function.update_of_ne hne] at hb ⊢
      exact h.owed hb
  behind q := by
    dsimp only
    rcases eq_or_ne q p with rfl | hne
    · rw [Function.update_self]
      exact (h.behind q).trans (outbox_grows (h.linked.serving q).own hs).length_le
    · rw [Function.update_of_ne hne]
      exact h.behind q
  carried {q i t m id} hm hi hid := by
    dsimp only at hm
    rcases eq_or_ne q p with rfl | hne
    · rw [Function.update_self] at hm
      obtain ⟨more, hmore⟩ := outbox_grows (h.linked.serving q).own hs
      rw [← hmore, List.getElem?_append_left (Nat.lt_of_lt_of_le hi (h.behind q))] at hm
      exact h.carried hm hi hid
    · rw [Function.update_of_ne hne] at hm
      exact h.carried hm hi hid

theorem Followed.poll_step {p m : Nat} {route : TunnelRoute} {body : HostRequest}
    (h : Followed api s) (hW : W.Faithful) (hposted : s.posted p m = some body)
    (hs : s.poll W p m route body = some s') : Followed api s' := by
  have hlinked := h.linked.poll_step hW hposted hs
  obtain ⟨request, hdecode, -⟩ := decodeRequest_toJson (hW.read_write m body)
  unfold poll at hs
  rw [hdecode] at hs
  obtain ⟨helper, hhelper, rfl⟩ := Option.map_eq_some_iff.mp hs
  refine h.helper_step hhelper hlinked fun hb => ?_
  cases List.mem_singleton.mp hb
  exact .handle (h.linked.serving p).own (h.quiet p) hhelper

/-- A message settles what it answers, and leaves nothing unsettled. -/
theorem answers_onMessage (c : State) (p : Nat) (response : HostResponse) :
    response.id ∉ (c.onMessage p (some (.response response))).pending ∧
      ∀ {m}, c.answers m ≠ none →
        (c.onMessage p (some (.response response))).answers m ≠ none := by
  unfold State.onMessage
  dsimp only
  split
  · refine ⟨fun hm => ?_, fun {m} hm => ?_⟩
    · exact of_decide_eq_true (List.mem_filter.mp hm).2 rfl
    · dsimp only
      rcases eq_or_ne m response.id with rfl | hne
      · rw [Function.update_self]
        exact Option.some_ne_none _
      · rw [Function.update_of_ne hne]
        exact hm
  · next hid => exact ⟨hid, fun hm => hm⟩

/-- What a call of a helper sends is read as an answer to what was posted. -/
theorem Followed.reads {p t : Nat} {m : NativeHost.Message} (h : Followed api s) (hW : W.Faithful)
    (hid : s.client.nextId ≤ MAX_EXACT_ID) (hm : (some t, m) ∈ (s.helper p).outbox) :
    ∃ id body, (p, id, body) ∈ s.client.sent ∧ m.id? = some (.number id) ∧
      Reads id body m (W.received m) := by
  obtain ⟨s₀, asked, hsound⟩ := h.linked.client
  obtain ⟨id, body, hbegun, hanswers⟩ := (h.linked.serving p).answers hm
  have hsent := h.linked.posted hbegun
  have hlt := Nat.lt_of_lt_of_le (hsound.sent_lt hsent) hid
  exact ⟨id, body, hsent, hanswers.id, hanswers.received hW hlt⟩

/-- One message more is carried to the client. -/
theorem Followed.delivered {p : Nat} {t : Option Nat} {m : NativeHost.Message} {client : State}
    (h : Followed api s) (hm : (s.helper p).outbox[s.delivered p]? = some (t, m))
    (hlinked : Linked api { s with
      client, delivered := Function.update s.delivered p (s.delivered p + 1) })
    (hhosts : client.LiveOpen)
    (hkept : ∀ {id}, s.client.answers id ≠ none → client.answers id ≠ none)
    (hnew : ∀ {u} {id : Nat}, t = some u → m.id? = some (.number id) → client.answers id ≠ none) :
    Followed api { s with
      client, delivered := Function.update s.delivered p (s.delivered p + 1) } where
  linked := hlinked
  hosts := hhosts
  quiet := h.quiet
  owed := h.owed
  behind q := by
    dsimp only
    rcases eq_or_ne q p with rfl | hne
    · rw [Function.update_self]
      exact (List.getElem?_eq_some_iff.mp hm).1
    · rw [Function.update_of_ne hne]
      exact h.behind q
  carried {q i u m' id} hi hlt hid := by
    dsimp only at hlt
    rcases eq_or_ne q p with rfl | hne
    · rw [Function.update_self] at hlt
      rcases Nat.lt_succ_iff_lt_or_eq.mp hlt with hlt | rfl
      · exact hkept (h.carried hi hlt hid)
      · cases hm.symm.trans hi
        exact hnew rfl hid
    · rw [Function.update_of_ne hne] at hlt
      exact hkept (h.carried hi hlt hid)

theorem Followed.deliver_step {p : Nat} {t : Option Nat} {m : NativeHost.Message}
    (h : Followed api s) (hW : W.Faithful) (hid : s.client.nextId ≤ MAX_EXACT_ID)
    (hm : (s.helper p).outbox[s.delivered p]? = some (t, m))
    (hs : s.deliver api W p m = some s') : Followed api s' := by
  have hmem := List.mem_of_getElem? hm
  have hlinked := h.linked.deliver_step hW hid hmem hs
  have hread {u : Nat} {id : Nat} (ht : t = some u) (hn : m.id? = some (.number id)) :
      ∃ body, (p, id, body) ∈ s.client.sent ∧ Reads id body m (W.received m) := by
    subst ht
    obtain ⟨id', body, hsent, hn', hreads⟩ := h.reads hW hid hmem
    obtain rfl : id = id' := by simpa using hn.symm.trans hn'
    exact ⟨body, hsent, hreads⟩
  unfold deliver at hs
  dsimp only at hs
  split at hs
  · next hnone =>
    cases hs
    refine h.delivered hm hlinked h.hosts (fun ha => ha) fun ht hn => ?_
    obtain ⟨body, -, hreads⟩ := hread ht hn
    rw [hnone] at hreads
    cases hreads
  · next message hmessage =>
    obtain ⟨client, hclient, rfl⟩ := Option.map_eq_some_iff.mp hs
    have hhosts := State.liveOpen_step h.hosts hclient
    unfold Extension.step at hclient
    dsimp only at hclient
    split at hclient
    · cases hclient
      cases message with
      | state vpnState =>
        refine h.delivered hm hlinked hhosts (fun ha => ha) fun ht hn => ?_
        obtain ⟨body, -, hreads⟩ := hread ht hn
        rw [hmessage] at hreads
        cases hreads
      | response response =>
        obtain ⟨hgone, hkept⟩ := answers_onMessage s.client p response
        refine h.delivered hm hlinked hhosts hkept fun ht hn => ?_
        obtain ⟨body, hsent, hreads⟩ := hread ht hn
        obtain ⟨s₀, hfair⟩ := h.linked.client
        obtain ⟨asked, hsound⟩ := hfair.message (h.linked.fitting hW hid hmem hmessage).1
        rw [← (received_onMessage s.client p response).2] at hsent
        rw [hmessage] at hreads
        cases hreads with
        | answer => exact hsound.settled hsent hgone
        | error => exact hsound.settled hsent hgone
    · cases hclient

/-- One event. -/
theorem Followed.step {e : LinkEvent} (h : Followed api s) (hW : W.Faithful)
    (hok : s.Allowed e) (hs : s.step api W e = some s') : Followed api s' := by
  have hlinked := h.linked.step hW hok hs
  cases happens_of_step hok hs with
  | client e hmessage hbrowser hclient => exact h.client_step hmessage hbrowser hclient
  | poll hposted hpoll => exact h.poll_step hW hposted hpoll
  | @helper p e helper hhandle hbinds hhelper =>
    have hsame : Function.update s.begun p (s.begun p ++ []) = s.begun := by
      rw [List.append_nil, Function.update_eq_self]
    have hnone := h.helper_step hhelper (hsame.symm ▸ hlinked) fun hb =>
      (List.not_mem_nil hb).elim
    rwa [hsame] at hnone
  | deliver hid hm hdeliver => exact h.deliver_step hW hid hm hdeliver

/-! ## Every run -/

theorem followed_of_run {settings : Option ProxyValue} {policy : Option String}
    {predictionSetting : Option Bool} (hW : W.Faithful)
    (h : Run (step api W) Allowed { client := .initial settings policy predictionSetting } s) :
    Followed api s :=
  h.invariant (fun hf ho hs => hf.step hW ho hs)
    (followed_initial settings policy predictionSetting)

/-- A request was posted, and no helper has begun it. -/
theorem exists_posted : ∃ s body,
    Run (step State.chromium jsonWires) Allowed { client := .initial none none none } s ∧
      (0, 2, body) ∈ s.client.sent ∧ s.client.answers 2 = none := by
  have hrun : (exec (step State.chromium jsonWires) allowed
      { client := .initial none none none } (connectEvents.take 9)).any (fun s =>
        s.client.sent.any (fun x => x.1 = 0 ∧ x.2.1 = 2) && (s.client.answers 2).isNone) =
          true := by
    decide +kernel
  obtain ⟨s, hs, hboth⟩ := (Option.any_eq_true ..).mp hrun
  obtain ⟨hsent, hnone⟩ := (Bool.and_eq_true ..).mp hboth
  obtain ⟨⟨p, m, body⟩, hmem, heq⟩ := List.any_eq_true.mp hsent
  obtain ⟨rfl, rfl⟩ : p = 0 ∧ m = 2 := of_decide_eq_true heq
  exact ⟨s, body, (Run.of_exec hs).mono fun _ _ h => Allowed.of_allowed h, hmem,
    Option.isNone_iff_eq_none.mp hnone⟩

/-- Whatever the order in which the client, its helpers and the browser between them go on: a
request that was posted is answered by what it asks for or fails, and not for the protocol; or its
port is open, and it is yet to be begun, or a call of the helper goes on with it, or its answer is
on its way. -/
theorem request_followed {settings : Option ProxyValue} {policy : Option String}
    {predictionSetting : Option Bool} (hW : W.Faithful)
    (h : Run (step api W) Allowed { client := .initial settings policy predictionSetting } s)
    {p m : Nat} {body : HostRequest} (hsent : (p, m, body) ∈ s.client.sent) :
    (∃ r, s.client.answers m = some r ∧ Settles s.client.received body r) ∨
      s.client.live p = true ∧
        (m ∉ (s.begun p).map (·.2.1) ∨
          ∃ t, (t, m, body) ∈ s.begun p ∧
            ((s.helper p).calls t ≠ none ∨
              ∃ i a, s.delivered p ≤ i ∧ (s.helper p).outbox[i]? = some (some t, a) ∧
                Answers m body a)) := by
  have hfollowed := followed_of_run hW h
  obtain ⟨s₀, asked, hsound⟩ := hfollowed.linked.client
  cases hanswer : s.client.answers m with
  | some r =>
    obtain ⟨p', body', hsent', hsettles⟩ := hsound.answers hanswer
    obtain ⟨-, rfl⟩ := hsound.one hsent hsent'
    exact .inl ⟨r, rfl, hsettles⟩
  | none =>
    have hpending : m ∈ s.client.pending := by
      by_contra hm
      exact hsound.settled hsent hm hanswer
    obtain ⟨p', body', hsent', hon⟩ := hsound.posted hpending
    obtain ⟨rfl, -⟩ := hsound.one hsent hsent'
    refine .inr ⟨(hfollowed.hosts p).mpr hon, ?_⟩
    by_cases hbegun : m ∈ (s.begun p).map (·.2.1)
    · obtain ⟨⟨t, m, body'⟩, hmem, rfl⟩ := List.mem_map.mp hbegun
      obtain ⟨-, rfl⟩ := hsound.one hsent (hfollowed.linked.posted hmem)
      refine .inr ⟨t, hmem, ?_⟩
      cases hfollowed.owed hmem with
      | pending c hc => exact .inl fun hover => by cases hc.symm.trans hover
      | answered a ha hall =>
        have hout : (some t, a) ∈ (s.helper p).outbox :=
          HostSession.mem_answers.mp (hall.answers ▸ List.mem_singleton_self a)
        obtain ⟨i, hi⟩ := List.getElem?_of_mem hout
        obtain ⟨id, body', hb, hanswers⟩ := (hfollowed.linked.serving p).answers hout
        obtain rfl : id = m := by simpa using hanswers.id.symm.trans ha
        obtain ⟨-, rfl⟩ := hsound.one hsent (hfollowed.linked.posted hb)
        refine .inr ⟨i, a, ?_, hi, hanswers⟩
        by_contra hlt
        exact hfollowed.carried hi (Nat.lt_of_not_le hlt) ha hanswer
    · exact .inl hbegun

theorem request_followed_connect : ∃ (s : System) (body : HostRequest),
    (0, 2, body) ∈ s.client.sent ∧ s.client.answers 2 = none ∧ s.client.live 0 = true := by
  obtain ⟨s, body, h, hsent, hnone⟩ := exists_posted
  rcases request_followed faithful_jsonWires h hsent with ⟨r, hr, -⟩ | ⟨hlive, -⟩
  · cases hnone.symm.trans hr
  · exact ⟨s, body, hsent, hnone, hlive⟩

end System

end WarrenSdk.Link
