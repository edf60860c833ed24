import WarrenSdk.Lib.Run
import WarrenSdk.NativeHost.Session

/-!
# Who owns a tunnel

Every tunnel the backend created is being dialed by the one `connect` in flight, stored, or handed
to `shutdown`, and in no two of these places. While a part of a handle moves a tunnel from one place
to another it is `loose`; each part that takes one out of a place puts it into another before it
ends.
-/

namespace WarrenSdk.NativeHost
open Lib

/-- The generation a `connect` in flight was begun under. -/
def Call.generation? : Call → Option Nat
  | .creating _ g _ | .dialing _ g _ => some g
  | _ => none

/-- The tunnel a call is dialing. -/
def Call.tunnel? : Call → Option Nat
  | .dialing _ _ n => some n
  | _ => none

theorem Call.eq_dialing {c : Call} (h : c.tunnel? = some n) : ∃ id g, c = .dialing id g n := by
  cases c <;> cases h
  exact ⟨_, _, rfl⟩

/-- The events that advance the generation of a `connect` in flight. -/
def Event.cancels : Event → Bool
  | .handle ⟨_, .disconnect⟩ _ | .close => true
  | _ => false

namespace HostSession

inductive Place
  | dialing
  | stored
  | handed

/-- `t` is a `connect` in flight. -/
def InFlight (s : HostSession) (t : Nat) : Prop :=
  ∃ c g, s.calls t = some c ∧ c.generation? = some g

/-- Tunnel `n` is in the place. -/
def At (s : HostSession) (n : Nat) : Place → Prop
  | .dialing => ∃ t id g, s.calls t = some (.dialing id g n) ∧ ∀ t', s.InFlight t' → t' = t
  | .stored => s.inner.tunnel = some n
  | .handed => n ∈ s.shutdowns

structure OwnInv (loose : Option Nat) (s : HostSession) : Prop where
  connecting : ∀ {t c g}, s.calls t = some c → c.generation? = some g →
    s.inner.connecting = true ∧ g ≤ s.inner.generation
  unique : ∀ {t t'}, s.InFlight t → s.InFlight t' → t = t'
  empty : s.inner.connecting = true → s.inner.tunnel = none
  closed : s.inner.closed = true → s.inner.tunnel = none
  stale : ∀ {t c g}, s.inner.closed = true → s.calls t = some c → c.generation? = some g →
    g < s.inner.generation
  call_lt : ∀ {t}, s.calls t ≠ none → t < s.nextCall
  owner : ∀ {t id g n}, s.calls t = some (.dialing id g n) → s.created[n]? = some t
  loose_lt : ∀ {n}, loose = some n → n < s.created.length
  stored_lt : ∀ {n}, s.inner.tunnel = some n → n < s.created.length
  shutdown_lt : ∀ {n}, n ∈ s.shutdowns → n < s.created.length
  placed : ∀ {n}, n < s.created.length → loose = some n ∨
    (∃ t id g, s.calls t = some (.dialing id g n)) ∨ s.inner.tunnel = some n ∨ n ∈ s.shutdowns
  dialing_apart : ∀ {t id g n}, s.calls t = some (.dialing id g n) →
    n ∉ s.shutdowns ∧ loose ≠ some n
  stored_apart : ∀ {n}, s.inner.tunnel = some n → n ∉ s.shutdowns ∧ loose ≠ some n
  loose_apart : ∀ {n}, loose = some n → n ∉ s.shutdowns
  nodup : s.shutdowns.Nodup

variable {loose : Option Nat} {s s' : HostSession} {t n : Nat} {id : Value}

/-! ## Places -/

theorem OwnInv.place (h : OwnInv none s) (hn : n < s.created.length) : ∃! p, s.At n p := by
  have hdial {t id g} (ht : s.calls t = some (.dialing id g n)) : s.At n .dialing :=
    ⟨t, id, g, ht, fun t' ht' => h.unique ht' ⟨_, g, ht, rfl⟩⟩
  have hstored {t id g} (ht : s.calls t = some (.dialing id g n)) : s.inner.tunnel ≠ some n := by
    rw [h.empty (h.connecting ht rfl).1]
    simp
  rcases h.placed hn with hl | ⟨t, id, g, ht⟩ | hs | hm
  · cases hl
  · refine ⟨.dialing, hdial ht, fun p hp => ?_⟩
    cases p with
    | dialing => rfl
    | stored => exact absurd hp (hstored ht)
    | handed => exact absurd hp (h.dialing_apart ht).1
  · refine ⟨.stored, hs, fun p hp => ?_⟩
    cases p with
    | dialing =>
      obtain ⟨t, id, g, ht, -⟩ := hp
      exact absurd hs (hstored ht)
    | stored => rfl
    | handed => exact absurd hp (h.stored_apart hs).1
  · refine ⟨.handed, hm, fun p hp => ?_⟩
    cases p with
    | dialing =>
      obtain ⟨t, id, g, ht, -⟩ := hp
      exact absurd hm (h.dialing_apart ht).1
    | stored => exact absurd hm (h.stored_apart hp).1
    | handed => rfl

/-! ## Parts of a handle -/

/-- What `OwnInv` speaks of. -/
def ownView (s : HostSession) :=
  (s.inner.tunnel, s.inner.connecting, s.inner.closed, s.inner.generation, s.calls, s.nextCall,
    s.created, s.shutdowns)

theorem OwnInv.frame (h : OwnInv loose s) (hv : s'.ownView = s.ownView) : OwnInv loose s' := by
  simp only [ownView, Prod.mk.injEq] at hv
  obtain ⟨ht, hc, hcl, hg, hca, hn, hcr, hsh⟩ := hv
  have hfl : ∀ t, s'.InFlight t = s.InFlight t := fun t => by simp only [InFlight, hca]
  constructor
  · rw [hca, hc, hg]; exact h.connecting
  · simp only [hfl]; exact h.unique
  · rw [hc, ht]; exact h.empty
  · rw [hcl, ht]; exact h.closed
  · rw [hcl, hca, hg]; exact h.stale
  · rw [hca, hn]; exact h.call_lt
  · rw [hca, hcr]; exact h.owner
  · rw [hcr]; exact h.loose_lt
  · rw [ht, hcr]; exact h.stored_lt
  · rw [hsh, hcr]; exact h.shutdown_lt
  · rw [hcr, hca, ht, hsh]; exact h.placed
  · rw [hca, hsh]; exact h.dialing_apart
  · rw [ht, hsh]; exact h.stored_apart
  · rw [hsh]; exact h.loose_apart
  · rw [hsh]; exact h.nodup

theorem OwnInv.send (h : OwnInv loose s) : OwnInv loose (s.send t m) := h.frame rfl

/-- A call is woken; the tunnel it dialed, if it did, is loose. -/
theorem OwnInv.wake (h : OwnInv none s) (ht : s.calls t = some c) :
    OwnInv c.tunnel? (s.wake t) := by
  have hsub {t' x} (hx : (s.wake t).calls t' = some x) : t' ≠ t ∧ s.calls t' = some x := by
    simp only [HostSession.wake, Function.update_apply] at hx
    split at hx
    · cases hx
    · next he => exact ⟨he, hx⟩
  have hfl {t'} (hx : (s.wake t).InFlight t') : s.InFlight t' :=
    hx.imp fun _ ⟨g, hc, hg⟩ => ⟨g, (hsub hc).2, hg⟩
  exact {
    connecting := fun hc => h.connecting (hsub hc).2
    unique := fun hx hx' => h.unique (hfl hx) (hfl hx')
    empty := h.empty
    closed := h.closed
    stale := fun hcl hc => h.stale hcl (hsub hc).2
    call_lt := fun {t'} hc => by
      obtain ⟨x, hx⟩ := Option.ne_none_iff_exists'.mp hc
      exact h.call_lt (by rw [(hsub hx).2]; simp)
    owner := fun hc => h.owner (hsub hc).2
    loose_lt := fun hl => by
      obtain ⟨id, g, rfl⟩ := Call.eq_dialing hl
      exact (List.getElem?_eq_some_iff.mp (h.owner ht)).1
    stored_lt := h.stored_lt
    shutdown_lt := h.shutdown_lt
    placed := fun {n} hn => by
      rcases h.placed hn with hl | ⟨t', id, g, hc⟩ | hrest
      · cases hl
      · by_cases he : t' = t
        · subst he
          cases ht.symm.trans hc
          exact .inl rfl
        · exact .inr (.inl ⟨t', id, g, by
            simpa only [HostSession.wake, Function.update_apply, if_neg he] using hc⟩)
      · exact .inr (.inr hrest)
    dialing_apart := fun {t' id g n} hc => by
      refine ⟨(h.dialing_apart (hsub hc).2).1, fun hl => ?_⟩
      obtain ⟨id', g', rfl⟩ := Call.eq_dialing hl
      exact (hsub hc).1 (h.unique ⟨_, _, (hsub hc).2, rfl⟩ ⟨_, _, ht, rfl⟩)
    stored_apart := fun {n} hs => by
      refine ⟨(h.stored_apart hs).1, fun hl => ?_⟩
      obtain ⟨id', g', rfl⟩ := Call.eq_dialing hl
      cases (h.empty (h.connecting ht rfl).1).symm.trans hs
    loose_apart := fun hl => by
      obtain ⟨id', g', rfl⟩ := Call.eq_dialing hl
      exact (h.dialing_apart ht).1
    nodup := h.nodup }

/-- Suspending a call that is no `connect` in flight. -/
theorem OwnInv.suspend (h : OwnInv loose s) (ht : s.calls t = none) (hlt : t < s.nextCall)
    (hc : c.generation? = none) : OwnInv loose (s.suspend t c) := by
  have hsub {t' x g} (hx : (s.suspend t c).calls t' = some x) (hg : x.generation? = some g) :
      s.calls t' = some x := by
    simp only [HostSession.suspend, Function.update_apply] at hx
    split at hx
    · cases hx
      cases hc.symm.trans hg
    · exact hx
  have hkeep {t' x} (hx : s.calls t' = some x) : (s.suspend t c).calls t' = some x := by
    have hne : t' ≠ t := by
      rintro rfl
      cases ht.symm.trans hx
    simpa only [HostSession.suspend, Function.update_apply, if_neg hne] using hx
  have hfl {t'} (hx : (s.suspend t c).InFlight t') : s.InFlight t' :=
    hx.imp fun _ ⟨g, hc, hg⟩ => ⟨g, hsub hc hg, hg⟩
  exact { h with
    connecting := fun hx hg => h.connecting (hsub hx hg) hg
    unique := fun hx hx' => h.unique (hfl hx) (hfl hx')
    stale := fun hcl hx hg => h.stale hcl (hsub hx hg) hg
    call_lt := fun {t'} hx => by
      by_cases he : t' = t
      · exact he ▸ hlt
      · simp only [HostSession.suspend, Function.update_apply, if_neg he] at hx
        exact h.call_lt hx
    owner := fun hx => h.owner (hsub hx rfl)
    placed := fun hn => (h.placed hn).imp_right <| Or.imp_left fun ⟨t', id, g, hx⟩ =>
      ⟨t', id, g, hkeep hx⟩
    dialing_apart := fun hx => h.dialing_apart (hsub hx rfl) }

/-- A loose tunnel is handed to `shutdown`. -/
theorem OwnInv.shutdown (h : OwnInv (some n) s) (ht : s.calls t = none) (hlt : t < s.nextCall)
    (hc : c.generation? = none) : OwnInv none (s.shutdown t n c) := by
  have hmem {m} : m ∈ s.shutdowns ++ [n] ↔ m ∈ s.shutdowns ∨ m = n := by simp
  refine OwnInv.suspend ?_ ht hlt hc
  exact { h with
    loose_lt := fun hl => by cases hl
    shutdown_lt := fun hm => by
      rcases hmem.mp hm with hm | rfl
      · exact h.shutdown_lt hm
      · exact h.loose_lt rfl
    placed := fun {m} hm => by
      rcases h.placed hm with hl | hd | hs | hsh
      · cases hl
        exact .inr (.inr (.inr (hmem.mpr (.inr rfl))))
      · exact .inr (.inl hd)
      · exact .inr (.inr (.inl hs))
      · exact .inr (.inr (.inr (hmem.mpr (.inl hsh))))
    dialing_apart := fun hd => by
      refine ⟨fun hm => ?_, by simp⟩
      rcases hmem.mp hm with hm | rfl
      · exact (h.dialing_apart hd).1 hm
      · exact (h.dialing_apart hd).2 rfl
    stored_apart := fun hs => by
      refine ⟨fun hm => ?_, by simp⟩
      rcases hmem.mp hm with hm | rfl
      · exact (h.stored_apart hs).1 hm
      · exact (h.stored_apart hs).2 rfl
    loose_apart := fun hl => by cases hl
    nodup := by
      refine List.nodup_append.mpr ⟨h.nodup, by simp, fun a ha b hb => ?_⟩
      rw [List.mem_singleton.mp hb]
      rintro rfl
      exact h.loose_apart rfl ha }

/-- `teardown` takes the stored tunnel out, and outdates every `connect` in flight. -/
theorem OwnInv.teardown (h : OwnInv none s) :
    OwnInv s.inner.tunnel { s with inner := { s.inner with closed := b } }.teardown.2 :=
  { h with
    connecting := fun hc hg => ⟨(h.connecting hc hg).1, Nat.le_succ_of_le (h.connecting hc hg).2⟩
    empty := fun _ => rfl
    closed := fun _ => rfl
    stale := fun _ hc hg => Nat.lt_succ_of_le (h.connecting hc hg).2
    loose_lt := h.stored_lt
    stored_lt := fun hs => by cases hs
    placed := fun hn => by
      rcases h.placed hn with hl | hd | hs | hsh
      · cases hl
      · exact .inr (.inl hd)
      · exact .inl hs
      · exact .inr (.inr (.inr hsh))
    dialing_apart := fun hd => by
      refine ⟨(h.dialing_apart hd).1, ?_⟩
      rw [h.empty (h.connecting hd rfl).1]
      simp
    stored_apart := fun hs => by cases hs
    loose_apart := fun hs => (h.stored_apart hs).1 }

theorem OwnInv.disconnect (h : OwnInv none s) (ht : s.calls t = none) (hlt : t < s.nextCall) :
    OwnInv none (s.disconnect t id) := by
  have h' := h.teardown (b := s.inner.closed)
  unfold HostSession.disconnect
  simp only [HostSession.teardown] at h' ⊢
  cases hs : s.inner.tunnel with
  | none => rw [hs] at h'; exact h'.send
  | some n => rw [hs] at h'; exact h'.shutdown ht hlt rfl

theorem OwnInv.close (h : OwnInv none s) (ht : s.calls t = none) (hlt : t < s.nextCall) :
    OwnInv none (s.close t) := by
  have h' := h.teardown (b := true)
  unfold HostSession.close
  simp only [HostSession.teardown] at h' ⊢
  cases hs : s.inner.tunnel with
  | none => rw [hs] at h'; exact h'
  | some n => rw [hs] at h'; exact h'.shutdown ht hlt rfl

/-! ## `connect` -/

theorem OwnInv.connect (h : OwnInv none s) (hlt : t < s.nextCall) :
    OwnInv none (s.connect t id request) := by
  unfold HostSession.connect
  split
  · exact h.send
  next hcl =>
  split
  · exact h.send
  next hidle =>
  simp only [Bool.or_eq_true, not_or, Bool.not_eq_true, Option.isSome_eq_false_iff,
    Option.isNone_iff_eq_none] at hidle hcl
  obtain ⟨hcon, htun⟩ := hidle
  have hno {t' c g} (hc : s.calls t' = some c) (hg : c.generation? = some g) : False := by
    cases (h.connecting hc hg).1.symm.trans hcon
  have hcalls {t' x} (hx : Function.update s.calls t (some (.creating id (s.inner.generation + 1)
      { selector := request.selector, entrySelector := request.entrySelector,
        httpProxy := request.httpProxy })) t' = some x) :
      t' = t ∧ x.generation? = some (s.inner.generation + 1) ∧ x.tunnel? = none ∨
        s.calls t' = some x := by
    simp only [Function.update_apply] at hx
    split at hx
    · next he => cases hx; exact .inl ⟨he, rfl, rfl⟩
    · exact .inr hx
  exact { h with
    connecting := fun hc hg => by
      rcases hcalls hc with ⟨-, hg', -⟩ | hc
      · cases hg'.symm.trans hg
        exact ⟨rfl, Nat.le_refl _⟩
      · exact (hno hc hg).elim
    unique := by
      rintro t' t'' ⟨c, g, hc, hg⟩ ⟨c', g', hc', hg'⟩
      rcases hcalls hc with ⟨he, -⟩ | hc
      · rcases hcalls hc' with ⟨he', -⟩ | hc'
        · exact he.trans he'.symm
        · exact (hno hc' hg').elim
      · exact (hno hc hg).elim
    empty := fun _ => htun
    stale := fun hcl' => by cases hcl'.symm.trans hcl
    call_lt := fun {t'} hx => by
      by_cases he : t' = t
      · exact he ▸ hlt
      · simp only [HostSession.suspend, Function.update_apply, if_neg he] at hx
        exact h.call_lt hx
    owner := fun hx => by
      rcases hcalls hx with ⟨-, -, hn⟩ | hc
      · cases hn
      · exact h.owner hc
    placed := fun hn => by
      rcases h.placed hn with hl | ⟨t', id', g', hd⟩ | hrest
      · cases hl
      · exact (hno hd rfl).elim
      · exact .inr (.inr hrest)
    dialing_apart := fun hx => by
      rcases hcalls hx with ⟨-, -, hn⟩ | hc
      · cases hn
      · exact h.dialing_apart hc }

/-- What a `connect` in flight knows when it is woken. -/
structure Settling (s : HostSession) (t g : Nat) : Prop where
  connecting : s.inner.connecting = true
  alone : ∀ t', ¬ s.InFlight t'
  free : s.calls t = none
  lt : t < s.nextCall
  le : g ≤ s.inner.generation
  stale : s.inner.closed = true → g < s.inner.generation

theorem OwnInv.settling (h : OwnInv none s) (ht : s.calls t = some c)
    (hg : c.generation? = some g) : Settling (s.wake t) t g where
  connecting := (h.connecting ht hg).1
  alone t' := by
    rintro ⟨x, g', hx, hg'⟩
    simp only [HostSession.wake, Function.update_apply] at hx
    split at hx
    · cases hx
    · next hne => exact hne (h.unique ⟨x, g', hx, hg'⟩ ⟨c, g, ht, hg⟩)
  free := by simp [HostSession.wake]
  lt := h.call_lt (by rw [ht]; simp)
  le := (h.connecting ht hg).2
  stale hcl := h.stale hcl ht hg

/-- The flag falls with the one `connect` in flight, whatever becomes of the generation. -/
theorem OwnInv.settled {inner : Inner} (h : OwnInv loose s) (hs : Settling s t g)
    (hi : inner.tunnel = s.inner.tunnel ∧ inner.closed = s.inner.closed) :
    OwnInv loose { s with inner } := by
  obtain ⟨ht, hcl⟩ := hi
  have hempty : inner.tunnel = none := ht.trans (h.empty hs.connecting)
  exact { h with
    connecting := fun hc hg => (hs.alone _ ⟨_, _, hc, hg⟩).elim
    empty := fun _ => hempty
    closed := fun _ => hempty
    stale := fun _ hc hg => (hs.alone _ ⟨_, _, hc, hg⟩).elim
    stored_lt := fun hn => by cases hempty.symm.trans hn
    placed := fun hn => by
      rcases h.placed hn with hl | hd | hst | hsh
      · exact .inl hl
      · exact .inr (.inl hd)
      · cases (h.empty hs.connecting).symm.trans hst
      · exact .inr (.inr (.inr hsh))
    stored_apart := fun hn => by cases hempty.symm.trans hn }

theorem OwnInv.settle (h : OwnInv loose s) (hs : Settling s t g)
    (hout : (∃ n l, outcome = .ok (n, l) ∧ loose = some n) ∨ ∃ e, outcome = .error (loose, e)) :
    OwnInv none (s.settle t id g outcome) := by
  have hanswer {inner : Inner} {m : Message}
      (hi : inner.tunnel = s.inner.tunnel ∧ inner.closed = s.inner.closed) :
      OwnInv none ({ s with inner }.answerConnect t loose m) := by
    cases loose with
    | none => exact (h.settled hs hi).send
    | some n => exact (h.settled hs hi).shutdown hs.free hs.lt rfl
  rcases hout with ⟨n, l, rfl, rfl⟩ | ⟨e, rfl⟩
  · unfold HostSession.settle
    simp only
    split
    · next hcur =>
      have hopen : s.inner.closed = false := by
        by_contra hcl
        have hlt := hs.stale (by simpa using hcl)
        rw [show s.inner.generation = g from hcur] at hlt
        exact Nat.lt_irrefl _ hlt
      refine OwnInv.send ?_
      exact { h with
        connecting := fun hc hg => (hs.alone _ ⟨_, _, hc, hg⟩).elim
        empty := fun hc => by cases hc
        closed := fun hc => by cases hc.symm.trans hopen
        stale := fun _ hc hg => (hs.alone _ ⟨_, _, hc, hg⟩).elim
        loose_lt := fun hl => by cases hl
        stored_lt := fun hn => by
          cases hn
          exact h.loose_lt rfl
        placed := fun hn => by
          rcases h.placed hn with hl | hd | hst | hsh
          · exact .inr (.inr (.inl hl))
          · exact .inr (.inl hd)
          · cases (h.empty hs.connecting).symm.trans hst
          · exact .inr (.inr (.inr hsh))
        dialing_apart := fun hd => (hs.alone _ ⟨_, _, hd, rfl⟩).elim
        stored_apart := fun hn => by
          cases hn
          exact ⟨h.loose_apart rfl, by simp⟩
        loose_apart := fun hl => by cases hl }
    · exact hanswer ⟨rfl, rfl⟩
  · unfold HostSession.settle
    refine hanswer ?_
    split <;> exact ⟨rfl, rfl⟩

theorem OwnInv.dialed (h : OwnInv (some n) s) (hs : Settling s t g) :
    OwnInv none (s.dialed t id g n r) := by
  refine h.settle hs ?_
  cases r with
  | error e => exact .inr ⟨e, rfl⟩
  | ok l =>
    simp only
    split
    · exact .inr ⟨_, rfl⟩
    · exact .inl ⟨n, l, rfl, rfl⟩

theorem OwnInv.tunnelCreated (h : OwnInv none s) (hs : Settling s t g) :
    OwnInv none (s.tunnelCreated t id g options r) := by
  unfold HostSession.tunnelCreated
  split
  · exact h.settle hs (.inr ⟨_, rfl⟩)
  have hcalls {t' x} (hx : Function.update s.calls t (some (.dialing id g s.created.length)) t' =
      some x) : t' = t ∧ x = .dialing id g s.created.length ∨ t' ≠ t ∧ s.calls t' = some x := by
    simp only [Function.update_apply] at hx
    split at hx
    · next he => exact .inl ⟨he, (Option.some.inj hx).symm⟩
    · next he => exact .inr ⟨he, hx⟩
  have hlen {m} (hm : m < s.created.length) : m < (s.created ++ [t]).length := by
    simp only [List.length_append, List.length_singleton]
    omega
  exact { h with
    connecting := fun hc hg => by
      rcases hcalls hc with ⟨-, rfl⟩ | ⟨-, hc⟩
      · cases hg
        exact ⟨hs.connecting, hs.le⟩
      · exact (hs.alone _ ⟨_, _, hc, hg⟩).elim
    unique := by
      rintro t' t'' ⟨c, g', hc, hg⟩ ⟨c', g'', hc', hg'⟩
      rcases hcalls hc with ⟨he, -⟩ | ⟨-, hc⟩
      · rcases hcalls hc' with ⟨he', -⟩ | ⟨-, hc'⟩
        · exact he.trans he'.symm
        · exact (hs.alone _ ⟨_, _, hc', hg'⟩).elim
      · exact (hs.alone _ ⟨_, _, hc, hg⟩).elim
    stale := fun hcl hc hg => by
      rcases hcalls hc with ⟨-, rfl⟩ | ⟨-, hc⟩
      · cases hg
        exact hs.stale hcl
      · exact (hs.alone _ ⟨_, _, hc, hg⟩).elim
    call_lt := fun {t'} hx => by
      by_cases he : t' = t
      · exact he ▸ hs.lt
      · simp only [HostSession.suspend, Function.update_apply, if_neg he] at hx
        exact h.call_lt hx
    owner := fun hx => by
      rcases hcalls hx with ⟨rfl, hd⟩ | ⟨-, hc⟩
      · cases hd
        exact List.getElem?_concat_length
      · exact (hs.alone _ ⟨_, _, hc, rfl⟩).elim
    loose_lt := fun hl => by cases hl
    stored_lt := fun hn => hlen (h.stored_lt hn)
    shutdown_lt := fun hn => hlen (h.shutdown_lt hn)
    placed := fun {m} hm => by
      have hm' : m < (s.created ++ [t]).length := hm
      simp only [List.length_append, List.length_singleton] at hm'
      rcases Nat.lt_or_ge m s.created.length with hlt | hge
      · rcases h.placed hlt with hl | ⟨t', id', g', hd⟩ | hrest
        · cases hl
        · exact (hs.alone _ ⟨_, _, hd, rfl⟩).elim
        · exact .inr (.inr hrest)
      · obtain rfl : m = s.created.length := by omega
        exact .inr (.inl ⟨t, id, g, by simp [HostSession.suspend]⟩)
    dialing_apart := fun hx => by
      rcases hcalls hx with ⟨-, hd⟩ | ⟨-, hc⟩
      · cases hd
        exact ⟨fun hm => Nat.lt_irrefl _ (h.shutdown_lt hm), by simp⟩
      · exact (hs.alone _ ⟨_, _, hc, rfl⟩).elim }

/-! ## Events -/

theorem OwnInv.new : OwnInv none {} := by
  constructor <;> simp [InFlight]

theorem OwnInv.step (h : OwnInv none s) (hs : NativeHost.step s e = some s') : OwnInv none s' := by
  have hnext : OwnInv none { s with nextCall := s.nextCall + 1 } :=
    { h with call_lt := fun hc => Nat.lt_succ_of_lt (h.call_lt hc) }
  have hfree : s.calls s.nextCall = none := by
    by_contra hc
    exact Nat.lt_irrefl _ (h.call_lt hc)
  have hlt : s.nextCall < s.nextCall + 1 := Nat.lt_succ_self _
  rcases step_cases hs with ⟨⟨id, request⟩, route, rfl, rfl⟩ | ⟨rfl, rfl⟩ | ⟨g, st, rfl, rfl⟩ |
    ⟨t, c, -, hc, hr⟩
  · unfold HostSession.handle
    cases request
    case hello protocol channel =>
      simp only
      unfold HostSession.hello
      split
      · split
        · exact hnext.frame rfl
        · split <;> exact hnext.frame rfl
        · exact hnext.frame rfl
      · exact hnext.frame rfl
    case status => exact hnext.send
    case connect => exact hnext.connect hlt
    case disconnect => exact hnext.disconnect hfree hlt
    case exits =>
      exact OwnInv.suspend (s := { s with nextCall := s.nextCall + 1, backend := _ })
        (hnext.frame rfl) hfree hlt rfl
    case account =>
      exact OwnInv.suspend (s := { s with nextCall := s.nextCall + 1, backend := _ })
        (hnext.frame rfl) hfree hlt rfl
    case refused => exact hnext.send
  · exact hnext.close hfree hlt
  · unfold HostSession.stateSink
    split
    · exact h
    · exact h.frame rfl
  · have hw := h.wake hc
    cases hr with
    | created => exact hw.tunnelCreated (h.settling hc rfl)
    | dialed => exact hw.dialed (h.settling hc rfl)
    | discarded => exact hw.send
    | disconnected => exact hw.send
    | closed => exact hw
    | listed => exact hw.send
    | expiry => exact hw.send

/-! ## A `connect` that was cancelled -/

/-- `s'` comes from `s` by parts that leave the call `t`, its tunnel and its answers alone. -/
structure Apart (t : Nat) (s s' : HostSession) : Prop where
  calls : s'.calls t = s.calls t
  nextCall : s.nextCall ≤ s'.nextCall
  generation : s.inner.generation ≤ s'.inner.generation
  closed : s.inner.closed = true → s'.inner.closed = true
  outbox : ∀ {m}, (some t, m) ∈ s'.outbox ↔ (some t, m) ∈ s.outbox
  created : ∀ {n : Nat}, s'.created[n]? = some t → s.created[n]? = some t
  tunnel : ∀ {n : Nat}, s'.inner.tunnel = some n → s.created[n]? = some t → s.inner.tunnel = some n

theorem Apart.refl : Apart t s s where
  calls := rfl
  nextCall := Nat.le_refl _
  generation := Nat.le_refl _
  closed h := h
  outbox := .rfl
  created h := h
  tunnel h _ := h

theorem Apart.trans (h : Apart t s u) (h' : Apart t u v) (hc : u.created = s.created) :
    Apart t s v where
  calls := h'.calls.trans h.calls
  nextCall := Nat.le_trans h.nextCall h'.nextCall
  generation := Nat.le_trans h.generation h'.generation
  closed := h'.closed ∘ h.closed
  outbox := h'.outbox.trans h.outbox
  created hn := h.created (h'.created hn)
  tunnel hn hc' := h.tunnel (h'.tunnel hn (hc ▸ hc')) hc'

theorem Apart.send (h : Apart t s s') (hne : t' ≠ t) : Apart t s (s'.send t' m) :=
  { h with
    outbox := by
      intro m'
      refine Iff.trans ?_ h.outbox
      simp [HostSession.send, hne.symm] }

theorem Apart.suspend (h : Apart t s s') (hne : t' ≠ t) : Apart t s (s'.suspend t' c) :=
  { h with calls := by simpa [HostSession.suspend, hne.symm] using h.calls }

theorem Apart.shutdown (h : Apart t s s') (hne : t' ≠ t) :
    Apart t s (s'.shutdown t' n c) := by
  have h' : Apart t s { s' with shutdowns := s'.shutdowns ++ [n] } := { h with }
  exact h'.suspend hne

/-- The session may be changed under the lock, if the generation does not fall, a closed session
stays closed and no tunnel of `t` is stored. -/
theorem Apart.setInner {inner : Inner} (hg : s.inner.generation ≤ inner.generation)
    (hcl : s.inner.closed = true → inner.closed = true)
    (ht : ∀ n : Nat, inner.tunnel = some n → s.created[n]? = some t → s.inner.tunnel = some n) :
    Apart t s { s with inner } :=
  { Apart.refl with
    generation := hg
    closed := hcl
    tunnel := fun hn hc => ht _ hn hc }

theorem Apart.wake (hne : t' ≠ t) : Apart t s (s.wake t') :=
  { Apart.refl with calls := by simp [HostSession.wake, hne.symm] }

theorem Apart.answerConnect {discard : Option Nat} (h : Apart t s s') (hne : t' ≠ t) :
    Apart t s (s'.answerConnect t' discard m) := by
  cases discard with
  | none => exact h.send hne
  | some n => exact h.shutdown hne

theorem Apart.settle (hne : t' ≠ t)
    (hn : ∀ n l, outcome = .ok (n, l) → s.created[n]? ≠ some t) :
    Apart t s (s.settle t' id g outcome) := by
  unfold HostSession.settle
  simp only
  split
  · split
    · refine Apart.answerConnect (Apart.setInner (Nat.le_refl _) (fun h => h) ?_) hne
      rintro m ⟨⟩ hc
      exact absurd hc (hn _ _ rfl)
    · refine Apart.answerConnect (Apart.setInner (Nat.le_refl _) (fun h => h) ?_) hne
      exact fun _ h _ => h
  · refine Apart.answerConnect (Apart.setInner ?_ ?_ ?_) hne
    · split
      · exact Nat.le_succ _
      · exact Nat.le_refl _
    · intro h
      split <;> exact h
    · intro n h _
      split at h <;> exact h

theorem Apart.teardown : Apart t s s.teardown.2 :=
  Apart.setInner (Nat.le_succ _) (fun h => h) fun _ h _ => by cases h

/-- The handles of other requests leave `t` alone. -/
theorem Apart.handle (hne : t' ≠ t) : Apart t s (s.handle t' envelope route) := by
  obtain ⟨id, request⟩ := envelope
  unfold HostSession.handle
  cases request
  case hello =>
    simp only
    unfold HostSession.hello
    split
    · split
      · exact Apart.send (Apart.setInner (Nat.le_refl _) (fun h => h) fun _ h _ => h) hne
      · split
        · exact Apart.send (Apart.setInner (Nat.le_refl _) (fun h => h) fun _ h _ => h) hne
        · exact Apart.refl.send hne
      · exact Apart.refl.send hne
    · exact Apart.refl.send hne
  case status => exact Apart.refl.send hne
  case connect request =>
    simp only
    unfold HostSession.connect
    split
    · exact Apart.refl.send hne
    · split
      · exact Apart.refl.send hne
      · refine Apart.suspend ?_ hne
        exact { Apart.refl (s := s) with generation := Nat.le_succ _ }
  case disconnect =>
    simp only
    unfold HostSession.disconnect
    split
    · next hs => exact (hs ▸ Apart.teardown (s := s)).shutdown hne
    · next hs => exact (hs ▸ Apart.teardown (s := s)).send hne
  case exits => exact Apart.suspend { Apart.refl (s := s) with } hne
  case account => exact Apart.suspend { Apart.refl (s := s) with } hne
  case refused => exact Apart.refl.send hne

theorem Apart.close (hne : t' ≠ t) : Apart t s (s.close t') := by
  have h : Apart t s { s with inner := { s.inner with closed := true } }.teardown.2 :=
    Apart.setInner (Nat.le_succ _) (fun _ => rfl) fun _ h _ => by cases h
  unfold HostSession.close
  split
  · next hs => rw [hs] at h; exact h.shutdown hne
  · next hs => rw [hs] at h; exact h

theorem Apart.dialed (hne : t' ≠ t) (hn : s.created[n]? ≠ some t) :
    Apart t s (s.dialed t' id g n r) := by
  refine Apart.settle hne ?_
  rintro m l hout
  cases r with
  | error e => cases hout
  | ok l' =>
    simp only at hout
    split at hout <;> cases hout
    exact hn

theorem Apart.tunnelCreated (hne : t' ≠ t) : Apart t s (s.tunnelCreated t' id g options r) := by
  unfold HostSession.tunnelCreated
  split
  · exact Apart.settle hne fun _ _ h => by cases h
  · refine Apart.suspend ?_ hne
    exact { Apart.refl (s := s) with
      created := fun {n} hc => by
        rcases Nat.lt_or_ge n s.created.length with hlt | hge
        · rwa [List.getElem?_append_left hlt] at hc
        · rw [List.getElem?_append_right hge] at hc
          rcases Nat.eq_zero_or_pos (n - s.created.length) with h0 | hpos
          · rw [h0] at hc
            cases hc
            exact absurd rfl hne
          · rw [List.getElem?_eq_none (by simpa [Nat.one_le_iff_ne_zero] using hpos.ne')] at hc
            cases hc }

/-- An event leaves every call alone but the one it is a part of. -/
theorem Apart.step (ho : OwnInv none s) (hs : NativeHost.step s e = some s')
    (hne : s.actor e ≠ some t) : Apart t s s' := by
  have hnext : Apart t s { s with nextCall := s.nextCall + 1 } :=
    { Apart.refl (s := s) with nextCall := Nat.le_succ _ }
  rcases step_cases hs with ⟨envelope, route, rfl, rfl⟩ | ⟨rfl, rfl⟩ | ⟨g, st, rfl, rfl⟩ |
    ⟨t', c, hact, hc, hr⟩
  · exact hnext.trans (.handle fun he => hne (congrArg some he)) rfl
  · exact hnext.trans (.close fun he => hne (congrArg some he)) rfl
  · unfold HostSession.stateSink
    split
    · exact .refl
    · exact { Apart.refl (s := s) with outbox := by simp }
  · have hne' : t' ≠ t := fun he => hne (hact.trans (congrArg some he))
    have hw : Apart t s (s.wake t') := .wake hne'
    cases hr with
    | created => exact hw.trans (.tunnelCreated hne') rfl
    | dialed =>
      refine hw.trans (.dialed hne' fun hn => hne' ?_) rfl
      exact Option.some.inj ((ho.owner hc).symm.trans hn)
    | discarded => exact hw.send hne'
    | disconnected => exact hw.send hne'
    | closed => exact hw
    | listed => exact hw.send hne'
    | expiry => exact hw.send hne'

/-- A `connect` whose generation was advanced: it stores no tunnel and answers with an error. -/
structure Cancelled (s : HostSession) (t : Nat) : Prop where
  lt : t < s.nextCall
  stale : ∀ {c g}, s.calls t = some c → c.generation? = some g → g < s.inner.generation
  finishing : ∀ {c}, s.calls t = some c → c.generation? = none →
    ∃ m, c = .discarding m ∧ m.isError = true
  built : ∀ {n : Nat}, s.created[n]? = some t → s.inner.tunnel ≠ some n
  answers : ∀ {m}, (some t, m) ∈ s.outbox → m.isError = true
  answered : s.calls t = none → ∃ m, (some t, m) ∈ s.outbox

theorem Cancelled.apart (h : Cancelled s t) (ha : Apart t s s') : Cancelled s' t where
  lt := Nat.lt_of_lt_of_le h.lt ha.nextCall
  stale hc hg := Nat.lt_of_lt_of_le (h.stale (ha.calls ▸ hc) hg) ha.generation
  finishing hc := h.finishing (ha.calls ▸ hc)
  built hc hn := h.built (ha.created hc) (ha.tunnel hn (ha.created hc))
  answers hm := h.answers (ha.outbox.mp hm)
  answered hc := (h.answered (ha.calls ▸ hc)).imp fun _ => ha.outbox.mpr

/-- A cancelled `connect` that is woken. -/
structure CancelledNow (s : HostSession) (t : Nat) : Prop where
  lt : t < s.nextCall
  free : s.calls t = none
  built : ∀ {n : Nat}, s.created[n]? = some t → s.inner.tunnel ≠ some n
  answers : ∀ {m}, (some t, m) ∈ s.outbox → m.isError = true

theorem Cancelled.wake (h : Cancelled s t) : CancelledNow (s.wake t) t where
  lt := h.lt
  free := by simp [HostSession.wake]
  built := h.built
  answers := h.answers

theorem CancelledNow.send (h : CancelledNow s t) (hm : m.isError = true) :
    Cancelled (s.send t m) t where
  lt := h.lt
  stale hc := by cases h.free.symm.trans hc
  finishing hc := by cases h.free.symm.trans hc
  built := h.built
  answers hm' := by
    simp only [HostSession.send, List.mem_append, List.mem_singleton, Prod.mk.injEq] at hm'
    rcases hm' with hm' | ⟨-, rfl⟩
    · exact h.answers hm'
    · exact hm
  answered _ := ⟨m, by simp [HostSession.send]⟩

theorem CancelledNow.answerConnect {inner : Inner} {discard : Option Nat} (h : CancelledNow s t)
    (hm : m.isError = true) (ht : inner.tunnel = s.inner.tunnel) :
    Cancelled ({ s with inner }.answerConnect t discard m) t := by
  have h' : CancelledNow { s with inner } t := { h with built := fun hc => ht ▸ h.built hc }
  cases discard with
  | none => exact h'.send hm
  | some n =>
    have hcalls {c} (hc : (HostSession.shutdown t n (.discarding m) { s with inner }).calls t =
        some c) : c = .discarding m := by
      simpa [HostSession.shutdown, HostSession.suspend, eq_comm] using hc
    exact {
      lt := h'.lt
      stale := fun hc hg => by rw [hcalls hc] at hg; cases hg
      finishing := fun hc _ => ⟨m, hcalls hc, hm⟩
      built := h'.built
      answers := h'.answers
      answered := fun hc => by
        simp [HostSession.answerConnect, HostSession.shutdown, HostSession.suspend] at hc }

/-- Whatever becomes of its dial, a `connect` under another generation stores nothing. -/
theorem CancelledNow.settle (h : CancelledNow s t) (hg : g < s.inner.generation) :
    Cancelled (s.settle t id g outcome) t := by
  have hcur : s.inner.generation ≠ g := Nat.ne_of_gt hg
  unfold HostSession.settle
  simp only [if_neg hcur]
  split
  · exact h.answerConnect rfl rfl
  · exact h.answerConnect rfl rfl

theorem Cancelled.tunnelCreated (ho : OwnInv none s) (h : Cancelled s t)
    (hc : s.calls t = some (.creating id g options)) :
    Cancelled ((s.wake t).tunnelCreated t id g options r) t := by
  have hg := h.stale hc rfl
  unfold HostSession.tunnelCreated
  split
  · exact h.wake.settle hg
  · have hcalls {c} (hx : (HostSession.suspend t (.dialing id g (s.wake t).created.length)
        { s.wake t with
          created := (s.wake t).created ++ [t]
          backend := (s.wake t).backend ++
            [BackendCall.connect (s.wake t).created.length options] }).calls t = some c) :
        c = .dialing id g (s.wake t).created.length := by
      simpa [HostSession.suspend, eq_comm] using hx
    exact {
      lt := h.lt
      stale := fun hx hg' => by
        rw [hcalls hx] at hg'
        cases hg'
        exact hg
      finishing := fun hx hn => by
        rw [hcalls hx] at hn
        cases hn
      built := fun {n} hn hs => by
        have hlt : n < s.created.length := ho.stored_lt hs
        rw [show (HostSession.suspend t _ _).created = s.created ++ [t] from rfl,
          List.getElem?_append_left hlt] at hn
        exact h.built hn hs
      answers := h.answers
      answered := fun hx => by simp [HostSession.suspend] at hx }

theorem Cancelled.step (ho : OwnInv none s) (h : Cancelled s t)
    (hs : NativeHost.step s e = some s') : Cancelled s' t := by
  by_cases hact : s.actor e = some t
  · have hdone {c} (hc : s.calls t = some c) (hg : c.generation? = none)
        (hne : ∀ m, c ≠ .discarding m) : False := by
      obtain ⟨m, hm, -⟩ := h.finishing hc hg
      exact hne m hm
    have hfresh : s.nextCall ≠ t := Nat.ne_of_gt h.lt
    rcases step_cases hs with ⟨envelope, route, rfl, rfl⟩ | ⟨rfl, rfl⟩ | ⟨g, st, rfl, rfl⟩ |
      ⟨t', c, hact', hc, hr⟩
    · exact absurd (Option.some.inj hact) hfresh
    · exact absurd (Option.some.inj hact) hfresh
    · cases hact
    · cases hact'.symm.trans hact
      cases hr with
      | created => exact h.tunnelCreated ho hc
      | dialed => exact h.wake.settle (h.stale hc rfl)
      | discarded =>
        obtain ⟨m, hm, herr⟩ := h.finishing hc rfl
        cases hm
        exact h.wake.send herr
      | disconnected => exact (hdone hc rfl fun m hm => by cases hm).elim
      | closed => exact (hdone hc rfl fun m hm => by cases hm).elim
      | listed => exact (hdone hc rfl fun m hm => by cases hm).elim
      | expiry => exact (hdone hc rfl fun m hm => by cases hm).elim
  · exact h.apart (.step ho hs hact)

/-! ## Answers -/

/-- The running call `t` has not been answered. -/
structure Mute (s : HostSession) (t : Nat) : Prop where
  free : s.calls t = none
  quiet : ∀ m, (some t, m) ∉ s.outbox

/-- The call `t` is over, or it has not been answered. -/
def Unanswered (s : HostSession) (t : Nat) : Prop :=
  s.calls t = none ∨ ∀ m, (some t, m) ∉ s.outbox

theorem Mute.send (h : Mute s t) : Unanswered (s.send t m) t := .inl h.free

theorem Mute.suspend (h : Mute s t) : Unanswered (s.suspend t c) t := .inr h.quiet

theorem Mute.answerConnect {inner : Inner} {discard : Option Nat} (h : Mute s t) :
    Unanswered ({ s with inner }.answerConnect t discard m) t := by
  cases discard with
  | none => exact .inl h.free
  | some n => exact .inr h.quiet

theorem Mute.settle (h : Mute s t) : Unanswered (s.settle t id g outcome) t := by
  unfold HostSession.settle
  simp only
  split
  · split
    · exact h.answerConnect
    · exact h.answerConnect
  · exact h.answerConnect

theorem Mute.handle (h : Mute s t) : Unanswered (s.handle t envelope route) t := by
  obtain ⟨id, request⟩ := envelope
  unfold HostSession.handle
  cases request
  case hello =>
    simp only
    unfold HostSession.hello
    split
    · split
      · exact .inl h.free
      · split <;> exact .inl h.free
      · exact .inl h.free
    · exact .inl h.free
  case status => exact h.send
  case connect =>
    simp only
    unfold HostSession.connect
    split
    · exact h.send
    · split
      · exact h.send
      · exact .inr h.quiet
  case disconnect =>
    simp only
    unfold HostSession.disconnect HostSession.teardown
    cases s.inner.tunnel with
    | none => exact .inl h.free
    | some n => exact .inr h.quiet
  case exits => exact .inr h.quiet
  case account => exact .inr h.quiet
  case refused => exact h.send

theorem Mute.close (h : Mute s t) : Unanswered (s.close t) t := by
  unfold HostSession.close HostSession.teardown
  simp only
  cases s.inner.tunnel with
  | none => exact .inl h.free
  | some n => exact .inr h.quiet

structure QuietInv (s : HostSession) : Prop where
  suspended : ∀ t, s.Unanswered t
  fresh : ∀ {t m}, s.nextCall ≤ t → (some t, m) ∉ s.outbox

theorem QuietInv.new : QuietInv {} where
  suspended _ := .inl rfl
  fresh _ := by simp

theorem Unanswered.apart (h : Unanswered s t) (ha : Apart t s s') : Unanswered s' t :=
  h.imp ha.calls.trans fun hq m hm => hq m (ha.outbox.mp hm)

theorem QuietInv.step (ho : OwnInv none s) (h : QuietInv s)
    (hs : NativeHost.step s e = some s') : QuietInv s' := by
  have hmute : Mute { s with nextCall := s.nextCall + 1 } s.nextCall :=
    { free := by
        by_contra hc
        exact Nat.lt_irrefl _ (ho.call_lt hc)
      quiet := fun m => h.fresh (Nat.le_refl _) }
  have hwake {t' c} (hc : s.calls t' = some c) : Mute (s.wake t') t' :=
    { free := by simp [HostSession.wake]
      quiet := (h.suspended t').resolve_left (by rw [hc]; simp) }
  have hself {t'} (hact : s.actor e = some t') : t' < s'.nextCall ∧ Unanswered s' t' := by
    rcases step_cases hs with ⟨envelope, route, rfl, rfl⟩ | ⟨rfl, rfl⟩ | ⟨g, st, rfl, rfl⟩ |
      ⟨t', c, hact', hc, hr⟩
    · cases hact
      exact ⟨(Apart.handle (t := s.nextCall + 1) (s := { s with nextCall := s.nextCall + 1 })
        (Nat.ne_of_lt (Nat.lt_succ_self _))).nextCall, hmute.handle⟩
    · cases hact
      exact ⟨(Apart.close (t := s.nextCall + 1) (s := { s with nextCall := s.nextCall + 1 })
        (Nat.ne_of_lt (Nat.lt_succ_self _))).nextCall, hmute.close⟩
    · cases hact
    · cases hact'.symm.trans hact
      have hlt : t' < s.nextCall := ho.call_lt (by rw [hc]; simp)
      have hm := hwake hc
      refine ⟨Nat.lt_of_lt_of_le hlt
        (Apart.step (t := s.nextCall) ho hs fun he => ?_).nextCall, ?_⟩
      · rw [hact] at he
        exact Nat.ne_of_lt hlt (Option.some.inj he)
      · cases hr with
        | @created _ _ _ r =>
          unfold HostSession.tunnelCreated
          split
          · exact hm.settle
          · exact .inr hm.quiet
        | dialed => exact hm.settle
        | discarded => exact hm.send
        | disconnected => exact hm.send
        | closed => exact .inl hm.free
        | listed => exact hm.send
        | expiry => exact hm.send
  constructor
  · intro t'
    by_cases hact : s.actor e = some t'
    · exact (hself hact).2
    · exact (h.suspended t').apart (.step ho hs hact)
  · intro t' m hle hm
    by_cases hact : s.actor e = some t'
    · exact Nat.not_lt.mpr hle (hself hact).1
    · have ha := Apart.step ho hs hact
      exact h.fresh (Nat.le_trans ha.nextCall hle) (ha.outbox.mp hm)

theorem disconnect_inner : (s.disconnect t id).inner = s.teardown.2.inner := by
  unfold HostSession.disconnect
  split
  · next heq => rw [heq]; rfl
  · next heq => rw [heq]; rfl

theorem close_inner :
    (s.close t).inner = { s with inner := { s.inner with closed := true } }.teardown.2.inner := by
  unfold HostSession.close
  split
  · next heq => rw [heq]; rfl
  · next heq => rw [heq]

/-- A disconnect and the end of the connection advance the generation and store nothing. -/
theorem step_cancels (hc : e.cancels = true) (hs : NativeHost.step s e = some s') :
    s.actor e = some s.nextCall ∧ s'.inner.generation = s.inner.generation + 1 ∧
      s'.inner.tunnel = none := by
  cases e with
  | handle envelope route =>
    obtain ⟨id, request⟩ := envelope
    cases request with
    | disconnect =>
      cases hs
      simp only [HostSession.handle, disconnect_inner]
      exact ⟨rfl, rfl, rfl⟩
    | hello | status | connect | exits | account | refused => cases hc
  | close =>
    cases hs
    rw [close_inner]
    exact ⟨rfl, rfl, rfl⟩
  | created | dialed | shutDown | listed | expiry | state => cases hc

/-- A disconnect, or the end of the connection, cancels the `connect` in flight. -/
theorem Cancelled.of_cancels (ho : OwnInv none s) (h : QuietInv s) (ht : s.InFlight t)
    (hc : e.cancels = true) (hs : NativeHost.step s e = some s') : Cancelled s' t := by
  obtain ⟨c, g, hct, hg⟩ := ht
  have hlt : t < s.nextCall := ho.call_lt (by rw [hct]; simp)
  have hquiet : ∀ m, (some t, m) ∉ s.outbox := (h.suspended t).resolve_left (by rw [hct]; simp)
  obtain ⟨hact, hgen, htun⟩ := step_cancels hc hs
  have ha : Apart t s s' := by
    refine .step ho hs fun he => ?_
    rw [hact] at he
    exact Nat.ne_of_gt hlt (Option.some.inj he)
  exact {
    lt := Nat.lt_of_lt_of_le hlt ha.nextCall
    stale := fun hc' hg' => by
      rw [ha.calls] at hc'
      exact hgen ▸ Nat.lt_succ_of_le (ho.connecting hc' hg').2
    finishing := fun hc' hg' => by
      rw [ha.calls, hct] at hc'
      cases hc'
      cases hg.symm.trans hg'
    built := fun _ hn => by
      rw [htun] at hn
      cases hn
    answers := fun hm => absurd (ha.outbox.mp hm) (hquiet _)
    answered := fun hc' => by
      rw [ha.calls, hct] at hc'
      cases hc' }

theorem Cancelled.run {ok : HostSession → Event → Prop} (ho : OwnInv none s) (h : Cancelled s t)
    (hr : Run NativeHost.step ok s s') : Cancelled s' t :=
  (hr.invariant (I := fun s => OwnInv none s ∧ Cancelled s t)
    (fun hi _ hs => ⟨hi.1.step hs, hi.2.step hi.1 hs⟩) ⟨ho, h⟩).2

/-! ## The end of the connection -/

/-- A closed session stays closed. -/
theorem closed_step (ho : OwnInv none s) (hs : NativeHost.step s e = some s')
    (h : s.inner.closed = true) : s'.inner.closed = true := by
  refine (Apart.step (t := s.nextCall + 1) ho hs fun hact => ?_).closed h
  rcases step_cases hs with ⟨envelope, route, rfl, rfl⟩ | ⟨rfl, rfl⟩ | ⟨g, st, rfl, rfl⟩ |
    ⟨t', c, hact', hc, -⟩
  · exact Nat.ne_of_lt (Nat.lt_succ_self _) (Option.some.inj hact)
  · exact Nat.ne_of_lt (Nat.lt_succ_self _) (Option.some.inj hact)
  · cases hact
  · cases hact'.symm.trans hact
    exact absurd (ho.call_lt (by rw [hc]; simp)) (Nat.not_lt.mpr (Nat.le_succ _))

theorem closed_close (s : HostSession) (t : Nat) : (s.close t).inner.closed = true := by
  rw [close_inner]
  rfl

/-- After the end of the connection no tunnel is stored. -/
theorem tunnel_of_closed {ok : HostSession → Event → Prop} (ho : OwnInv none s)
    (h : s.inner.closed = true) (hr : Run NativeHost.step ok s s') : s'.inner.tunnel = none := by
  have hi := hr.invariant (I := fun s => OwnInv none s ∧ s.inner.closed = true)
    (fun hi _ hs => ⟨hi.1.step hs, closed_step hi.1 hs hi.2⟩) ⟨ho, h⟩
  exact hi.1.closed hi.2

/-! ## Every run -/

theorem reachable {ok : HostSession → Event → Prop} (h : Run NativeHost.step ok {} s) :
    OwnInv none s ∧ QuietInv s :=
  h.invariant (I := fun s => OwnInv none s ∧ QuietInv s)
    (fun hi _ hs => ⟨hi.1.step hs, hi.2.step hi.1 hs⟩) ⟨.new, .new⟩

/-- The call `t` has stored no tunnel and answers with nothing but an error, and has answered when
it is over. -/
structure Refused (s : HostSession) (t : Nat) : Prop where
  stored : ∀ n : Nat, s.created[n]? = some t → s.inner.tunnel ≠ some n
  answers : ∀ m, (some t, m) ∈ s.outbox → m.isError = true
  answered : s.calls t = none → ∃ m, (some t, m) ∈ s.outbox

theorem Cancelled.refused (h : Cancelled s t) : Refused s t where
  stored _ := h.built
  answers _ := h.answers
  answered := h.answered

/-- What the session does with its tunnels: each is in one place and is shut down at most once, a
`connect` that a disconnect or the end of the connection overtakes stores none, and after the end of
the connection none is stored. -/
structure OwnsTunnels (s : HostSession) : Prop where
  place : ∀ n < s.created.length, ∃! p, s.At n p
  once : s.shutdowns.Nodup
  overtaken : ∀ {t e s₁ s₂}, s.InFlight t → e.cancels = true → NativeHost.step s e = some s₁ →
    Run NativeHost.step (fun _ _ => True) s₁ s₂ → s₂.Refused t
  ended : ∀ {s₁ s₂}, NativeHost.step s .close = some s₁ →
    Run NativeHost.step (fun _ _ => True) s₁ s₂ → s₂.inner.tunnel = none

/-- Whatever the order of requests, of backend completions and of state events. -/
theorem ownsTunnels (h : Run NativeHost.step (fun _ _ => True) {} s) : s.OwnsTunnels := by
  obtain ⟨ho, hq⟩ := reachable h
  refine ⟨fun n hn => ho.place hn, ho.nodup, ?_, ?_⟩
  · intro t e s₁ s₂ ht hc hs hr
    exact (Cancelled.run (ho.step hs) (.of_cancels ho hq ht hc hs) hr).refused
  · intro s₁ s₂ hs hr
    refine tunnel_of_closed (ho.step hs) ?_ hr
    cases hs
    exact closed_close _ _

/-- A tunnel is being dialed when a disconnect lands. -/
def overtakenConnect : List Event := [
  .handle ⟨.number 1, .connect { mnemonic := "m" }⟩ .own,
  .created 0 (.ok ()),
  .handle ⟨.number 2, .disconnect⟩ .own]

theorem ownsTunnels_overtakenConnect :
    ∃ s, exec NativeHost.step (fun _ _ => true) {} overtakenConnect = some s ∧
      s.created = [0] ∧ s.OwnsTunnels := by
  have hrun : ∃ s, exec NativeHost.step (fun _ _ => true) {} overtakenConnect = some s ∧
      s.created = [0] := ⟨_, rfl, rfl⟩
  obtain ⟨s, hs, hc⟩ := hrun
  exact ⟨s, hs, hc, ownsTunnels ((Run.of_exec hs).mono fun _ _ _ => trivial)⟩

end HostSession

end WarrenSdk.NativeHost
