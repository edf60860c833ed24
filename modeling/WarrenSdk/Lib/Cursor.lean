import WarrenSdk.Lib.Bytes

/-!
# Reading octets from the front

A reader takes what it reads off the front of the octets that are left, or fails. What is read of
fixed length is told by its length and what is behind it.
-/

namespace WarrenSdk.Lib

/-- What is read and the octets left, or an error. -/
abbrev Cursor (ε α : Type) := StateT Bytes (Except ε) α

namespace Cursor

variable {ε α β : Type}

theorem pure_eq_ok {a b : α} {bs rest : Bytes} :
    (pure a : Cursor ε α) bs = .ok (b, rest) ↔ a = b ∧ bs = rest := by
  constructor
  · intro h
    cases h
    exact ⟨rfl, rfl⟩
  · rintro ⟨rfl, rfl⟩
    rfl

theorem bind_eq_ok {p : Cursor ε α} {f : α → Cursor ε β} {bs : Bytes} {r : β × Bytes} :
    (p >>= f) bs = .ok r ↔ ∃ a rest, p bs = .ok (a, rest) ∧ f a rest = .ok r := by
  change (p bs).bind (fun x => f x.1 x.2) = .ok r ↔ _
  cases p bs with
  | error e => simp [Except.bind]
  | ok x =>
    obtain ⟨a, rest⟩ := x
    simp [Except.bind]

/-- The next `n` octets. -/
def slice (n : Nat) (e : ε) : Cursor ε Bytes := fun bs =>
  if bs.length < n then .error e else .ok (bs.take n, bs.drop n)

@[simp] theorem slice_eq_ok {n : Nat} {e : ε} {bs rest x : Bytes} :
    slice n e bs = .ok (x, rest) ↔ bs = x ++ rest ∧ x.length = n := by
  constructor
  · intro h
    unfold slice at h
    split at h
    · cases h
    · next hlen =>
      cases h
      exact ⟨(List.take_append_drop n bs).symm, by rw [List.length_take]; omega⟩
  · rintro ⟨rfl, rfl⟩
    unfold slice
    rw [if_neg (by simp), List.take_left, List.drop_left]

/-- Nothing is left. -/
def finish (e : ε) : Cursor ε Unit := fun bs => if bs = [] then .ok ((), []) else .error e

@[simp] theorem finish_eq_ok {e : ε} {bs rest : Bytes} :
    finish e bs = .ok ((), rest) ↔ bs = [] ∧ rest = [] := by
  constructor
  · intro h
    unfold finish at h
    split at h
    · next hbs =>
      cases h
      exact ⟨hbs, rfl⟩
    · cases h
  · rintro ⟨rfl, rfl⟩
    rfl

/-- The whole of `bs` is read. -/
def all (p : Cursor ε α) (bs : Bytes) : Except ε α := (p bs).map (·.1)

theorem all_eq_ok {p : Cursor ε α} {bs : Bytes} {a : α} :
    p.all bs = .ok a ↔ ∃ rest, p bs = .ok (a, rest) := by
  unfold all
  cases p bs with
  | error e => simp [Except.map]
  | ok x =>
    obtain ⟨b, rest⟩ := x
    simp [Except.map]

/-! ## What a reader waits for -/

/-- `p` takes `x` from the front of any octets; with a part of it only, it fails as `short` says. -/
structure Takes (short : ε → Prop) (p : Cursor ε α) (x : Bytes) (a : α) : Prop where
  takes : ∀ rest, p (x ++ rest) = .ok (a, rest)
  waits : ∀ y, y <+: x → y ≠ x → ∃ e, p y = .error e ∧ short e

/-- `p` takes `x` where nothing stands behind it; with a part of it only, it fails as `short`
says. -/
structure Ends (short : ε → Prop) (p : Cursor ε α) (x : Bytes) (a : α) : Prop where
  takes : p x = .ok (a, [])
  waits : ∀ y, y <+: x → y ≠ x → ∃ e, p y = .error e ∧ short e

variable {short : ε → Prop} {p : Cursor ε α} {f : α → Cursor ε β} {x y : Bytes} {a : α} {b : β}

theorem bind_error {bs : Bytes} {e : ε} (h : p bs = .error e) : (p >>= f) bs = .error e := by
  change (p bs).bind (fun x => f x.1 x.2) = _
  rw [h]
  rfl

/-- A part of `x ++ y` is a part of `x`, or `x` with a part of `y`. -/
theorem prefix_append_cases {z : Bytes} (h : z <+: x ++ y) (hne : z ≠ x ++ y) :
    z <+: x ∧ z ≠ x ∨ ∃ w, z = x ++ w ∧ w <+: y ∧ w ≠ y := by
  obtain ⟨rest, hrest⟩ := h
  obtain ⟨w, rfl, hy⟩ | ⟨w, rfl, rfl⟩ := List.append_eq_append_iff.mp hrest
  · by_cases hw : w = []
    · subst hw
      refine .inr ⟨[], by simp, List.nil_prefix, ?_⟩
      rintro rfl
      exact hne (by simp)
    · refine .inl ⟨List.prefix_append z w, fun heq => hw ?_⟩
      exact List.append_cancel_left ((List.append_nil z).trans heq).symm
  · exact .inr ⟨w, rfl, List.prefix_append w rest, fun heq => hne (congrArg (x ++ ·) heq)⟩

theorem Takes.bind (hp : Takes short p x a) (hf : Takes short (f a) y b) :
    Takes short (p >>= f) (x ++ y) b where
  takes rest := by
    rw [List.append_assoc]
    exact bind_eq_ok.mpr ⟨a, y ++ rest, hp.takes _, hf.takes rest⟩
  waits z hz hne := by
    obtain ⟨hz, hne⟩ | ⟨w, rfl, hw, hne⟩ := prefix_append_cases hz hne
    · obtain ⟨e, he, hshort⟩ := hp.waits z hz hne
      exact ⟨e, bind_error he, hshort⟩
    · obtain ⟨e, he, hshort⟩ := hf.waits w hw hne
      refine ⟨e, ?_, hshort⟩
      change (p (x ++ w)).bind (fun x => f x.1 x.2) = _
      rw [hp.takes]
      exact he

theorem Takes.bind_ends (hp : Takes short p x a) (hf : Ends short (f a) y b) :
    Ends short (p >>= f) (x ++ y) b where
  takes := bind_eq_ok.mpr ⟨a, y, hp.takes y, hf.takes⟩
  waits z hz hne := by
    obtain ⟨hz, hne⟩ | ⟨w, rfl, hw, hne⟩ := prefix_append_cases hz hne
    · obtain ⟨e, he, hshort⟩ := hp.waits z hz hne
      exact ⟨e, bind_error he, hshort⟩
    · obtain ⟨e, he, hshort⟩ := hf.waits w hw hne
      refine ⟨e, ?_, hshort⟩
      change (p (x ++ w)).bind (fun x => f x.1 x.2) = _
      rw [hp.takes]
      exact he

theorem Ends.nil (h : p [] = .ok (a, [])) : Ends short p [] a where
  takes := h
  waits _ hy hne := absurd (List.prefix_nil.mp hy) hne

theorem Ends.all_waits (h : Ends short p x a) (hy : y <+: x) (hne : y ≠ x) :
    ∃ e, p.all y = .error e ∧ short e := by
  obtain ⟨e, he, hshort⟩ := h.waits y hy hne
  refine ⟨e, ?_, hshort⟩
  unfold all
  rw [he]
  rfl

theorem takes_pure (a : α) : Takes short (pure a : Cursor ε α) [] a where
  takes _ := rfl
  waits _ hy hne := absurd (List.prefix_nil.mp hy) hne

theorem Takes.map (hp : Takes short p x a) (g : α → β) :
    Takes short (p >>= fun a => pure (g a)) x (g a) := by
  have h := hp.bind (f := fun a => pure (g a)) (takes_pure (g a))
  rw [List.append_nil] at h
  exact h

theorem takes_slice {e : ε} (he : short e) (x : Bytes) : Takes short (slice x.length e) x x where
  takes rest := slice_eq_ok.mpr ⟨rfl, rfl⟩
  waits y hy hne := by
    have hlt : y.length < x.length := by
      refine Nat.lt_of_le_of_ne hy.length_le fun heq => hne ?_
      exact hy.eq_of_length heq
    exact ⟨e, if_pos hlt, he⟩

/-! ## What tells its own end -/

/-- What `p` takes, it takes from the front of any octets. -/
def Delimits (p : Cursor ε α) : Prop :=
  ∀ bs a rest, p bs = .ok (a, rest) → ∃ x, bs = x ++ rest ∧ ∀ rest', p (x ++ rest') = .ok (a, rest')

theorem delimits_pure (a : α) : Delimits (pure a : Cursor ε α) := by
  intro bs b rest h
  obtain ⟨rfl, rfl⟩ := pure_eq_ok.mp h
  exact ⟨[], rfl, fun rest' => rfl⟩

theorem delimits_throw (e : ε) : Delimits (throw e : Cursor ε α) := by
  intro bs a rest h
  cases h

theorem Delimits.bind (hp : Delimits p) (hf : ∀ a, Delimits (f a)) : Delimits (p >>= f) := by
  intro bs b rest h
  obtain ⟨a, left, hpa, hfb⟩ := bind_eq_ok.mp h
  obtain ⟨x, rfl, hx⟩ := hp _ _ _ hpa
  obtain ⟨y, rfl, hy⟩ := hf a _ _ _ hfb
  refine ⟨x ++ y, (List.append_assoc x y rest).symm, fun rest' => ?_⟩
  rw [List.append_assoc]
  exact bind_eq_ok.mpr ⟨a, y ++ rest', hx _, hy rest'⟩

theorem delimits_slice (n : Nat) (e : ε) : Delimits (slice n e) := by
  intro bs x rest h
  obtain ⟨rfl, hlen⟩ := slice_eq_ok.mp h
  exact ⟨x, rfl, fun rest' => slice_eq_ok.mpr ⟨rfl, hlen⟩⟩

/-- Where nothing is left behind what `p` takes, no longer octets of the same front are taken
whole. -/
theorem Delimits.eq_nil (hp : Delimits p) {bs ext : Bytes} (h : p bs = .ok (a, []))
    (hext : p (bs ++ ext) = .ok (c, [])) : ext = [] := by
  obtain ⟨x, hbs, hx⟩ := hp _ _ _ h
  rw [hbs, List.append_nil, hx] at hext
  cases hext
  rfl

end Cursor

end WarrenSdk.Lib
