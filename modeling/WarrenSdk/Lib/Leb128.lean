import Mathlib.Tactic.Ring
import WarrenSdk.Lib.Bytes

/-!
# Numbers in groups of seven bits (LEB128)

A number is written in groups of seven bits, the lowest first, one to an octet; every octet but the
last has its high bit set. `IsLeb` says that octets are one such number and `ofLeb` which. A number
has one shortest form, `toLeb`: the one whose last octet is not zero, unless it stands alone.
-/

namespace WarrenSdk.Lib

/-- The number that groups of seven bits stand for. -/
def ofLeb : Bytes → Nat
  | [] => 0
  | b :: bs => b.toNat % 128 + 128 * ofLeb bs

/-- The octets of one number: the last one, and no other, has its high bit clear. -/
def IsLeb : Bytes → Prop
  | [] => False
  | [b] => b.toNat < 128
  | b :: c :: bs => 128 ≤ b.toNat ∧ IsLeb (c :: bs)

def decIsLeb : (bs : Bytes) → Decidable (IsLeb bs)
  | [] => isFalse id
  | [b] => inferInstanceAs (Decidable (b.toNat < 128))
  | b :: c :: bs =>
    have := decIsLeb (c :: bs)
    inferInstanceAs (Decidable (128 ≤ b.toNat ∧ IsLeb (c :: bs)))

instance : DecidablePred IsLeb := decIsLeb

/-- The last octet is not zero, unless it is the only one. -/
def Shortest (bs : Bytes) : Prop := bs.length = 1 ∨ bs.getLast? ≠ some 0

instance : DecidablePred Shortest := fun bs =>
  inferInstanceAs (Decidable (bs.length = 1 ∨ bs.getLast? ≠ some 0))

/-- The shortest form of a number. -/
def toLeb (n : Nat) : Bytes :=
  if n < 128 then [UInt8.ofNat n] else UInt8.ofNat (n % 128 + 128) :: toLeb (n / 128)

theorem ofLeb_singleton (h : b.toNat < 128) : ofLeb [b] = b.toNat := by
  rw [ofLeb, ofLeb]
  omega

theorem toLeb_of_lt (h : n < 128) : toLeb n = [UInt8.ofNat n] := by
  rw [toLeb, if_pos h]

theorem toLeb_of_le (h : 128 ≤ n) :
    toLeb n = UInt8.ofNat (n % 128 + 128) :: toLeb (n / 128) := by
  rw [toLeb, if_neg (Nat.not_lt.mpr h)]

theorem toLeb_ne_nil (n : Nat) : toLeb n ≠ [] := by
  rw [toLeb]
  split <;> exact List.cons_ne_nil _ _

theorem isLeb_cons (h : 128 ≤ b.toNat) (hbs : IsLeb bs) : IsLeb (b :: bs) := by
  cases bs with
  | nil => exact hbs.elim
  | cons c bs => exact ⟨h, hbs⟩

theorem shortest_cons {bs : Bytes} (hbs : bs ≠ []) :
    Shortest (b :: bs) ↔ bs.getLast? ≠ some 0 := by
  cases bs with
  | nil => exact absurd rfl hbs
  | cons c bs => simp [Shortest]

/-- What the shortest form of a number ends with. -/
theorem getLast?_toLeb (h : 0 < n) : (toLeb n).getLast? ≠ some 0 := by
  induction n using toLeb.induct with
  | case1 n hlt =>
    rw [toLeb_of_lt hlt, List.getLast?_singleton]
    intro hlast
    have hz : (UInt8.ofNat n).toNat = 0 := congrArg UInt8.toNat (Option.some.inj hlast)
    rw [UInt8.toNat_ofNat'] at hz
    omega
  | case2 n hle ih =>
    rw [toLeb_of_le (Nat.not_lt.mp hle), List.getLast?_cons]
    have hne := ih (by omega)
    cases hlast : (toLeb (n / 128)).getLast? with
    | none => exact absurd (List.getLast?_eq_none_iff.mp hlast) (toLeb_ne_nil _)
    | some b =>
      rw [hlast] at hne
      exact hne

theorem shortest_toLeb (n : Nat) : Shortest (toLeb n) := by
  rcases Nat.eq_zero_or_pos n with rfl | hpos
  · exact .inl (by rw [toLeb_of_lt (by omega)]; rfl)
  · exact .inr (getLast?_toLeb hpos)

theorem isLeb_toLeb (n : Nat) : IsLeb (toLeb n) := by
  induction n using toLeb.induct with
  | case1 n hlt =>
    rw [toLeb_of_lt hlt]
    show (UInt8.ofNat n).toNat < 128
    rw [UInt8.toNat_ofNat']
    omega
  | case2 n hle ih =>
    rw [toLeb_of_le (Nat.not_lt.mp hle)]
    refine isLeb_cons ?_ ih
    rw [UInt8.toNat_ofNat']
    omega

theorem ofLeb_toLeb (n : Nat) : ofLeb (toLeb n) = n := by
  induction n using toLeb.induct with
  | case1 n hlt =>
    rw [toLeb_of_lt hlt, ofLeb, ofLeb, UInt8.toNat_ofNat']
    omega
  | case2 n hle ih =>
    rw [toLeb_of_le (Nat.not_lt.mp hle), ofLeb, ih, UInt8.toNat_ofNat']
    omega

theorem toLeb_inj (h : toLeb m = toLeb n) : m = n := by
  rw [← ofLeb_toLeb m, h, ofLeb_toLeb]

/-- A number of `k` groups is below `128 ^ k`, and the other way round for shortest forms. -/
theorem ofLeb_lt (bs : Bytes) : ofLeb bs < 128 ^ bs.length := by
  induction bs with
  | nil => exact Nat.one_pos
  | cons b bs ih =>
    have hb := Nat.mod_lt b.toNat (show 128 > 0 by decide)
    rw [ofLeb, List.length_cons, Nat.pow_succ]
    omega

theorem ofLeb_append (as bs : Bytes) :
    ofLeb (as ++ bs) = ofLeb as + ofLeb bs * 128 ^ as.length := by
  induction as with
  | nil => simp [ofLeb]
  | cons a as ih =>
    rw [List.cons_append, ofLeb, ih, ofLeb, List.length_cons, Nat.pow_succ]
    ring

theorem isLeb_iff {bs : Bytes} : IsLeb bs ↔ ∃ groups last, bs = groups ++ [last] ∧
    (∀ b ∈ groups, 128 ≤ b.toNat) ∧ last.toNat < 128 := by
  induction bs with
  | nil =>
    constructor
    · exact False.elim
    · intro ⟨groups, last, h, _⟩
      exact absurd h.symm (List.append_ne_nil_of_right_ne_nil groups (List.cons_ne_nil last []))
  | cons b bs ih =>
    cases bs with
    | nil =>
      constructor
      · intro h
        exact ⟨[], b, rfl, fun _ hb => (List.not_mem_nil hb).elim, h⟩
      · intro ⟨groups, last, h, _, hlast⟩
        cases groups with
        | nil =>
          obtain ⟨rfl, -⟩ := List.cons.inj h
          exact hlast
        | cons g groups =>
          exact absurd (List.cons.inj h).2.symm
            (List.append_ne_nil_of_right_ne_nil groups (List.cons_ne_nil last []))
    | cons c bs =>
      constructor
      · intro ⟨hb, htail⟩
        obtain ⟨groups, last, h, hgroups, hlast⟩ := ih.mp htail
        exact ⟨b :: groups, last, congrArg (b :: ·) h,
          List.forall_mem_cons.mpr ⟨hb, hgroups⟩, hlast⟩
      · intro ⟨groups, last, h, hgroups, hlast⟩
        cases groups with
        | nil => exact absurd (List.cons.inj h).2 (List.cons_ne_nil c bs)
        | cons g groups =>
          obtain ⟨rfl, htail⟩ := List.cons.inj h
          obtain ⟨hb, hgroups⟩ := List.forall_mem_cons.mp hgroups
          exact ⟨hb, ih.mpr ⟨groups, last, htail, hgroups, hlast⟩⟩

theorem length_toLeb_le (h : n < 128 ^ (k + 1)) : (toLeb n).length ≤ k + 1 := by
  induction k generalizing n with
  | zero =>
    rw [toLeb_of_lt (by simpa using h)]
    exact Nat.le_refl 1
  | succ k ih =>
    rcases Nat.lt_or_ge n 128 with hlt | hge
    · rw [toLeb_of_lt hlt]
      exact Nat.le_add_left 1 _
    · rw [toLeb_of_le hge, List.length_cons]
      have hdiv : n / 128 < 128 ^ (k + 1) := by
        rw [Nat.div_lt_iff_lt_mul (by decide), ← Nat.pow_succ]
        exact h
      exact Nat.succ_le_succ (ih hdiv)

theorem ofLeb_pos {bs : Bytes} (hbs : IsLeb bs) (h : bs.getLast? ≠ some 0) : 0 < ofLeb bs := by
  induction bs with
  | nil => exact hbs.elim
  | cons b bs ih =>
    cases bs with
    | nil =>
      have hb : b.toNat < 128 := hbs
      have hne : b.toNat ≠ 0 := by
        intro hz
        have hb0 : b = 0 := UInt8.toNat_inj.mp hz
        subst hb0
        exact h rfl
      rw [ofLeb, ofLeb]
      omega
    | cons c bs =>
      rw [List.getLast?_cons_cons] at h
      have hpos := ih hbs.2 h
      rw [ofLeb]
      omega

/-- Writing a number in its shortest form gives octets back exactly if they are that form. -/
theorem toLeb_ofLeb_iff {bs : Bytes} (hbs : IsLeb bs) : toLeb (ofLeb bs) = bs ↔ Shortest bs := by
  constructor
  · intro h
    rw [← h]
    exact shortest_toLeb _
  · intro hshort
    induction bs with
    | nil => exact hbs.elim
    | cons b bs ih =>
      have hb := b.toNat_lt
      cases bs with
      | nil =>
        have hlt : b.toNat < 128 := hbs
        rw [ofLeb_singleton hlt, toLeb_of_lt hlt, UInt8.ofNat_toNat]
      | cons c bs =>
        obtain ⟨hhigh, htail⟩ := hbs
        have hlast : (c :: bs).getLast? ≠ some 0 :=
          (shortest_cons (List.cons_ne_nil c bs)).mp hshort
        have hpos := ofLeb_pos htail hlast
        have hge : 128 ≤ ofLeb (b :: c :: bs) := by
          rw [ofLeb]
          omega
        have hdiv : ofLeb (b :: c :: bs) / 128 = ofLeb (c :: bs) := by
          rw [ofLeb]
          omega
        have hlow : UInt8.ofNat (ofLeb (b :: c :: bs) % 128 + 128) = b := by
          apply UInt8.toNat_inj.mp
          rw [UInt8.toNat_ofNat', ofLeb]
          omega
        rw [toLeb_of_le hge, hlow, hdiv, ih htail (.inr hlast)]

/-- One number behind which others stand is told apart from them. -/
theorem IsLeb.append_inj {as bs r r' : Bytes} (ha : IsLeb as) (hb : IsLeb bs)
    (h : as ++ r = bs ++ r') : as = bs ∧ r = r' := by
  induction as generalizing bs with
  | nil => exact ha.elim
  | cons a as ih =>
    cases bs with
    | nil => exact hb.elim
    | cons b bs =>
      obtain ⟨rfl, htail⟩ := List.cons.inj h
      cases as with
      | nil =>
        cases bs with
        | nil => exact ⟨rfl, htail⟩
        | cons c bs => exact absurd ha (Nat.not_lt.mpr hb.1)
      | cons c as =>
        cases bs with
        | nil => exact absurd hb (Nat.not_lt.mpr ha.1)
        | cons d bs =>
          obtain ⟨heq, rfl⟩ := ih ha.2 hb.2 htail
          exact ⟨congrArg (a :: ·) heq, rfl⟩

end WarrenSdk.Lib
