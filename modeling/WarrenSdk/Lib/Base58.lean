import Mathlib.Data.Nat.Digits.Lemmas
import WarrenSdk.Lib.Utf16

/-!
# Digit strings with leading zeros, and Base58

A string of digits is a count of leading zeros and a number, whatever the base. Taking both from one
base to another is a bijection between the strings of the two bases (`recode_recode`); Base58 is
this between base 256 and base 58.
-/

namespace WarrenSdk.Lib

namespace Radix

variable {b c : Nat}

/-- The leading zeros of digits, highest first, and the number they stand for. -/
def split (b : Nat) (ds : List Nat) : Nat × Nat :=
  ((ds.takeWhile (· = 0)).length, Nat.ofDigits b ds.reverse)

def join (b : Nat) (x : Nat × Nat) : List Nat := List.replicate x.1 0 ++ (Nat.digits b x.2).reverse

/-- The digits to base `c` of the leading zeros and the number of digits to base `b`. -/
def recode (b c : Nat) (ds : List Nat) : List Nat := join c (split b ds)

theorem head?_digits (n : Nat) : (Nat.digits b n).reverse.head? ≠ some 0 := by
  rw [List.head?_reverse]
  rcases Nat.eq_zero_or_pos n with rfl | hpos
  · simp
  · have hne : Nat.digits b n ≠ [] := Nat.digits_ne_nil_iff_ne_zero.mpr (by omega)
    rw [List.getLast?_eq_some_getLast hne]
    intro hlast
    exact Nat.getLast_digit_ne_zero b (by omega) (Option.some.inj hlast)

theorem takeWhile_replicate_append {n : Nat} {ds : List Nat} (h : ds.head? ≠ some 0) :
    (List.replicate n 0 ++ ds).takeWhile (· = 0) = List.replicate n 0 := by
  have hnil : ds.takeWhile (· = 0) = [] := by
    cases ds with
    | nil => rfl
    | cons d ds =>
      have hd : d ≠ 0 := fun hd => h (congrArg some hd)
      simp [hd]
  rw [List.takeWhile_append_of_pos (by simp), hnil, List.append_nil]

theorem split_join (x : Nat × Nat) : split b (join b x) = x := by
  have hzeros := takeWhile_replicate_append (n := x.1) (head?_digits (b := b) x.2)
  have hnumber : Nat.ofDigits b (join b x).reverse = x.2 := by
    rw [join, List.reverse_append, List.reverse_reverse, List.reverse_replicate,
      Nat.ofDigits_append_replicate_zero, Nat.ofDigits_digits]
  refine Prod.ext ?_ hnumber
  rw [split, join, hzeros]
  exact List.length_replicate

theorem eq_replicate_append (ds : List Nat) : ∃ n es, ds = List.replicate n 0 ++ es ∧
    es.head? ≠ some 0 := by
  induction ds with
  | nil => exact ⟨0, [], rfl, by simp⟩
  | cons d ds ih =>
    by_cases hd : d = 0
    · obtain ⟨n, es, rfl, hes⟩ := ih
      exact ⟨n + 1, es, by rw [hd, List.replicate_succ, List.cons_append], hes⟩
    · exact ⟨0, d :: ds, rfl, fun h => hd (Option.some.inj h)⟩

theorem join_split {ds : List Nat} (hb : 1 < b) (h : ∀ d ∈ ds, d < b) :
    join b (split b ds) = ds := by
  obtain ⟨n, es, rfl, hes⟩ := eq_replicate_append ds
  have hdigits : Nat.digits b (Nat.ofDigits b es.reverse) = es.reverse := by
    refine Nat.digits_ofDigits b hb _ (fun d hd => ?_) (fun hne hlast => ?_)
    · exact h d (List.mem_append_right _ (List.mem_reverse.mp hd))
    · rw [List.getLast_reverse] at hlast
      exact hes ((List.head?_eq_some_head _).trans (congrArg some hlast))
  rw [split, takeWhile_replicate_append hes, join, List.length_replicate, List.reverse_append,
    List.reverse_replicate, Nat.ofDigits_append_replicate_zero, hdigits, List.reverse_reverse]

theorem recode_recode {ds : List Nat} (hb : 1 < b) (h : ∀ d ∈ ds, d < b) :
    recode c b (recode b c ds) = ds := by
  rw [recode, recode, split_join, join_split hb h]

theorem recode_lt {ds : List Nat} (hc : 1 < c) : ∀ d ∈ recode b c ds, d < c := by
  intro d hd
  rcases List.mem_append.mp hd with hd | hd
  · rw [List.eq_of_mem_replicate hd]
    omega
  · exact Nat.digits_lt_base hc (List.mem_reverse.mp hd)

end Radix

/-! ## Base58 -/

def base58Alphabet : Utf16 := "123456789ABCDEFGHJKLMNPQRSTUVWXYZabcdefghijkmnopqrstuvwxyz"

def base58Digit (n : Nat) : UInt16 := base58Alphabet.getD n 0

def base58Value (u : UInt16) : Option Nat :=
  if u ∈ base58Alphabet then some (base58Alphabet.idxOf u) else none

def base58 (bytes : Bytes) : Utf16 := (Radix.recode 256 58 (bytes.map UInt8.toNat)).map base58Digit

def ofBase58 (s : Utf16) : Option Bytes :=
  (s.mapM base58Value).map fun digits => (Radix.recode 58 256 digits).map UInt8.ofNat

theorem base58Value_digit (h : n < 58) : base58Value (base58Digit n) = some n := by
  have hall : ∀ n < 58, base58Value (base58Digit n) = some n := by decide +kernel
  exact hall n h

theorem base58Value_eq_some (h : base58Value u = some n) : n < 58 ∧ base58Digit n = u := by
  unfold base58Value at h
  split at h
  · next hmem =>
    cases h
    have hlt := List.idxOf_lt_length_of_mem hmem
    have hlen : base58Alphabet.length = 58 := by decide +kernel
    refine ⟨hlen ▸ hlt, ?_⟩
    rw [base58Digit, List.getD_eq_getElem?_getD, List.getElem?_eq_getElem hlt, Option.getD_some]
    exact List.getElem_idxOf hlt
  · cases h

theorem mapM_base58Value {ds : List Nat} (h : ∀ d ∈ ds, d < 58) :
    (ds.map base58Digit).mapM base58Value = some ds := by
  induction ds with
  | nil => rfl
  | cons d ds ih =>
    rw [List.map_cons, List.mapM_cons, base58Value_digit (h d List.mem_cons_self),
      ih fun e he => h e (List.mem_cons_of_mem d he)]
    rfl

theorem mapM_base58Value_eq_some {s : Utf16} {ds : List Nat} (h : s.mapM base58Value = some ds) :
    (∀ d ∈ ds, d < 58) ∧ ds.map base58Digit = s := by
  induction s generalizing ds with
  | nil =>
    cases h
    exact ⟨by simp, rfl⟩
  | cons u s ih =>
    rw [List.mapM_cons] at h
    obtain ⟨d, hd, h⟩ := Option.bind_eq_some_iff.mp h
    obtain ⟨es, hes, h⟩ := Option.bind_eq_some_iff.mp h
    cases h
    obtain ⟨hlt, hu⟩ := base58Value_eq_some hd
    obtain ⟨hall, hs⟩ := ih hes
    exact ⟨List.forall_mem_cons.mpr ⟨hlt, hall⟩, by rw [List.map_cons, hu, hs]⟩

theorem map_ofNat_toNat (bytes : Bytes) : (bytes.map UInt8.toNat).map UInt8.ofNat = bytes := by
  rw [List.map_map]
  exact (List.map_congr_left fun b _ => UInt8.ofNat_toNat).trans (List.map_id _)

theorem map_toNat_ofNat {ds : List Nat} (h : ∀ d ∈ ds, d < 256) :
    (ds.map UInt8.ofNat).map UInt8.toNat = ds := by
  rw [List.map_map]
  refine (List.map_congr_left fun d hd => ?_).trans (List.map_id _)
  exact UInt8.toNat_ofNat_of_lt' (h d hd)

/-- Base58 is a bijection between octet strings and the strings its reader takes. -/
theorem ofBase58_eq_some {s : Utf16} {bytes : Bytes} :
    ofBase58 s = some bytes ↔ s = base58 bytes := by
  have hoctets : ∀ d ∈ bytes.map UInt8.toNat, d < 256 := by
    intro d hd
    obtain ⟨b, -, rfl⟩ := List.mem_map.mp hd
    exact b.toNat_lt
  constructor
  · intro h
    obtain ⟨ds, hds, rfl⟩ := Option.map_eq_some_iff.mp h
    obtain ⟨hlt, rfl⟩ := mapM_base58Value_eq_some hds
    rw [base58, map_toNat_ofNat (Radix.recode_lt (by decide)), Radix.recode_recode (by decide) hlt]
  · rintro rfl
    rw [ofBase58, base58, mapM_base58Value (Radix.recode_lt (by decide)), Option.map_some,
      Radix.recode_recode (by decide) hoctets, map_ofNat_toNat]

end WarrenSdk.Lib
