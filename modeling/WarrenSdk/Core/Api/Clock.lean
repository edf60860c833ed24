import WarrenSdk.Lib.Double
import WarrenSdk.Lib.Utf16

/-!
# The server clock (`api/clock.ts`)

What the `Date` of an answer says of the device clock, and how far the stamp of a signed request is
moved by it.
-/

namespace WarrenSdk.Core.Api
open Lib

def SIGNATURE_WINDOW_SECS : Int := 60
def MAX_FORWARD_CORRECTION_SECS : Int := 15 * 60

/-- The arithmetic and the dates of the platform. -/
structure Calendar where
  rounding : Rounding
  /-- `Date.parse(text.trim())`, unless it is not finite. -/
  parse : Utf16 → Option Int
  /-- No time is further than 100 000 000 days from the epoch. -/
  parse_le : ∀ {text ms}, parse text = some ms → ms.natAbs ≤ 8640000000000000

variable (cal : Calendar)

/-- The second of a `Date`. -/
def serverSecs (dateHeader : Utf16) : Option Int :=
  (cal.parse dateHeader).map fun (serverMs : Int) => ⌊cal.rounding ((serverMs : Rat) / 1000)⌋

def clockOffsetSecs (dateHeader : Utf16) (deviceNow : Double) : Option Double :=
  (serverSecs cal dateHeader).map
    fun (secs : Int) => Double.sub cal.rounding (.finite secs) deviceNow

def applicableOffset : Double → Double
  | .finite q =>
    if |q| * 2 ≤ SIGNATURE_WINDOW_SECS then .finite 0
    else if MAX_FORWARD_CORRECTION_SECS < q then .finite 0
    else .finite q
  | .infinite false => .finite 0
  | offsetSecs => offsetSecs

def correctedTimestamp (deviceNow : Int) (offsetSecs : Double) : Int :=
  match (Double.add cal.rounding (.finite deviceNow)
    (applicableOffset offsetSecs)).safeInteger? with
  | some corrected => if 0 ≤ corrected then corrected else deviceNow
  | none => deviceNow

variable {cal}

/-! ## Stamps -/

theorem applicableOffset_finite (q : Rat) : applicableOffset (.finite q) =
    if |q| * 2 ≤ SIGNATURE_WINDOW_SECS ∨ MAX_FORWARD_CORRECTION_SECS < q then .finite 0
    else .finite q := by
  rw [applicableOffset]
  by_cases hwindow : |q| * 2 ≤ SIGNATURE_WINDOW_SECS
  · rw [if_pos hwindow, if_pos (.inl hwindow)]
  · by_cases hforward : MAX_FORWARD_CORRECTION_SECS < q
    · rw [if_neg hwindow, if_pos hforward, if_pos (.inr hforward)]
    · rw [if_neg hwindow, if_neg hforward, if_neg (not_or.mpr ⟨hwindow, hforward⟩)]

theorem applicableOffset_le (h : applicableOffset offsetSecs = .finite q) :
    q ≤ MAX_FORWARD_CORRECTION_SECS := by
  have hzero : (0 : Rat) ≤ (MAX_FORWARD_CORRECTION_SECS : Int) := by decide
  cases offsetSecs with
  | finite a =>
    rw [applicableOffset_finite] at h
    split at h
    · cases h
      exact hzero
    · next hnot =>
      cases h
      exact not_lt.mp (not_or.mp hnot).2
  | nan => cases h
  | infinite negative =>
    cases negative with
    | true => cases h
    | false =>
      cases h
      exact hzero

theorem correctedTimestamp_nonneg (h : 0 ≤ deviceNow) (offsetSecs : Double) :
    0 ≤ correctedTimestamp cal deviceNow offsetSecs := by
  unfold correctedTimestamp
  split
  · split
    · assumption
    · exact h
  · exact h

/-- A stamp is at most `MAX_FORWARD_CORRECTION_SECS` ahead of the device clock. -/
theorem correctedTimestamp_le (hsafe : deviceNow.natAbs < MAX_EXACT) (offsetSecs : Double) :
    correctedTimestamp cal deviceNow offsetSecs ≤ deviceNow + MAX_FORWARD_CORRECTION_SECS := by
  have hforward : (0 : Int) ≤ MAX_FORWARD_CORRECTION_SECS := by decide
  unfold correctedTimestamp
  split
  · next corrected hsum =>
    split
    · obtain ⟨hsum, hcorrected⟩ := Double.safeInteger?_eq_some.mp hsum
      cases hoffset : applicableOffset offsetSecs with
      | finite q =>
        rw [hoffset] at hsum
        have hq := applicableOffset_le hoffset
        have hround : cal.rounding (deviceNow + q) = corrected := Double.finite.inj hsum
        by_cases hbound : (deviceNow + MAX_FORWARD_CORRECTION_SECS).natAbs ≤ MAX_EXACT
        · have hle : (deviceNow : Rat) + q ≤ (deviceNow + MAX_FORWARD_CORRECTION_SECS : Int) := by
            push_cast
            linarith
          have hcast := cal.rounding.le_int _ hbound hle
          rw [hround] at hcast
          exact_mod_cast hcast
        · omega
      | nan =>
        rw [hoffset] at hsum
        cases hsum
      | infinite negative =>
        rw [hoffset] at hsum
        cases hsum
    · omega
  · omega

/-! ## The window -/

theorem serverSecs_lt (h : serverSecs cal dateHeader = some secs) : secs.natAbs < MAX_EXACT := by
  obtain ⟨ms, hms, rfl⟩ := Option.map_eq_some_iff.mp h
  have hbound := cal.parse_le hms
  have hle : cal.rounding ((ms : Rat) / 1000) ≤ (8640000000000 : Int) := by
    refine cal.rounding.le_int _ (by decide) ?_
    rw [div_le_iff₀ (by norm_num)]
    have hms : ms ≤ 8640000000000 * 1000 := by omega
    exact_mod_cast hms
  have hge : (-8640000000000 : Int) ≤ cal.rounding ((ms : Rat) / 1000) := by
    refine cal.rounding.int_le _ (by decide) ?_
    rw [le_div_iff₀ (by norm_num)]
    have hms : -8640000000000 * 1000 ≤ ms := by omega
    exact_mod_cast hms
  have hfloor : ⌊cal.rounding ((ms : Rat) / 1000)⌋ ≤ 8640000000000 :=
    Int.cast_le.mp ((Int.floor_le _).trans hle)
  have hfloor' := Int.le_floor.mpr hge
  simp only [MAX_EXACT]
  omega

/-- Rounding keeps a whole number on its side of a bound. -/
theorem abs_rounding_le (R : Rounding) (n : Int) (bound : Nat) (hbound : bound < MAX_EXACT) :
    |R n| ≤ bound ↔ |n| ≤ bound := by
  rw [abs_le, abs_le]
  constructor
  · rintro ⟨hge, hle⟩
    constructor
    · by_contra hlt
      have hround := R.le_int (q := n) (-(bound + 1 : Nat)) (by omega)
        (by exact_mod_cast (by omega))
      have hcast := hge.trans hround
      norm_cast at hcast
      omega
    · by_contra hgt
      have hround := R.int_le (q := n) (bound + 1 : Nat) (by omega) (by exact_mod_cast (by omega))
      have hcast := hround.trans hle
      norm_cast at hcast
      omega
  · rintro ⟨hge, hle⟩
    constructor
    · have hround := R.int_le (q := n) (-(bound : Nat)) (by omega) (by exact_mod_cast hge)
      exact_mod_cast hround
    · have hround := R.le_int (q := n) (bound : Nat) (by omega) (by exact_mod_cast hle)
      exact_mod_cast hround

/-- What a `Date` says of a stamp. -/
theorem clockOffsetSecs_stamp (dateHeader : Utf16) (stamp : Int) :
    clockOffsetSecs cal dateHeader (.finite stamp) =
        (serverSecs cal dateHeader).map fun (secs : Int) =>
      .finite (cal.rounding (secs - stamp : Int)) := by
  unfold clockOffsetSecs
  refine congrArg (Option.map · _) (funext fun secs => ?_)
  rw [Double.sub, Double.neg, Double.add, Int.cast_sub, sub_eq_add_neg]

theorem absLe_stamp (secs stamp : Int) :
    (Double.finite (cal.rounding (secs - stamp : Int))).AbsLe SIGNATURE_WINDOW_SECS ↔
      |secs - stamp| ≤ SIGNATURE_WINDOW_SECS :=
  abs_rounding_le cal.rounding (secs - stamp) 60 (by decide)

theorem correctedTimestamp_eq {n deviceNow : Int} (hpos : 0 ≤ n) (hsafe : n.natAbs < MAX_EXACT)
    (h : Double.add cal.rounding (.finite deviceNow) (applicableOffset offsetSecs) =
      .finite (cal.rounding n)) : correctedTimestamp cal deviceNow offsetSecs = n := by
  rw [cal.rounding.int n hsafe.le] at h
  rw [correctedTimestamp, Double.safeInteger?_eq_some.mpr ⟨h, hsafe⟩]
  exact if_pos hpos

/-- A device whose clock did not move signs within the window of a `Date` that it may follow. -/
theorem correctedTimestamp_fits (hsecs : serverSecs cal dateHeader = some secs) (hpos : 0 ≤ secs)
    (hnow : 0 ≤ deviceNow) (hsafe : deviceNow.natAbs < MAX_EXACT)
    (hforward : secs ≤ deviceNow + MAX_FORWARD_CORRECTION_SECS)
    (hoffset : clockOffsetSecs cal dateHeader (.finite deviceNow) = some offset) :
    |secs - correctedTimestamp cal deviceNow offset| ≤ SIGNATURE_WINDOW_SECS := by
  have hlt := serverSecs_lt hsecs
  rw [clockOffsetSecs_stamp, hsecs] at hoffset
  have hexact : cal.rounding (secs - deviceNow : Int) = (secs - deviceNow : Int) :=
    cal.rounding.int _ (by omega)
  cases hoffset
  dsimp only
  rw [hexact]
  by_cases hsmall : |secs - deviceNow| * 2 ≤ SIGNATURE_WINDOW_SECS
  · have hzero : applicableOffset (.finite (secs - deviceNow : Int)) = .finite 0 := by
      rw [applicableOffset_finite]
      exact if_pos (.inl (by exact_mod_cast hsmall))
    rw [correctedTimestamp_eq hnow hsafe (by rw [hzero, Double.add, add_zero])]
    simp only [SIGNATURE_WINDOW_SECS] at hsmall ⊢
    omega
  · have happlied : applicableOffset (.finite (secs - deviceNow : Int)) =
        .finite (secs - deviceNow : Int) := by
      rw [applicableOffset_finite]
      refine if_neg (not_or.mpr ⟨by exact_mod_cast hsmall, ?_⟩)
      rw [Int.cast_lt]
      omega
    have hsum : Double.add cal.rounding (.finite deviceNow)
        (applicableOffset (.finite (secs - deviceNow : Int))) = .finite (cal.rounding secs) := by
      rw [happlied, Double.add, Int.cast_sub, add_sub_cancel]
    rw [correctedTimestamp_eq hpos hlt hsum, sub_self, abs_zero]
    decide

end WarrenSdk.Core.Api
