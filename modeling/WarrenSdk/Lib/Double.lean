import Mathlib.Algebra.Order.Floor.Ring
import Mathlib.Data.Rat.Floor
import Mathlib.Order.Monotone.Defs
import WarrenSdk.Lib.Number

/-!
# Doubles

Sums and differences of doubles, for any rounding that keeps the order and leaves the whole numbers
up to `MAX_EXACT` alone. An overflow is not modelled: a sum of numbers is a number.
-/

namespace WarrenSdk.Lib

/-- How results are rounded to doubles. -/
structure Rounding where
  toFun : Rat → Rat
  mono : Monotone toFun
  int : ∀ n : Int, n.natAbs ≤ MAX_EXACT → toFun n = n

instance : CoeFun Rounding fun _ => Rat → Rat := ⟨Rounding.toFun⟩

/-- A rounding to 53 significant bits, where the numbers are neither tiny nor huge. -/
structure Nearest extends Rounding where
  relative : ∀ q : Rat, 1 / 2 ≤ |q| → |q| ≤ MAX_EXACT → |toFun q - q| ≤ |q| / 2 ^ 53

inductive Double
  | finite (value : Rat)
  | nan
  | infinite (negative : Bool)
deriving DecidableEq

namespace Double

def neg : Double → Double
  | .finite q => .finite (-q)
  | .nan => .nan
  | .infinite negative => .infinite !negative

def add (R : Rounding) : Double → Double → Double
  | .finite a, .finite b => .finite (R (a + b))
  | .nan, _ | _, .nan => .nan
  | .infinite s, .infinite t => if s = t then .infinite s else .nan
  | .infinite s, .finite _ | .finite _, .infinite s => .infinite s

def sub (R : Rounding) (a b : Double) : Double := add R a b.neg

/-- The value, if `Number.isSafeInteger`. -/
def safeInteger? : Double → Option Int
  | .finite q => if q.den = 1 ∧ q.num.natAbs < MAX_EXACT then some q.num else none
  | _ => none

/-- `Math.abs(x) <= bound` -/
def AbsLe (bound : Rat) : Double → Prop
  | .finite q => |q| ≤ bound
  | _ => False

instance (bound : Rat) : DecidablePred (AbsLe bound)
  | .finite q => inferInstanceAs (Decidable (|q| ≤ bound))
  | .nan | .infinite _ => isFalse not_false

/-- `Math.abs(x) > bound` -/
def AbsGt (bound : Rat) : Double → Prop
  | .finite q => bound < |q|
  | .nan => False
  | .infinite _ => True

instance (bound : Rat) : DecidablePred (AbsGt bound)
  | .finite q => inferInstanceAs (Decidable (bound < |q|))
  | .nan => isFalse not_false
  | .infinite _ => isTrue trivial

/-- `x >= n` -/
def isAtLeast (n : Nat) : Double → Bool
  | .finite q => (n : Rat) ≤ q
  | .nan => false
  | .infinite negative => !negative

end Double

variable {R : Rounding}

theorem Rounding.le_int {q : Rat} (n : Int) (hn : n.natAbs ≤ MAX_EXACT) (h : q ≤ n) : R q ≤ n :=
  (R.mono h).trans_eq (R.int n hn)

theorem Rounding.int_le {q : Rat} (n : Int) (hn : n.natAbs ≤ MAX_EXACT) (h : (n : Rat) ≤ q) :
    n ≤ R q :=
  (R.int n hn).symm.trans_le (R.mono h)

theorem Double.safeInteger?_eq_some {d : Double} :
    d.safeInteger? = some n ↔ d = .finite n ∧ n.natAbs < MAX_EXACT := by
  constructor
  · intro h
    cases d with
    | finite q =>
      by_cases hq : q.den = 1 ∧ q.num.natAbs < MAX_EXACT
      · have hnum := Option.some.inj ((if_pos hq).symm.trans h)
        subst hnum
        exact ⟨congrArg Double.finite (Rat.ext rfl hq.1), hq.2⟩
      · exact absurd ((if_neg hq).symm.trans h) (Option.some_ne_none n).symm
    | nan | infinite _ => cases h
  · rintro ⟨rfl, hn⟩
    exact if_pos ⟨Rat.den_intCast n, by rwa [Rat.num_intCast]⟩

end WarrenSdk.Lib
