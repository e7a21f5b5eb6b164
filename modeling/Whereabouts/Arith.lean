/-! The numbers that positions are made of. Every numeric definition is written once over this
interface: binary64 runs it, and an exact field can stand in where a law is about real numbers. -/
namespace Whereabouts

class Arith (R : Type) extends Add R, Sub R, Mul R, Div R, Neg R, LT R, LE R, BEq R,
    OfScientific R where
  decLt : DecidableLT R
  decLe : DecidableLE R
  isFinite : R → Bool
  ofNat : Nat → R
  sqrt : R → R
  sin : R → R
  cos : R → R
  /-- The angle of the direction `(x, y)`, with `y` the first argument. -/
  atan2 : R → R → R
  /-- Remainder of the quotient cut towards zero; it has the sign of the dividend. -/
  fmod : R → R → R
  hypot : R → R → R

namespace Arith

variable {R : Type} [Arith R]

instance (x y : R) : Decidable (x < y) := decLt x y

instance (x y : R) : Decidable (x ≤ y) := decLe x y

def abs (x : R) : R := if x < 0.0 then -x else x

/-- The larger of a floor and a value; a value that cannot be compared gives the floor. -/
def raise (floor x : R) : R := if floor < x then x else floor

def lesser (x y : R) : R := if y < x then y else x

/-- Limit a fraction to the unit interval; a value that cannot be compared stays. -/
def unitClamp (x : R) : R := if x < 0.0 then 0.0 else if (1.0 : R) < x then 1.0 else x

/-- A finite number above zero. -/
def isPositive (x : R) : Bool := isFinite x && decide ((0.0 : R) < x)

/-- A finite number that is not below zero. -/
def isNonneg (x : R) : Bool := isFinite x && !decide (x < 0.0)

theorem isFinite_of_isPositive {x : R} (h : isPositive x = true) : isFinite x = true :=
  (Bool.and_eq_true_iff.mp h).1

theorem lt_of_isPositive {x : R} (h : isPositive x = true) : (0.0 : R) < x :=
  of_decide_eq_true (Bool.and_eq_true_iff.mp h).2

theorem isPositive_of_lt {x : R} (h : isFinite x = true) (hx : (0.0 : R) < x) :
    isPositive x = true :=
  Bool.and_eq_true_iff.mpr ⟨h, decide_eq_true hx⟩

theorem isFinite_of_isNonneg {x : R} (h : isNonneg x = true) : isFinite x = true :=
  (Bool.and_eq_true_iff.mp h).1

def pi : R := 3.141592653589793

def radians (degrees : R) : R := degrees * (pi / 180.0)

def degrees (radians : R) : R := radians * (180.0 / pi)

end Arith
end Whereabouts
