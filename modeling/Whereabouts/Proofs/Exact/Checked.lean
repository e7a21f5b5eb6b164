import Mathlib.Algebra.Order.Field.Basic
import Mathlib.Data.Option.NAry
import Mathlib.Data.Rat.Cast.OfScientific
import Whereabouts.Proofs.Exact

/-! Exact arithmetic that gives no number for a quotient by zero. A computation that gives a number
here has divided by zero nowhere. -/
namespace Whereabouts.Exact

variable {K : Type}

/-- A number, or what is left after a division by zero. -/
def Checked (K : Type) : Type := Option K

namespace Checked

def of (x : K) : Checked K := some x

variable [Field K] [LinearOrder K] [FloorRing K] [Transcendental K]

/-- Every operation needs numbers, and a divisor must not be zero. -/
instance arith : Arith (Checked K) where
  add := Option.map₂ (· + ·)
  sub := Option.map₂ (· - ·)
  mul := Option.map₂ (· * ·)
  div x y := x.bind fun a => y.bind fun b => if b = 0 then none else some (a / b)
  neg := Option.map (- ·)
  lt x y := Option.map₂ (fun a b => decide (a < b)) x y = some true
  le x y := Option.map₂ (fun a b => decide (a ≤ b)) x y = some true
  beq x y := Option.map₂ (fun a b => decide (a = b)) x y == some true
  ofScientific m negative e := some (OfScientific.ofScientific m negative e)
  decLt _ _ := inferInstanceAs (Decidable (_ = some true))
  decLe _ _ := inferInstanceAs (Decidable (_ = some true))
  isFinite := Option.isSome
  ofNat n := some (Arith.ofNat n)
  sqrt := Option.map Arith.sqrt
  sin := Option.map Arith.sin
  cos := Option.map Arith.cos
  atan2 := Option.map₂ Arith.atan2
  fmod x y := x.bind fun a => y.bind fun b => if b = 0 then none else some (Arith.fmod a b)
  hypot := Option.map₂ Arith.hypot

lemma of_add (x y : K) : of (x + y) = of x + of y := rfl

lemma of_sub (x y : K) : of (x - y) = of x - of y := rfl

lemma of_mul (x y : K) : of (x * y) = of x * of y := rfl

lemma of_div (x : K) {y : K} (h : y ≠ 0) : of (x / y) = of x / of y := (if_neg h).symm

lemma of_lt {x y : K} : of x < of y ↔ x < y := by
  change some (decide (x < y)) = some true ↔ x < y
  simp

lemma of_unitClamp (x : K) : of (Arith.unitClamp x) = Arith.unitClamp (of x) := by
  unfold Arith.unitClamp
  simp only [show (0.0 : Checked K) = of 0.0 from rfl, show (1.0 : Checked K) = of 1.0 from rfl,
    of_lt]
  split_ifs <;> rfl

lemma of_radians (x : K) : of (Arith.radians x) = Arith.radians (of x) := by
  have h180 : (180.0 : K) ≠ 0 := by norm_num
  exact (of_mul _ _).trans (congrArg (of x * ·) (of_div Arith.pi h180))

lemma of_half (x : K) : of (x / 2.0) = of x / 2.0 := of_div x (by norm_num)

end Checked
end Whereabouts.Exact
