import Whereabouts.Arith
import Whereabouts.Time
import Mathlib.Algebra.Order.Field.Basic
import Mathlib.Algebra.Order.Floor.Defs
import Mathlib.Algebra.Order.Group.Abs
import Mathlib.Data.Rat.Cast.OfScientific
import Mathlib.Tactic.NormNum

/-! Exact arithmetic: an ordered field in the place of floating point. -/
namespace Whereabouts

/-- The functions that an ordered field does not have by itself. -/
class Transcendental (K : Type) where
  sqrt : K → K
  sin : K → K
  cos : K → K
  atan2 : K → K → K
  hypot : K → K → K

namespace Exact

variable {K : Type} [Field K]

/-- Elapsed time in deciseconds. -/
def deciseconds (earlier later : Timestamp) : K := ((later - earlier : ℕ) : K) / 100

variable [LinearOrder K]

lemma deciseconds_pos [IsStrictOrderedRing K] {earlier later : Timestamp} (h : earlier < later) :
    0 < (deciseconds earlier later : K) := by
  have hpos : 0 < later - earlier := Nat.sub_pos_of_lt h
  unfold deciseconds
  positivity

variable [FloorRing K]

/-- The integer part of a quotient, cut towards zero. -/
def trunc (q : K) : ℤ := if 0 ≤ q then ⌊q⌋ else ⌈q⌉

variable [Transcendental K]

instance arith : Arith K where
  decLt := inferInstance
  decLe := inferInstance
  isFinite _ := true
  ofNat n := n
  sqrt := Transcendental.sqrt
  sin := Transcendental.sin
  cos := Transcendental.cos
  atan2 := Transcendental.atan2
  fmod x y := x - y * trunc (x / y)
  hypot := Transcendental.hypot

lemma deciseconds_eq (earlier later : Timestamp) :
    Timestamp.deciseconds earlier later = (deciseconds earlier later : K) := by
  have h : (100.0 : K) = 100 := by norm_num
  exact congrArg (((later - earlier : ℕ) : K) / ·) h

lemma abs_eq [IsStrictOrderedRing K] (x : K) : Arith.abs x = |x| := by
  have hzero : (0.0 : K) = 0 := by norm_num
  change (if x < 0.0 then -x else x) = |x|
  rw [hzero]
  split_ifs with hx
  · exact (abs_of_neg hx).symm
  · exact (abs_of_nonneg (not_lt.mp hx)).symm

end Exact
end Whereabouts
