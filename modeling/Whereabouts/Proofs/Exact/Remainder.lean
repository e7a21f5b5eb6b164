import Mathlib.Algebra.Order.Floor.Ring
import Mathlib.Tactic.LinearCombination
import Mathlib.Tactic.Linarith
import Mathlib.Tactic.Ring
import Whereabouts.Proofs.Exact

/-! The remainder of a quotient cut towards zero. It has the sign of the dividend and is smaller
than the divisor. -/
namespace Whereabouts.Exact

variable {K : Type} [Field K] [LinearOrder K] [FloorRing K]

/-- What is left of `x` when a whole number of `y` is taken from it, cut towards zero. -/
def remainder (x y : K) : K := x - y * trunc (x / y)

lemma fmod_eq_remainder [Transcendental K] (x y : K) : Arith.fmod x y = remainder x y := rfl

lemma sub_remainder (x y : K) : x - remainder x y = y * trunc (x / y) := sub_sub_cancel _ _

variable [IsStrictOrderedRing K]

lemma trunc_neg (q : K) : trunc (-q) = -trunc q := by
  unfold trunc
  rcases lt_trichotomy q 0 with hneg | rfl | hpos
  · rw [if_pos (neg_nonneg.mpr hneg.le), if_neg (not_le.mpr hneg), Int.floor_neg]
  · simp
  · rw [if_neg (not_le.mpr (neg_neg_of_pos hpos)), if_pos hpos.le, Int.ceil_neg]

lemma remainder_neg_left (x y : K) : remainder (-x) y = -remainder x y := by
  rw [remainder, neg_div, trunc_neg, remainder]
  push_cast
  ring

lemma remainder_neg_right (x y : K) : remainder x (-y) = remainder x y := by
  rw [remainder, div_neg, trunc_neg, remainder]
  push_cast
  ring

lemma remainder_nonneg {x y : K} (hx : 0 ≤ x) (hy : 0 < y) : 0 ≤ remainder x y := by
  have hfloor := Int.floor_le (x / y)
  rw [le_div_iff₀ hy] at hfloor
  rw [remainder, trunc, if_pos (div_nonneg hx hy.le)]
  linarith

lemma remainder_lt {x y : K} (hx : 0 ≤ x) (hy : 0 < y) : remainder x y < y := by
  have hfloor := Int.lt_floor_add_one (x / y)
  rw [div_lt_iff₀ hy] at hfloor
  rw [remainder, trunc, if_pos (div_nonneg hx hy.le)]
  linarith

lemma abs_remainder_lt {x y : K} (hy : 0 < y) : |remainder x y| < y := by
  rcases le_total 0 x with hx | hx
  · rw [abs_of_nonneg (remainder_nonneg hx hy)]
    exact remainder_lt hx hy
  · have hx : 0 ≤ -x := neg_nonneg.mpr hx
    rw [← abs_neg, ← remainder_neg_left, abs_of_nonneg (remainder_nonneg hx hy)]
    exact remainder_lt hx hy

lemma remainder_eq_self {x y : K} (hx : 0 ≤ x) (hxy : x < y) : remainder x y = x := by
  have hy := hx.trans_lt hxy
  have hfloor : ⌊x / y⌋ = 0 :=
    Int.floor_eq_zero_iff.mpr ⟨div_nonneg hx hy.le, (div_lt_one hy).mpr hxy⟩
  rw [remainder, trunc, if_pos (div_nonneg hx hy.le), hfloor]
  simp

/-- On a common unit the remainder is the one of natural numbers. -/
lemma remainder_natCast_mul (a b : ℕ) {unit : K} (hunit : 0 < unit) :
    remainder (a * unit) (b * unit) = (a % b : ℕ) * unit := by
  have hquotient : (a * unit) / (b * unit) = (a : K) / b := mul_div_mul_right _ _ hunit.ne'
  have hfloor : trunc ((a : K) / b) = (a / b : ℕ) := by
    rw [trunc, if_pos (by positivity), Int.floor_div_natCast, Int.floor_natCast]
    rfl
  have hsplit : (a : K) = b * (a / b : ℕ) + (a % b : ℕ) := by
    exact_mod_cast (Nat.div_add_mod a b).symm
  rw [remainder, hquotient, hfloor, Int.cast_natCast]
  linear_combination unit * hsplit

end Whereabouts.Exact
