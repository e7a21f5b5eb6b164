import Mathlib.Data.Rat.Floor
import Whereabouts.Geo.Point
import Whereabouts.Proofs.Binary64.Elementary
import Whereabouts.Proofs.Binary64.Remainder
import Whereabouts.Proofs.Binary64.Sum

/-! Angles are wrapped into the full circle: exactly over a field, and in binary64 although the last
addition is rounded. -/
namespace Whereabouts.Geo

open Exact (remainder)

section

variable {K : Type} [Field K] [LinearOrder K] [IsStrictOrderedRing K] [FloorRing K]
  [Transcendental K]

/-- The remainder, turned once if it is negative. In exact arithmetic that is never the full
circle. -/
lemma wrap_eq (x : K) :
    wrap x = if remainder x 360 < 0 then remainder x 360 + 360 else remainder x 360 := by
  have hzero : (0.0 : K) = 0 := by norm_num
  have hcircle : (fullCircle : K) = 360 := by
    unfold fullCircle
    norm_num
  have hsmall := abs_lt.mp (Exact.abs_remainder_lt (x := x) (y := 360) (by norm_num))
  simp only [wrap, hzero, hcircle, Exact.fmod_eq_remainder]
  refine if_neg ?_
  split_ifs with hneg <;> linarith [hsmall.1, hsmall.2]

lemma wrap_mem (x : K) : wrap x ∈ Set.Ico (0 : K) 360 := by
  have hsmall := abs_lt.mp (Exact.abs_remainder_lt (x := x) (y := 360) (by norm_num))
  rw [wrap_eq]
  split_ifs with hneg
  · exact ⟨by linarith [hsmall.1], by linarith⟩
  · exact ⟨not_lt.mp hneg, hsmall.2⟩

/-- Wrapping takes whole turns from an angle. -/
lemma exists_sub_wrap (x : K) : ∃ k : ℤ, x - wrap x = 360 * k := by
  have hturns := Exact.sub_remainder x (360 : K)
  rw [wrap_eq]
  split_ifs
  · refine ⟨Exact.trunc (x / 360) - 1, ?_⟩
    push_cast
    linear_combination hturns
  · exact ⟨_, hturns⟩

/-- Angles within one circle that are whole turns apart are the same. -/
lemma eq_of_sub_eq_turns {a b : K} (ha : a ∈ Set.Ico (0 : K) 360) (hb : b ∈ Set.Ico (0 : K) 360)
    {k : ℤ} (h : a - b = 360 * k) : a = b := by
  have hk : k = 0 := by
    have hlow : (-1 : K) < k := by linarith [ha.1, hb.2]
    have hhigh : (k : K) < 1 := by linarith [ha.2, hb.1]
    have hlow : -1 < k := by exact_mod_cast hlow
    have hhigh : k < 1 := by exact_mod_cast hhigh
    omega
  rw [hk, Int.cast_zero, mul_zero] at h
  exact sub_eq_zero.mp h

theorem wrap_eq_wrap_iff (x y : K) : wrap x = wrap y ↔ ∃ k : ℤ, x - y = 360 * k := by
  obtain ⟨i, hi⟩ := exists_sub_wrap x
  obtain ⟨j, hj⟩ := exists_sub_wrap y
  constructor
  · intro h
    refine ⟨i - j, ?_⟩
    push_cast
    linear_combination hi - hj + h
  · rintro ⟨k, hk⟩
    refine eq_of_sub_eq_turns (wrap_mem x) (wrap_mem y) (k := k - i + j) ?_
    push_cast
    linear_combination hk - hi + hj

theorem wrap_wrap (x : K) : wrap (wrap x) = wrap x := by
  obtain ⟨k, hk⟩ := exists_sub_wrap x
  refine (wrap_eq_wrap_iff _ _).mpr ⟨-k, ?_⟩
  push_cast
  linear_combination -hk

end

open Binary64

/-- A direction in degrees. -/
def InCircle (angle : Float) : Prop := 0.0 ≤ angle ∧ angle < 360.0

lemma unpack_circle : (360.0 : Float).toModel.unpack =
    .finite .positive (360 * 2 ^ 44) (-44) (Nat.mul_pos (by decide) (Nat.two_pow_pos 44)) := by
  rfl

lemma value_circle : value 360.0 = 360 := value_of_whole (n := 360) (k := 44) unpack_circle

lemma isFinite_circle : (360.0 : Float).isFinite = true := by decide

variable {x y : Float}

/-- The remainder is the exact one, and less than a turn either way. -/
lemma fmod_circle (hx : x.isFinite = true) :
    (fmod x 360.0).isFinite = true ∧ value (fmod x 360.0) = remainder (value x) 360 ∧
      value (fmod x 360.0) ∈ Set.Ioo (-360 : ℚ) 360 := by
  obtain ⟨hfinite, hvalue⟩ := value_fmod hx unpack_circle
  rw [value_circle] at hvalue
  refine ⟨hfinite, hvalue, ?_⟩
  rw [hvalue]
  exact abs_lt.mp (Exact.abs_remainder_lt (by norm_num))

lemma wrap_apply (x : Float) :
    wrap x = if 360.0 ≤ if fmod x 360.0 < 0.0 then fmod x 360.0 + 360.0 else fmod x 360.0 then 0.0
      else if fmod x 360.0 < 0.0 then fmod x 360.0 + 360.0 else fmod x 360.0 := rfl

/-- A remainder that is not below zero is taken as it is, and any other is turned once. -/
lemma wrap_cases (hx : x.isFinite = true) :
    0 ≤ value (fmod x 360.0) ∧ wrap x = fmod x 360.0 ∨
    value (fmod x 360.0) < 0 ∧
      wrap x = if 360.0 ≤ fmod x 360.0 + 360.0 then 0.0 else fmod x 360.0 + 360.0 := by
  obtain ⟨hfinite, -, -, hhigh⟩ := fmod_circle hx
  have hsign := lt_iff_value hfinite isFinite_zero
  rw [value_zero] at hsign
  have hwrap := wrap_apply x
  by_cases hneg : fmod x 360.0 < 0.0
  · rw [if_pos hneg] at hwrap
    exact .inr ⟨hsign.mp hneg, hwrap⟩
  · have hcircle : ¬ 360.0 ≤ fmod x 360.0 := by
      rw [le_iff_value isFinite_circle hfinite, value_circle, not_le]
      exact hhigh
    rw [if_neg hneg, if_neg hcircle] at hwrap
    exact .inl ⟨not_lt.mp fun h => hneg (hsign.mpr h), hwrap⟩

/-- Turning a negative remainder rounds it, but not below zero. -/
lemma add_circle {r : Float} (hr : r.isFinite = true) (hlow : -360 < value r)
    (hneg : value r < 0) :
    (r + 360.0).isFinite = true ∧ 0.0 ≤ r + 360.0 ∧
      |value (r + 360.0) - (value r + 360)| ≤ 2 ^ (-44 : ℤ) := by
  have hpos : 0 < value r + value 360.0 := by
    rw [value_circle]
    linarith
  have hlt : |value r + value 360.0| < 2 ^ (-44 + 53 : ℤ) := by
    rw [abs_of_pos hpos, value_circle]
    norm_num
    linarith
  obtain ⟨hsum, hrounded⟩ := abs_value_add_sub_le hr isFinite_circle hlt (by decide) (by decide)
  rw [value_circle] at hrounded
  exact ⟨hsum, zero_le_add hr isFinite_circle hpos, hrounded⟩

lemma inCircle_iff (hx : x.isFinite = true) : InCircle x ↔ value x ∈ Set.Ico (0 : ℚ) 360 := by
  rw [InCircle, le_iff_value isFinite_zero hx, lt_iff_value hx isFinite_circle, value_zero,
    value_circle, Set.mem_Ico]

/-- Any finite angle is wrapped into the circle. The guard catches a sum that was rounded up to the
full circle. -/
lemma inCircle_wrap (hx : x.isFinite = true) : InCircle (wrap x) := by
  obtain ⟨hfinite, -, hlow, hhigh⟩ := fmod_circle hx
  rcases wrap_cases hx with ⟨hnonneg, hwrap⟩ | ⟨hneg, hwrap⟩
  · rw [hwrap, inCircle_iff hfinite]
    exact ⟨hnonneg, hhigh⟩
  · obtain ⟨hsum, hzero, -⟩ := add_circle hfinite hlow hneg
    rw [hwrap]
    split_ifs with hcircle
    · exact ⟨by decide, by decide⟩
    · exact ⟨hzero, lt_of_not_le (by decide) (not_isNaN_of_isFinite hsum) hcircle⟩

lemma InCircle.isFinite (h : InCircle x) : x.isFinite = true :=
  (within_of_between (within_of_zero (s := .positive) rfl) (within_of_finite unpack_circle le_rfl)
    h.1 (le_of_lt h.2)).isFinite

/-- An angle within the circle stays as it is. -/
lemma wrap_eq_self (h : InCircle x) : wrap x = x := by
  have hx := h.isFinite
  obtain ⟨hlow, hhigh⟩ := (inCircle_iff hx).mp h
  have hsmall : |value x| < |value 360.0| := by
    rwa [value_circle, abs_of_nonneg hlow, abs_of_pos (by norm_num)]
  have hsame := fmod_eq_self hx unpack_circle hsmall
  rcases wrap_cases hx with ⟨-, hwrap⟩ | ⟨hneg, -⟩
  · rw [hwrap, hsame]
  · rw [hsame] at hneg
    exact absurd hlow (not_le.mpr hneg)

/-- A negative remainder is turned to the one on the other side exactly, if there is one. -/
lemma wrap_eq_of_turned (hx : x.isFinite = true) (hy : y.isFinite = true)
    (h : value (fmod x 360.0) = value (fmod y 360.0) + 360) : wrap x = wrap y := by
  obtain ⟨ha, -, -, hahigh⟩ := fmod_circle hx
  obtain ⟨hb, -, hblow, -⟩ := fmod_circle hy
  have hpos : 0 < value (fmod x 360.0) := by linarith
  have hsum : fmod y 360.0 + 360.0 = fmod x 360.0 := by
    refine add_eq_of_value hb isFinite_circle ha ?_ hpos
    rw [value_circle, h]
  have hcircle : ¬ 360.0 ≤ fmod x 360.0 := by
    rw [le_iff_value isFinite_circle ha, value_circle, not_le]
    exact hahigh
  rcases wrap_cases hx with ⟨-, hwrapx⟩ | ⟨hneg, -⟩
  · rcases wrap_cases hy with ⟨hnonneg, -⟩ | ⟨-, hwrapy⟩
    · linarith
    · rw [hwrapx, hwrapy, hsum, if_neg hcircle]
  · linarith

lemma wrap_beq_of_value_eq (hx : x.isFinite = true) (hy : y.isFinite = true)
    (h : value (fmod x 360.0) = value (fmod y 360.0)) : (wrap x == wrap y) = true := by
  obtain ⟨ha, -⟩ := fmod_circle hx
  obtain ⟨hb, -⟩ := fmod_circle hy
  rcases wrap_cases hx with ⟨hnonneg, hwrapx⟩ | ⟨hneg, -⟩
  · rcases wrap_cases hy with ⟨-, hwrapy⟩ | ⟨hneg, -⟩
    · rw [hwrapx, hwrapy]
      exact (beq_iff_value ha hb).mpr h
    · linarith
  · -- a number that is not zero has one form
    have hsame := eq_of_value ha hb h hneg.ne
    rw [wrap_apply, hsame, ← wrap_apply]
    exact beq_self (not_isNaN_of_isFinite (inCircle_wrap hy).isFinite)

/-- Angles that are whole turns apart are wrapped to the same one. -/
lemma wrap_beq_wrap (hx : x.isFinite = true) (hy : y.isFinite = true)
    (h : ∃ k : ℤ, value x - value y = 360 * k) : (wrap x == wrap y) = true := by
  obtain ⟨k, hk⟩ := h
  obtain ⟨-, hax, halow, hahigh⟩ := fmod_circle hx
  obtain ⟨-, hby, hblow, hbhigh⟩ := fmod_circle hy
  have hself := beq_self (not_isNaN_of_isFinite (inCircle_wrap hy).isFinite)
  -- the remainders are at most one turn apart
  obtain ⟨j, hj⟩ : ∃ j : ℤ, value (fmod x 360.0) - value (fmod y 360.0) = 360 * j := by
    refine ⟨k - Exact.trunc (value x / 360) + Exact.trunc (value y / 360), ?_⟩
    push_cast
    linear_combination hk + hax - hby - Exact.sub_remainder (value x) 360 +
      Exact.sub_remainder (value y) 360
  have hjlow : (-2 : ℚ) < j := by linarith
  have hjhigh : (j : ℚ) < 2 := by linarith
  have hjlow : -2 < j := by exact_mod_cast hjlow
  have hjhigh : j < 2 := by exact_mod_cast hjhigh
  obtain rfl | rfl | rfl : j = -1 ∨ j = 0 ∨ j = 1 := by omega
  · rw [Int.cast_neg, Int.cast_one] at hj
    rwa [← wrap_eq_of_turned hy hx (by linarith)]
  · rw [Int.cast_zero] at hj
    exact wrap_beq_of_value_eq hx hy (by linarith)
  · rw [Int.cast_one] at hj
    rwa [wrap_eq_of_turned hx hy (by linarith)]

/-- Wrapping takes whole turns from an angle, up to the rounding of the addition. -/
lemma exists_abs_sub_wrap_le (hx : x.isFinite = true) :
    ∃ k : ℤ, |value x - value (wrap x) - 360 * k| ≤ 2 ^ (-44 : ℤ) := by
  obtain ⟨hfinite, hremainder, hlow, -⟩ := fmod_circle hx
  have hturns := Exact.sub_remainder (value x) 360
  rw [← hremainder] at hturns
  rcases wrap_cases hx with ⟨-, hwrap⟩ | ⟨hneg, hwrap⟩
  · refine ⟨Exact.trunc (value x / 360), ?_⟩
    rw [hwrap, hturns, sub_eq_zero_of_eq rfl, abs_zero]
    positivity
  · obtain ⟨hsum, -, hrounded⟩ := add_circle hfinite hlow hneg
    rw [hwrap]
    split_ifs with hcircle
    · -- so little is below zero that the sum is rounded to the full circle
      refine ⟨Exact.trunc (value x / 360), ?_⟩
      rw [le_iff_value isFinite_circle hsum, value_circle] at hcircle
      rw [abs_le] at hrounded
      rw [value_zero, sub_zero, ← hturns, sub_sub_cancel, abs_of_neg hneg]
      linarith [hrounded.2]
    · refine ⟨Exact.trunc (value x / 360) - 1, ?_⟩
      rw [abs_sub_comm] at hrounded
      push_cast
      convert hrounded using 2
      linear_combination hturns

/-- Angles that are wrapped to the same one are whole turns apart, up to the rounding of both. -/
lemma exists_abs_sub_le_of_wrap_beq (hx : x.isFinite = true) (hy : y.isFinite = true)
    (h : (wrap x == wrap y) = true) :
    ∃ k : ℤ, |value x - value y - 360 * k| ≤ 2 ^ (-43 : ℤ) := by
  rw [beq_iff_value (inCircle_wrap hx).isFinite (inCircle_wrap hy).isFinite] at h
  obtain ⟨i, hi⟩ := exists_abs_sub_wrap_le hx
  obtain ⟨j, hj⟩ := exists_abs_sub_wrap_le hy
  refine ⟨i - j, ?_⟩
  have hsplit : value x - value y - 360 * ((i - j : ℤ) : ℚ) =
      (value x - value (wrap x) - 360 * i) - (value y - value (wrap y) - 360 * j) := by
    rw [h]
    push_cast
    ring
  rw [hsplit]
  calc |(value x - value (wrap x) - 360 * i) - (value y - value (wrap y) - 360 * j)|
      ≤ |value x - value (wrap x) - 360 * i| + |value y - value (wrap y) - 360 * j| := abs_sub ..
    _ ≤ 2 ^ (-44 : ℤ) + 2 ^ (-44 : ℤ) := add_le_add hi hj
    _ = 2 ^ (-43 : ℤ) := by norm_num

/-- An infinite angle, or none at all, has no place in the circle. -/
lemma isNaN_wrap (hx : x.isFinite = false) : (wrap x).isNaN = true := by
  have hread : Dyadic.ofFloat? x = none := by
    rw [Dyadic.ofFloat?_eq]
    change x.toModel.unpack.isFinite = false at hx
    cases hu : x.toModel.unpack <;> rw [hu] at hx <;> first | rfl | cases hx
  have hfmod : fmod x 360.0 = nan := by
    unfold fmod
    rw [hread]
  rw [wrap_apply, hfmod]
  decide

lemma isNaN_or_inCircle_wrap (x : Float) : (wrap x).isNaN = true ∨ InCircle (wrap x) := by
  by_cases hx : x.isFinite = true
  · exact .inr (inCircle_wrap hx)
  · exact .inl (isNaN_wrap (Bool.eq_false_iff.mpr hx))

lemma within_unit (hlow : -1.0 ≤ x) (hhigh : x ≤ 1.0) : Within (-52) x := by
  have hone : Within (-52) (1.0 : Float) := Int.le_refl _
  have hminus : Within (-52) (-1.0 : Float) := Int.le_refl _
  exact within_of_between hminus hone hlow hhigh

variable {m : Elementary}

lemma within_sin (hm : m.Documented) (hx : x.isFinite = true) : Within (-52) (m.sin x) :=
  within_unit (hm.sin_mem x hx).1 (hm.sin_mem x hx).2

lemma within_cos (hm : m.Documented) (hx : x.isFinite = true) : Within (-52) (m.cos x) :=
  within_unit (hm.cos_mem x hx).1 (hm.cos_mem x hx).2

/-- A direction is wrapped into the circle. -/
lemma inCircle_atan2 (hm : m.Documented) (hy : y.isNaN = false) (hx : x.isNaN = false) :
    InCircle (wrap (Arith.degrees (m.atan2 y x))) := by
  obtain ⟨hlow, hhigh⟩ := hm.atan2_mem y x hy hx
  have hpi : Within (-51) (Arith.pi : Float) := Int.le_refl _
  have hminus : Within (-51) (-Arith.pi : Float) := Int.le_refl _
  have hradian : Within (-47) (180.0 / Arith.pi : Float) := Int.le_refl _
  have hangle := within_of_between hminus hpi hlow hhigh
  refine inCircle_wrap (within_mul (k := -44) hangle hradian ?_ ?_ ?_).isFinite <;> decide

lemma isFinite_radians (hx : x.isFinite = true) : (Arith.radians x).isFinite = true := by
  have hdegree : Within (-58) (Arith.pi / 180.0 : Float) := Int.le_refl _
  refine (within_mul (k := 967) (within_of_isFinite hx) hdegree ?_ ?_ ?_).isFinite <;> decide

/-- Between finite latitudes and over a finite difference of longitudes there is a bearing: what the
arc tangent is taken of is finite too. -/
lemma inCircle_bearing (hm : m.Documented) {p q : Point Float} (hp : p.lat.isFinite = true)
    (hq : q.lat.isFinite = true) (hturn : (q.lng - p.lng).isFinite = true) :
    let _ := m.arith
    InCircle (p.bearing q) := by
  have hφ := isFinite_radians hp
  have hψ := isFinite_radians hq
  have hturn := isFinite_radians hturn
  have hmul {i j : Int} {x y : Float} (hx : Within i x) (hy : Within j y)
      (hi : -60 ≤ i ∧ i ≤ 0) (hj : -60 ≤ j ∧ j ≤ 0) : Within (i + j + 54) (x * y) :=
    within_mul hx hy (by omega) le_rfl (by omega)
  have heast := hmul (within_sin hm hturn) (within_cos hm hψ) (by decide) (by decide)
  have hnorth := within_sub (k := -46)
    (hmul (within_cos hm hφ) (within_sin hm hψ) (by decide) (by decide))
    (hmul (hmul (within_sin hm hφ) (within_cos hm hψ) (by decide) (by decide))
      (within_cos hm hturn) (by decide) (by decide))
    (by decide) (by decide) (by decide)
  exact inCircle_atan2 hm (not_isNaN_of_isFinite heast.isFinite)
    (not_isNaN_of_isFinite hnorth.isFinite)

lemma isFinite_of_isValid {p q : Point Float} (hp : p.isValid = true) (hq : q.isValid = true) :
    p.lat.isFinite = true ∧ q.lat.isFinite = true ∧ (q.lng - p.lng).isFinite = true := by
  have hbounds {p : Point Float} (hp : p.isValid = true) :
      p.lat.isFinite = true ∧ Within (-45) p.lng := by
    simp only [Point.isValid, Bool.and_eq_true, decide_eq_true_eq, and_assoc] at hp
    obtain ⟨hlat, -, -, -, hwest, heast⟩ := hp
    exact ⟨hlat, within_of_between (Int.le_refl _) (Int.le_refl _) hwest heast⟩
  obtain ⟨hplat, hplng⟩ := hbounds hp
  obtain ⟨hqlat, hqlng⟩ := hbounds hq
  refine ⟨hplat, hqlat, (within_sub (k := 0) hqlng hplng ?_ ?_ ?_).isFinite⟩ <;> decide

end Whereabouts.Geo
