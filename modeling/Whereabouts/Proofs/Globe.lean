import Mathlib.Analysis.Real.Pi.Bounds
import Mathlib.Analysis.SpecialFunctions.Complex.Arg
import Whereabouts.Geo.Segment
import Whereabouts.Proofs.Exact

/-! The globe over the real numbers: different points are apart, and a point on a segment is its own
projection. -/
namespace Whereabouts

noncomputable instance Exact.real : Transcendental ℝ where
  sqrt := Real.sqrt
  sin := Real.sin
  cos := Real.cos
  atan2 y x := Complex.arg ⟨x, y⟩
  hypot x y := Real.sqrt (x * x + y * y)

namespace Geo

open Arith (radians)

variable {K : Type} [Field K] [LinearOrder K] [FloorRing K] [Transcendental K]

lemma radians_factor_pos : (0 : ℝ) < Arith.pi / 180.0 := by
  unfold Arith.pi
  norm_num

/-- The constant for the circle stops after fifteen digits, below the number that it stands for. -/
lemma abs_radians_lt {x bound : ℝ} (hbound : 0 < bound) (h : |x| ≤ bound) :
    |radians x| < bound / 180 * Real.pi := by
  have hpi : (Arith.pi : ℝ) < Real.pi := by
    have := Real.pi_gt_d20
    unfold Arith.pi
    norm_num at this ⊢
    linarith
  have hfactor := radians_factor_pos
  have h180 : (180.0 : ℝ) = 180 := by norm_num
  calc |radians x| = |x| * (Arith.pi / 180.0) := by rw [radians, abs_mul, abs_of_pos hfactor]
    _ ≤ bound * (Arith.pi / 180.0) := by gcongr
    _ = bound / 180 * Arith.pi := by rw [h180]; ring
    _ < bound / 180 * Real.pi := by gcongr

lemma radians_sub (x y : ℝ) : radians x - radians y = radians (x - y) := (sub_mul x y _).symm

lemma radians_eq_zero {x : ℝ} : radians x = 0 ↔ x = 0 := by
  rw [radians, mul_eq_zero_iff_right radians_factor_pos.ne']

/-- Half of an angle within the full circle has a sine, unless it is zero. -/
lemma sin_half_radians_eq_zero {x : ℝ} (h : |x| ≤ 360) :
    Real.sin (radians x / 2.0) = 0 ↔ x = 0 := by
  have htwo : (2.0 : ℝ) = 2 := by norm_num
  have hlt := abs_lt.mp (abs_radians_lt (by norm_num) h)
  rw [htwo, Real.sin_eq_zero_iff_of_lt_of_lt (by linarith) (by linarith),
    ← radians_eq_zero (x := x)]
  constructor <;> intro h <;> linarith

namespace Point

lemma isValid_iff [IsStrictOrderedRing K] {p : Point K} :
    p.isValid = true ↔ |p.lat| ≤ 90 ∧ |p.lng| ≤ 180 := by
  have h90 : (90.0 : K) = 90 := by norm_num
  have h180 : (180.0 : K) = 180 := by norm_num
  have hfinite (x : K) : Arith.isFinite x = true := rfl
  simp only [isValid, hfinite, h90, h180, Bool.and_eq_true, decide_eq_true_eq, abs_le, true_and]

lemma cos_radians_pos {p : Point ℝ} (h : p.isValid = true) : 0 < Real.cos (radians p.lat) := by
  have hlt := abs_lt.mp (abs_radians_lt (by norm_num) (isValid_iff.mp h).1)
  exact Real.cos_pos_of_mem_Ioo ⟨by linarith, by linarith⟩

lemma haversine_eq (p q : Point ℝ) :
    p.haversine q = Real.sin (radians (q.lat - p.lat) / 2.0) ^ 2 +
      Real.cos (radians p.lat) * Real.cos (radians q.lat) *
        Real.sin (radians (q.lng - p.lng) / 2.0) ^ 2 := by
  rw [← radians_sub q.lat p.lat, sq, sq, ← mul_assoc (_ * _)]
  rfl

lemma haversine_nonneg {p q : Point ℝ} (hp : p.isValid = true) (hq : q.isValid = true) :
    0 ≤ p.haversine q := by
  have hcos := mul_pos (cos_radians_pos hp) (cos_radians_pos hq)
  rw [haversine_eq]
  positivity

lemma haversine_eq_zero {p q : Point ℝ} (hp : p.isValid = true) (hq : q.isValid = true) :
    p.haversine q = 0 ↔ p = q := by
  have hcos := mul_pos (cos_radians_pos hp) (cos_radians_pos hq)
  obtain ⟨hplat, hplng⟩ := isValid_iff.mp hp
  obtain ⟨hqlat, hqlng⟩ := isValid_iff.mp hq
  have hlat : |q.lat - p.lat| ≤ 360 := (abs_sub _ _).trans (by linarith)
  have hlng : |q.lng - p.lng| ≤ 360 := (abs_sub _ _).trans (by linarith)
  rw [haversine_eq, add_eq_zero_iff_of_nonneg (by positivity) (by positivity), sq_eq_zero_iff,
    sin_half_radians_eq_zero hlat, mul_eq_zero_iff_left hcos.ne', sq_eq_zero_iff,
    sin_half_radians_eq_zero hlng, sub_eq_zero, sub_eq_zero]
  constructor
  · rintro ⟨h, h'⟩
    cases p; cases q
    simp_all
  · rintro rfl
    exact ⟨rfl, rfl⟩

lemma distance_eq (p q : Point ℝ) :
    p.distance q = 2.0 * earthRadius *
      Complex.arg ⟨Real.sqrt (1.0 - p.haversine q), Real.sqrt (p.haversine q)⟩ :=
  rfl

lemma diameter_pos : (0 : ℝ) < 2.0 * earthRadius := by
  unfold earthRadius
  norm_num

lemma distance_nonneg (p q : Point ℝ) : 0 ≤ p.distance q := by
  rw [distance_eq]
  exact mul_nonneg diameter_pos.le (Complex.arg_nonneg_iff.mpr (Real.sqrt_nonneg _))

theorem distance_eq_zero {p q : Point ℝ} (hp : p.isValid = true) (hq : q.isValid = true) :
    p.distance q = 0 ↔ p = q := by
  rw [← haversine_eq_zero hp hq, distance_eq, mul_eq_zero_iff_left diameter_pos.ne',
    Complex.arg_eq_zero_iff]
  simp only [Real.sqrt_nonneg, true_and]
  exact Real.sqrt_eq_zero (haversine_nonneg hp hq)

lemma distance_self (p : Point ℝ) : p.distance p = 0 := by
  have h : p.haversine p = 0 := by simp [haversine_eq, radians_eq_zero.mpr]
  rw [distance_eq, h, mul_eq_zero_iff_left diameter_pos.ne', Complex.arg_eq_zero_iff]
  exact ⟨Real.sqrt_nonneg _, Real.sqrt_zero⟩

/-- Along a meridian the distance is the arc between the latitudes. -/
lemma distance_meridian {φ ψ : ℝ} (h : |ψ - φ| ≤ 180) (lng : ℝ) :
    distance ⟨φ, lng⟩ ⟨ψ, lng⟩ = earthRadius * |radians (ψ - φ)| := by
  have htwo : (2.0 : ℝ) = 2 := by norm_num
  have hone : (1.0 : ℝ) = 1 := by norm_num
  set θ := |radians (ψ - φ)| / 2 with hθ
  have hlt : |radians (ψ - φ)| < Real.pi := by
    simpa using abs_radians_lt (by norm_num : (0 : ℝ) < 180) h
  have hnonneg : 0 ≤ θ := by positivity
  have hhaversine : haversine (⟨φ, lng⟩ : Point ℝ) ⟨ψ, lng⟩ = Real.sin θ ^ 2 := by
    have hzero : radians (lng - lng) = 0 := radians_eq_zero.mpr (sub_self lng)
    have habs : Real.sin (radians (ψ - φ) / 2) ^ 2 = Real.sin (|radians (ψ - φ)| / 2) ^ 2 := by
      rcases abs_choice (radians (ψ - φ)) with h | h <;> rw [h]
      rw [neg_div, Real.sin_neg, neg_sq]
    simp only [haversine_eq, hzero, htwo, zero_div, Real.sin_zero, habs, hθ]
    ring
  have hsin : 0 ≤ Real.sin θ := Real.sin_nonneg_of_nonneg_of_le_pi hnonneg (by linarith)
  have hcos : 0 ≤ Real.cos θ :=
    Real.cos_nonneg_of_neg_pi_div_two_le_of_le (by linarith) (by linarith)
  have harg : Complex.arg ⟨Real.cos θ, Real.sin θ⟩ = θ := by
    have hpolar : (⟨Real.cos θ, Real.sin θ⟩ : ℂ) = Complex.cos θ + Complex.sin θ * Complex.I := by
      rw [← Complex.ofReal_cos, ← Complex.ofReal_sin, ← Complex.mk_eq_add_mul_I]
    rw [hpolar, Complex.arg_cos_add_sin_mul_I ⟨by linarith [Real.pi_pos], by linarith⟩]
  rw [distance_eq, hhaversine, hone, ← Real.cos_sq', Real.sqrt_sq hsin, Real.sqrt_sq hcos, harg,
    htwo, hθ]
  ring

/-- The point is somewhere between two others, ends included. -/
def Lies (p a b : Point ℝ) : Prop := ∃ f ∈ Set.Icc (0 : ℝ) 1, p = a.towards b f

lemma towards_zero (a b : Point K) : a.towards b 0 = a := by simp [towards]

lemma towards_one (a b : Point K) : a.towards b 1 = b := by simp [towards]

lemma lies_start (a b : Point ℝ) : a.Lies a b :=
  ⟨0, ⟨le_rfl, zero_le_one⟩, (towards_zero a b).symm⟩

lemma lies_stop (a b : Point ℝ) : b.Lies a b :=
  ⟨1, ⟨zero_le_one, le_rfl⟩, (towards_one a b).symm⟩

/-- What lies between a point of a segment and its end lies on the segment. -/
lemma Lies.towards {p a b : Point ℝ} (hp : p.Lies a b) {f : ℝ} (hf : f ∈ Set.Icc (0 : ℝ) 1) :
    (p.towards b f).Lies a b := by
  obtain ⟨g, ⟨hg, hg1⟩, rfl⟩ := hp
  obtain ⟨hf, hf1⟩ := hf
  refine ⟨g + (1 - g) * f, ⟨by nlinarith, by nlinarith⟩, ?_⟩
  simp only [Point.towards, Point.mk.injEq]
  constructor <;> ring

lemma Lies.isValid {p a b : Point ℝ} (hp : p.Lies a b) (ha : a.isValid = true)
    (hb : b.isValid = true) : p.isValid = true := by
  obtain ⟨f, ⟨hf, hf1⟩, rfl⟩ := hp
  have hmix {x y bound : ℝ} (hx : |x| ≤ bound) (hy : |y| ≤ bound) : |x + (y - x) * f| ≤ bound := by
    rw [abs_le] at hx hy ⊢
    constructor <;> nlinarith
  rw [isValid_iff] at ha hb ⊢
  exact ⟨hmix ha.1 hb.1, hmix ha.2 hb.2⟩

end Point

lemma unitClamp_mem (x : K) : Arith.unitClamp x ∈ Set.Icc (0 : K) 1 := by
  have hzero : (0.0 : K) = 0 := by norm_num
  have hone : (1.0 : K) = 1 := by norm_num
  unfold Arith.unitClamp
  rw [hzero, hone]
  split_ifs with hlow hhigh
  · exact ⟨le_rfl, zero_le_one⟩
  · exact ⟨zero_le_one, le_rfl⟩
  · exact ⟨not_lt.mp hlow, not_lt.mp hhigh⟩

lemma unitClamp_eq_self {x : ℝ} (h : x ∈ Set.Icc (0 : ℝ) 1) : Arith.unitClamp x = x := by
  have hzero : (0.0 : ℝ) = 0 := by norm_num
  have hone : (1.0 : ℝ) = 1 := by norm_num
  rw [Arith.unitClamp, hzero, hone, if_neg (not_lt.mpr h.1), if_neg (not_lt.mpr h.2)]

lemma footFraction_mem (scale : K) (p a b : Point K) :
    footFraction scale p a b ∈ Set.Icc (0 : K) 1 := by
  unfold footFraction
  dsimp only
  split_ifs
  · exact unitClamp_mem _
  · norm_num

/-- On the map, a point of the segment is its own foot. -/
lemma towards_footFraction {scale : ℝ} (hscale : 0 < scale) (a b : Point ℝ) {f : ℝ}
    (hf : f ∈ Set.Icc (0 : ℝ) 1) :
    a.towards b (footFraction scale (a.towards b f) a b) = a.towards b f := by
  have hzero : (0.0 : ℝ) = 0 := by norm_num
  have hlng : (a.lng + (b.lng - a.lng) * f - a.lng) * scale = (b.lng - a.lng) * scale * f := by ring
  have hlat : a.lat + (b.lat - a.lat) * f - a.lat = (b.lat - a.lat) * f := by ring
  simp only [footFraction, Point.towards, hzero, hlng, hlat]
  generalize hdx : (b.lng - a.lng) * scale = dx
  generalize hdy : b.lat - a.lat = dy
  split_ifs with hpos
  · have hquotient : (dx * f * dx + dy * f * dy) / (dx * dx + dy * dy) = f := by
      rw [div_eq_iff hpos.ne']
      ring
    rw [hquotient, unitClamp_eq_self hf]
  · -- The ends are the same point.
    have hx := mul_self_nonneg dx
    have hy := mul_self_nonneg dy
    have hsum : dx * dx + dy * dy = 0 := le_antisymm (not_lt.mp hpos) (add_nonneg hx hy)
    obtain ⟨hdx0, hdy0⟩ := (add_eq_zero_iff_of_nonneg hx hy).mp hsum
    have hlng0 : b.lng - a.lng = 0 := by
      have hprod : (b.lng - a.lng) * scale = 0 := hdx.trans (mul_self_eq_zero.mp hdx0)
      exact (mul_eq_zero_iff_right hscale.ne').mp hprod
    simp [hlng0, mul_self_eq_zero.mp hdy0]

namespace Point

lemma lies_point_project (p a b : Point ℝ) : (p.project a b).point.Lies a b :=
  ⟨_, footFraction_mem _ p a b, rfl⟩

lemma point_project {p a b : Point ℝ} (ha : a.isValid = true) (hp : p.Lies a b) :
    (p.project a b).point = p := by
  obtain ⟨f, hf, rfl⟩ := hp
  exact towards_footFraction (cos_radians_pos ha) a b hf

lemma distance_project_nonneg (p a b : Point ℝ) : 0 ≤ (p.project a b).distance :=
  distance_nonneg _ p

/-- A point is no distance from the segments that it lies on, and only from them. -/
theorem distance_project_eq_zero {p a b : Point ℝ} (hp : p.isValid = true) (ha : a.isValid = true)
    (hb : b.isValid = true) : (p.project a b).distance = 0 ↔ p.Lies a b := by
  have hfoot := lies_point_project p a b
  change (p.project a b).point.distance p = 0 ↔ _
  rw [distance_eq_zero (hfoot.isValid ha hb) hp]
  exact ⟨fun h => h ▸ hfoot, point_project ha⟩

end Point
end Geo
end Whereabouts
