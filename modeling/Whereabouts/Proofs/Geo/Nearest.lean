import Mathlib.Tactic.FieldSimp
import Whereabouts.Proofs.Exact.Checked
import Whereabouts.Proofs.Globe

/-! The projection onto a segment is its nearest point on the map, whatever the map shrinks
longitude by, and no division on the way there is by zero. -/
namespace Whereabouts.Geo

open Arith

variable {K : Type} [Field K] [LinearOrder K] [FloorRing K] [Transcendental K]

/-- At the foot, the way to the point has no part along the segment, or leads out of it. -/
lemma footFraction_obtuse [IsStrictOrderedRing K] (scale : K) (p a b : Point K) {t : K}
    (ht : t ∈ Set.Icc (0 : K) 1) :
    let dx := (b.lng - a.lng) * scale
    let dy := b.lat - a.lat
    let f := footFraction scale p a b
    ((p.lng - a.lng) * scale * dx + (p.lat - a.lat) * dy - (dx * dx + dy * dy) * f) * (t - f) ≤
      0 := by
  intro dx dy f
  obtain ⟨hstart, hstop⟩ := ht
  have hzero : (0.0 : K) = 0 := by norm_num
  have hone : (1.0 : K) = 1 := by norm_num
  set along := (p.lng - a.lng) * scale * dx + (p.lat - a.lat) * dy with halong
  set square := dx * dx + dy * dy with hsquare
  have hf : f = if 0 < square then unitClamp (along / square) else 0 := by
    rw [← hzero]
    rfl
  by_cases hpos : 0 < square
  · rw [hf, if_pos hpos, unitClamp, hzero, hone]
    split_ifs with hlow hhigh
    · -- The foot is the start.
      rw [div_lt_iff₀ hpos, zero_mul] at hlow
      rw [mul_zero, sub_zero, sub_zero]
      exact mul_nonpos_of_nonpos_of_nonneg hlow.le hstart
    · -- The foot is the end.
      rw [lt_div_iff₀ hpos, one_mul] at hhigh
      rw [mul_one]
      exact mul_nonpos_of_nonneg_of_nonpos (sub_nonneg.mpr hhigh.le) (sub_nonpos.mpr hstop)
    · rw [mul_div_cancel₀ _ hpos.ne', sub_self, zero_mul]
  · -- The segment has no length on the map.
    have hx := mul_self_nonneg dx
    have hy := mul_self_nonneg dy
    have hnil : square = 0 := le_antisymm (not_lt.mp hpos) (add_nonneg hx hy)
    obtain ⟨hdx, hdy⟩ := (add_eq_zero_iff_of_nonneg hx hy).mp hnil
    rw [halong, hnil, mul_self_eq_zero.mp hdx, mul_self_eq_zero.mp hdy]
    simp

namespace Point

/-- The squared distance of two points on the map that shrinks longitude by `scale`. -/
def mapSquare (scale : K) (p q : Point K) : K :=
  ((q.lng - p.lng) * scale) ^ 2 + (q.lat - p.lat) ^ 2

/-- The foot is the nearest point of the segment. -/
theorem mapSquare_footFraction_le [IsStrictOrderedRing K] (scale : K) (p a b : Point K) {t : K}
    (ht : t ∈ Set.Icc (0 : K) 1) :
    p.mapSquare scale (a.towards b (footFraction scale p a b)) ≤
      p.mapSquare scale (a.towards b t) := by
  have hobtuse := footFraction_obtuse scale p a b ht
  set f := footFraction scale p a b
  set dx := (b.lng - a.lng) * scale
  set dy := b.lat - a.lat
  have hsplit : p.mapSquare scale (a.towards b t) = p.mapSquare scale (a.towards b f) +
      ((dx * (t - f)) ^ 2 + (dy * (t - f)) ^ 2) -
      2 * (((p.lng - a.lng) * scale * dx + (p.lat - a.lat) * dy - (dx * dx + dy * dy) * f) *
        (t - f)) := by
    simp only [mapSquare, towards, dx, dy]
    ring
  have hx := sq_nonneg (dx * (t - f))
  have hy := sq_nonneg (dy * (t - f))
  linarith

/-- The point in arithmetic that has no number for a quotient by zero. -/
def checked (p : Point K) : Point (Exact.Checked K) := ⟨.of p.lat, .of p.lng⟩

open Exact.Checked

lemma checked_towards (a b : Point K) (f : K) :
    (a.towards b f).checked = a.checked.towards b.checked (of f) := rfl

lemma of_haversine (p q : Point K) : of (p.haversine q) = p.checked.haversine q.checked := by
  have hsin (x : K) : of (sin (x / 2.0)) = sin (of x / 2.0) := congrArg sin (of_half x)
  have hcos (x : K) : of (cos (radians x)) = cos (radians (of x)) := congrArg cos (of_radians x)
  simp only [haversine, of_add, of_mul, of_sub, hsin, hcos, of_radians, checked]

lemma of_distance (p q : Point K) : of (p.distance q) = p.checked.distance q.checked := by
  unfold distance
  rw [← of_haversine]
  rfl

end Point

open Exact.Checked

lemma of_footFraction (scale : K) (p a b : Point K) :
    of (footFraction scale p a b) = footFraction (of scale) p.checked a.checked b.checked := by
  have hzero : (0.0 : K) = 0 := by norm_num
  simp only [footFraction, Point.checked, ← of_sub, ← of_mul, ← of_add,
    show (0.0 : Exact.Checked K) = of 0.0 from rfl, of_lt]
  split_ifs with hpos
  · rw [of_unitClamp, of_div _ (hzero ▸ hpos).ne']
  · rfl

def Projection.checked (r : Projection K) : Projection (Exact.Checked K) :=
  ⟨of r.fraction, r.point.checked, of r.distance⟩

lemma checked_project (p a b : Point K) :
    (p.project a b).checked = p.checked.project a.checked b.checked := by
  have hscale : of (cos (radians a.lat)) = cos (radians (of a.lat)) :=
    congrArg cos (of_radians a.lat)
  simp only [Projection.checked, Point.project, Point.of_distance, Point.checked_towards,
    of_footFraction, hscale]
  rfl

/-- The projection is a point of the segment, and no point of the segment is nearer on the map whose
scale is the cosine at the start, which may be any number. The same computation gives the same
numbers where a quotient by zero is none. -/
theorem project_nearest [IsStrictOrderedRing K] (p a b : Point K) :
    let c := cos (radians a.lat)
    let r := p.project a b
    r.fraction ∈ Set.Icc (0 : K) 1 ∧
    r.point = ⟨a.lat + r.fraction * (b.lat - a.lat), a.lng + r.fraction * (b.lng - a.lng)⟩ ∧
    (∀ t ∈ Set.Icc (0 : K) 1, p.mapSquare c r.point ≤
      p.mapSquare c ⟨a.lat + t * (b.lat - a.lat), a.lng + t * (b.lng - a.lng)⟩) ∧
    p.checked.project a.checked b.checked = r.checked := by
  intro c r
  have htowards (t : K) : a.towards b t =
      ⟨a.lat + t * (b.lat - a.lat), a.lng + t * (b.lng - a.lng)⟩ := by
    simp only [Point.towards, mul_comm t]
  refine ⟨footFraction_mem c p a b, htowards _, fun t ht => ?_, (checked_project p a b).symm⟩
  rw [← htowards]
  exact Point.mapSquare_footFraction_le c p a b ht

/-- On a map of half the width, a point beside the segment falls on its middle. -/
theorem project_nearest_beside :
    let _ : Transcendental ℚ := ⟨id, id, fun _ => 1 / 2, fun y _ => y, fun x _ => x⟩
    let p : Point ℚ := ⟨0, 2⟩
    let r := p.project ⟨0, 0⟩ ⟨1, 2⟩
    r.fraction = 1 / 2 ∧ r.point = ⟨1 / 2, 1⟩ ∧
      p.mapSquare (1 / 2) r.point ≤ p.mapSquare (1 / 2) ⟨3 / 4, 3 / 2⟩ := by
  intro _ p r
  have hquarters : (3 / 4 : ℚ) ∈ Set.Icc (0 : ℚ) 1 := by norm_num
  obtain ⟨-, hpoint, hnearest, -⟩ := project_nearest p ⟨0, 0⟩ ⟨1, 2⟩
  have hhalf : r.fraction = 1 / 2 := by decide +kernel
  have hstop : (⟨0 + 3 / 4 * (1 - 0), 0 + 3 / 4 * (2 - 0)⟩ : Point ℚ) = ⟨3 / 4, 3 / 2⟩ := by
    norm_num
  refine ⟨hhalf, ?_, hstop ▸ hnearest (3 / 4) hquarters⟩
  rw [hpoint, hhalf]
  norm_num

end Whereabouts.Geo
