import Mathlib.Algebra.BigOperators.Ring.List
import Mathlib.Algebra.Order.BigOperators.Group.List
import Whereabouts.Proofs.Globe
import Whereabouts.Proofs.Fusion.Precision

/-! The share that each sighting has in an estimate. In exact arithmetic the shares are positive and
add up to one, the estimate is the mean of the sightings by their shares, and a smaller radius gets
a larger share. An estimate from several sightings is more accurate than each of them. -/
namespace Whereabouts.Fusion

variable {K : Type} [Field K]

/-- The part of an estimate that comes from a sighting. -/
def Estimate.share (e : Estimate K) (s : Sighting K) : K := e.variance / (s.radius * s.radius)

lemma Estimate.sum_share_mul (e : Estimate K) (f : Sighting K → K) (ss : List (Sighting K)) :
    (ss.map fun s => e.share s * f s).sum = precisionSum f ss * e.variance := by
  rw [precisionSum, ← List.sum_map_mul_right]
  refine congrArg List.sum (List.map_congr_left fun s _ => ?_)
  rw [share, div_mul_eq_mul_div, div_mul_eq_mul_div, mul_comm]

variable [LinearOrder K] [FloorRing K] [Transcendental K]

/-- The sum of the vectors of sightings, each times a number. -/
def combination (c : Sighting K → K) (ss : List (Sighting K)) : Geo.Vector K where
  x := (ss.map fun s => c s * s.point.toVector.x).sum
  y := (ss.map fun s => c s * s.point.toVector.y).sum
  z := (ss.map fun s => c s * s.point.toVector.z).sum

namespace Estimate

namespace Averages

variable {e : Estimate K} {ss : List (Sighting K)}

lemma variance_eq (h : e.Averages ss) : e.variance = 1 / precisionSum (fun _ => 1) ss := by
  rw [← h.precision_eq, one_div_one_div]

lemma vector_eq (h : e.Averages ss) :
    e.vector =
      { x := precisionSum (fun s => s.point.toVector.x) ss * e.variance
        y := precisionSum (fun s => s.point.toVector.y) ss * e.variance
        z := precisionSum (fun s => s.point.toVector.z) ss * e.variance } := by
  have hcoordinate {f : Geo.Vector K → K} (hf : IsCoordinate f) :
      f e.vector = precisionSum (fun s => f s.point.toVector) ss * e.variance := by
    rw [← h.coordinate_eq f hf, div_mul_cancel₀ _ h.variance_pos.ne']
  rw [← hcoordinate isCoordinate_x, ← hcoordinate isCoordinate_y, ← hcoordinate isCoordinate_z]

lemma vector_eq_combination (h : e.Averages ss) : e.vector = combination e.share ss := by
  simp only [combination, sum_share_mul, ← h.vector_eq]

lemma sum_share (h : e.Averages ss) : (ss.map e.share).sum = 1 := by
  have hsum := e.sum_share_mul (fun _ => 1) ss
  simp only [mul_one] at hsum
  rw [hsum, ← h.precision_eq, one_div_mul_cancel h.variance_pos.ne']

variable [IsStrictOrderedRing K]

lemma share_pos (h : e.Averages ss) {s : Sighting K} (hs : 0 < s.radius) : 0 < e.share s :=
  div_pos h.variance_pos (mul_pos hs hs)

lemma share_lt_share (h : e.Averages ss) {s t : Sighting K} (hs : 0 < s.radius)
    (hst : s.radius < t.radius) : e.share t < e.share s := by
  apply div_lt_div_of_pos_left h.variance_pos (mul_pos hs hs)
  exact mul_self_lt_mul_self hs.le hst

/-- One of several sightings leaves a share to the others. -/
lemma share_lt_one (h : e.Averages ss) (hpos : ∀ s ∈ ss, 0 < s.radius) (hlength : 2 ≤ ss.length)
    {s : Sighting K} (hs : s ∈ ss) : e.share s < 1 := by
  obtain ⟨before, behind, rfl⟩ := List.append_of_mem hs
  have hothers : 0 < ((before ++ behind).map e.share).sum := by
    apply List.sum_pos
    · intro x hx
      obtain ⟨t, ht, rfl⟩ := List.mem_map.mp hx
      apply h.share_pos (hpos t _)
      rcases List.mem_append.mp ht with ht | ht
      · exact List.mem_append_left _ ht
      · exact List.mem_append_right _ (List.mem_cons_of_mem _ ht)
    · intro hnil
      have hzero := congrArg List.length (List.map_eq_nil_iff.mp hnil)
      simp only [List.length_append, List.length_cons, List.length_nil] at hzero hlength
      omega
  have hsum := h.sum_share
  simp only [List.map_append, List.map_cons, List.sum_append, List.sum_cons] at hsum hothers
  linarith

lemma variance_lt (h : e.Averages ss) (hpos : ∀ s ∈ ss, 0 < s.radius) (hlength : 2 ≤ ss.length)
    {s : Sighting K} (hs : s ∈ ss) : e.variance < s.radius * s.radius := by
  have hradius := hpos s hs
  exact (div_lt_one (mul_pos hradius hradius)).mp (h.share_lt_one hpos hlength hs)

end Averages

/-- A new sighting moves an estimate a part of the way. -/
lemma gain_mem [IsStrictOrderedRing K] {variance sample : K} (hv : 0 < variance)
    (hs : 0 < sample) : gain variance sample ∈ Set.Ioo (0 : K) 1 := by
  have hsum : 0 < variance + sample := add_pos hv hs
  exact ⟨div_pos hv hsum, (div_lt_one hsum).mpr (lt_add_of_pos_right _ hs)⟩

end Estimate

/-- A vector that points somewhere has a length. -/
lemma length_pos_of_point? {v : Geo.Vector ℝ} {p : Geo.Point ℝ} (h : v.point? = some p) :
    0 < v.length := by
  have hcancelled : (0 : ℝ) < Geo.cancelledLength := by norm_num [Geo.cancelledLength]
  unfold Geo.Vector.point? at h
  by_cases hlength : Geo.cancelledLength < v.length
  · exact hcancelled.trans hlength
  · simp [hlength] at h

/-- The estimate from sightings is their mean by their precisions, a convex combination in which a
smaller radius has a larger share. Every later sighting moves it a part of the way, and all that is
divided by is positive. An estimate from several sightings is told with the root of its variance as
its accuracy, which is below the radius of each of them. -/
theorem ofSightings_weighs_by_precision {s : Sighting ℝ} {rest : List (Sighting ℝ)}
    (h : ∀ t ∈ s :: rest, 0 < t.radius) :
    let e := Estimate.ofSightings s rest
    let ss := s :: rest
    (∀ before t behind, rest = before ++ t :: behind →
      let variance := (Estimate.ofSightings s before).variance
      0 < variance + t.radius * t.radius ∧
        Estimate.gain variance (t.radius * t.radius) ∈ Set.Ioo (0 : ℝ) 1) ∧
    0 < e.variance ∧ 0 < precisionSum (fun _ => 1) ss ∧
    e.variance = 1 / precisionSum (fun _ => 1) ss ∧
    e.vector =
      { x := precisionSum (fun t => t.point.toVector.x) ss * e.variance
        y := precisionSum (fun t => t.point.toVector.y) ss * e.variance
        z := precisionSum (fun t => t.point.toVector.z) ss * e.variance } ∧
    e.vector = combination e.share ss ∧ (∀ t ∈ ss, 0 < e.share t) ∧ (ss.map e.share).sum = 1 ∧
    (∀ t ∈ ss, ∀ u ∈ ss, t.radius < u.radius → e.share u < e.share t) ∧
    (∀ p, e.vector.point? = some p → 0 < e.vector.length) ∧
    (rest ≠ [] → ∃ radius, 0 < radius ∧ radius * radius = e.variance ∧
      (∀ t ∈ ss, radius < t.radius) ∧
      estimate? ss = e.vector.point?.map fun p => (p, some radius)) := by
  intro e ss
  have haverages : e.Averages ss := Estimate.averages_ofSightings h
  refine ⟨?_, haverages.variance_pos, ?_, haverages.variance_eq, haverages.vector_eq,
    haverages.vector_eq_combination, fun t ht => haverages.share_pos (h t ht),
    haverages.sum_share, fun t ht _ _ => haverages.share_lt_share (h t ht),
    fun _ => length_pos_of_point?, fun hrest => ?_⟩
  · rintro before t behind rfl
    have hbefore : (Estimate.ofSightings s before).Averages (s :: before) := by
      apply Estimate.averages_ofSightings
      intro u hu
      exact h u (List.cons_subset_cons s (List.subset_append_left _ _) hu)
    have ht : 0 < t.radius := h t (by simp)
    have hsquare : 0 < t.radius * t.radius := mul_pos ht ht
    exact ⟨add_pos hbefore.variance_pos hsquare, Estimate.gain_mem hbefore.variance_pos hsquare⟩
  · rw [← haverages.precision_eq]
    exact one_div_pos.mpr haverages.variance_pos
  · obtain ⟨t, rest, rfl⟩ := List.exists_cons_of_ne_nil hrest
    refine ⟨Real.sqrt e.variance, Real.sqrt_pos.mpr haverages.variance_pos,
      Real.mul_self_sqrt haverages.variance_pos.le, fun u hu => ?_, rfl⟩
    rw [Real.sqrt_lt' (h u hu), sq]
    exact haverages.variance_lt h (by simp [ss]) hu

/-- Three sightings, with radii of 4, 12 and 6 meters. -/
theorem ofSightings_weighs_by_precision_three :
    let sighting (lat radius : ℝ) : Sighting ℝ := ⟨⟨lat, 11⟩, radius, some radius⟩
    let s := sighting 48 4
    let rest := [sighting 48.001 12, sighting 48.002 6]
    (∀ t ∈ s :: rest, 0 < t.radius) ∧ (Estimate.ofSightings s rest).variance = 144 / 14 := by
  intro sighting s rest
  have hpos : ∀ t ∈ s :: rest, 0 < t.radius := by simp [s, rest, sighting]
  obtain ⟨-, -, -, hvariance, -⟩ := ofSightings_weighs_by_precision hpos
  refine ⟨hpos, hvariance.trans ?_⟩
  norm_num [precisionSum, s, rest, sighting]

end Whereabouts.Fusion
