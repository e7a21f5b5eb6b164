import Mathlib.Analysis.SpecialFunctions.Trigonometric.Basic
import Whereabouts.Proofs.Fusion.Leaders
import Whereabouts.Proofs.Fusion.Shares

/-! The accuracy that a pass tells. A single leader of the position hands on its own one, if it has
any. Several leaders always get one, that of their estimate: where none of them told an accuracy, it
is made of the radius that is assumed for them. -/
namespace Whereabouts

namespace Geo

lemma Point.length_toVector (p : Point ℝ) : p.toVector.length = 1 := by
  have hunit : p.toVector.x * p.toVector.x + p.toVector.y * p.toVector.y +
      p.toVector.z * p.toVector.z = 1 := by
    have hlat := Real.sin_sq_add_cos_sq (Arith.radians p.lat)
    have hlng := Real.sin_sq_add_cos_sq (Arith.radians p.lng)
    change Real.cos _ * Real.cos _ * (Real.cos _ * Real.cos _) +
      Real.cos _ * Real.sin _ * (Real.cos _ * Real.sin _) + Real.sin _ * Real.sin _ = 1
    linear_combination hlat + Real.cos (Arith.radians p.lat) ^ 2 * hlng
  exact (congrArg Real.sqrt hunit).trans Real.sqrt_one

lemma Vector.blend_self (v : Vector ℝ) (k : ℝ) : v.blend v k = v := by
  have hone : (1.0 : ℝ) = 1 := by norm_num
  have hpart (x : ℝ) : (1.0 - k) * x + k * x = x := by
    rw [hone]
    ring
  rw [blend, hpart, hpart, hpart]

/-- The vector of a point points somewhere. -/
lemma Point.point?_toVector_ne_none (p : Point ℝ) : p.toVector.point? ≠ none := by
  have hlength : (cancelledLength : ℝ) < p.toVector.length := by
    rw [length_toVector]
    norm_num [cancelledLength]
  simp [Vector.point?, hlength]

end Geo

namespace Fusion

section

variable {R : Type} [Arith R]

lemma accuracy_of_several {s t : Sighting R} {ss : List (Sighting R)} {p : Geo.Point R}
    {accuracy : Option R} (h : estimate? (s :: t :: ss) = some (p, accuracy)) :
    accuracy = some (Arith.sqrt (Estimate.ofSightings s (t :: ss)).variance) := by
  obtain ⟨q, -, hq⟩ := Option.map_eq_some_iff.mp h
  exact (Prod.mk.inj hq).2.symm

/-- Only a single sighting is left without an accuracy, when it told none. -/
lemma accuracy_eq_none_iff {ss : List (Sighting R)} {p : Geo.Point R} {accuracy : Option R}
    (h : estimate? ss = some (p, accuracy)) :
    accuracy = none ↔ ∃ s, ss = [s] ∧ s.accuracy = none := by
  match ss with
  | [] => cases h
  | [s] =>
    obtain ⟨-, rfl⟩ := Prod.mk.inj (Option.some.inj h)
    simp
  | s :: t :: ss => simp [accuracy_of_several h]

/-- A pass tells the estimate of its leaders. -/
lemma merge_tells_estimate {raw : List (Location R)} {p : Geo.Point R} {accuracy : Option R}
    (h : estimate? ((leaders .position raw).map sightingOf) = some (p, accuracy))
    (fused : Location R) :
    (merge raw fused).position? = some p ∧ (merge raw fused).accuracy? = accuracy := by
  rw [position?_merge, accuracy?_merge, contributors_eq_leaders, sightings_leaders, h]
  exact ⟨rfl, rfl⟩

end

variable {K : Type} [Field K]

lemma precisionSum_of_radius {r : K} {ss : List (Sighting K)} (h : ∀ s ∈ ss, s.radius = r) :
    precisionSum (fun _ => 1) ss = ss.length / (r * r) := by
  have hsame : ∀ x ∈ ss.map (fun s => 1 / (s.radius * s.radius)), x = 1 / (r * r) := by
    intro x hx
    obtain ⟨s, hs, rfl⟩ := List.mem_map.mp hx
    rw [h s hs]
  rw [precisionSum, List.sum_eq_card_nsmul _ _ hsame, List.length_map, nsmul_eq_mul, mul_one_div]

/-- Many sightings of one radius are told with that radius over the root of their number. -/
lemma sqrt_variance_of_radius {r : ℝ} (hr : 0 < r) {s : Sighting ℝ} {rest : List (Sighting ℝ)}
    (h : ∀ t ∈ s :: rest, t.radius = r) :
    Real.sqrt (Estimate.ofSightings s rest).variance = r / Real.sqrt (s :: rest).length := by
  have haverages := Estimate.averages_ofSightings fun t ht => (h t ht).symm ▸ hr
  rw [haverages.variance_eq, precisionSum_of_radius h, one_div_div,
    Real.sqrt_div (mul_self_nonneg r), Real.sqrt_mul_self hr.le]

/-- Sightings in one place do not cancel out. -/
lemma estimate?_pair_ne_none {s t : Sighting ℝ} (h : t.point = s.point) :
    estimate? [s, t] ≠ none := by
  have hvector : (Estimate.ofSightings s [t]).vector = s.point.toVector := by
    change s.point.toVector.blend t.point.toVector _ = _
    rw [h, Geo.Vector.blend_self]
  have hestimate : estimate? [s, t] = (Estimate.ofSightings s [t]).vector.point?.map fun p =>
      (p, some (Real.sqrt (Estimate.ofSightings s [t]).variance)) := rfl
  rw [hestimate, hvector, Ne, Option.map_eq_none_iff]
  exact s.point.point?_toVector_ne_none

/-- Several leaders that told no accuracy get the radius that is assumed for each of them, over the
root of their number. -/
theorem accuracy?_merge_of_unknown {raw : List (Location ℝ)}
    (hlength : 2 ≤ (leaders .position raw).length)
    (hnone : ∀ l ∈ leaders .position raw, l.accuracy? = none)
    (hestimate : estimate? ((leaders .position raw).map sightingOf) ≠ none) (fused : Location ℝ) :
    (merge raw fused).accuracy? = some (50 / Real.sqrt (leaders .position raw).length) := by
  obtain ⟨⟨p, accuracy⟩, h⟩ := Option.ne_none_iff_exists'.mp hestimate
  rw [(merge_tells_estimate h fused).2]
  have hradius : ∀ t ∈ (leaders .position raw).map sightingOf, t.radius = 50 := by
    intro t ht
    obtain ⟨l, hl, rfl⟩ := List.mem_map.mp ht
    have hfifty : (50.0 : ℝ) = 50 := by norm_num
    simp only [sightingOf, Location.weighingRadius, hnone l hl, Location.unknownRadius, hfifty]
  generalize leaders .position raw = ls at hlength hradius h
  obtain _ | ⟨l, _ | ⟨m, rest⟩⟩ := ls
  · simp at hlength
  · simp at hlength
  · rw [accuracy_of_several h, ← List.length_map (f := sightingOf)]
    exact congrArg some (sqrt_variance_of_radius (by norm_num) hradius)

/-- A pass that sets the position leaves it without an accuracy exactly if a single location leads
it and told none. -/
theorem accuracy_is_assumed_of_several {R : Type} [Arith R] (s : Settings R)
    (raw : List (Location R)) (fused : Location R) {p : Geo.Point R} {accuracy : Option R}
    (h : estimate? ((leaders .position raw).map sightingOf) = some (p, accuracy)) :
    let after := (pass s raw fused).1
    after.position? = some p ∧ after.accuracy? = accuracy ∧
      (after.accuracy? = none ↔ ∃ l, leaders .position raw = [l] ∧ l.accuracy? = none) := by
  intro after
  obtain ⟨hposition, haccuracy⟩ : after.position? = some p ∧ after.accuracy? = accuracy :=
    merge_tells_estimate h fused
  refine ⟨hposition, haccuracy, ?_⟩
  rw [haccuracy, accuracy_eq_none_iff h]
  simp only [List.map_eq_singleton_iff]
  constructor
  · rintro ⟨_, ⟨l, hl, rfl⟩, hnone⟩
    exact ⟨l, hl, hnone⟩
  · rintro ⟨l, hl, hnone⟩
    exact ⟨sightingOf l, ⟨l, hl, rfl⟩, hnone⟩

/-- A fix without an accuracy by itself, and twice. -/
theorem accuracy_is_assumed_of_several_two :
    let fix : Location ℝ := { (Location.blank .high).setPosition ⟨48, 11⟩ with validity := .valid }
    let after (raw : List (Location ℝ)) := (pass {} raw (Location.blank .low)).1
    (after [fix]).position? = some ⟨48, 11⟩ ∧ (after [fix]).accuracy? = none ∧
      (after [fix, fix]).accuracy? ≠ none := by
  intro fix after
  have halone : estimate? ((leaders .position [fix]).map sightingOf) = some (⟨48, 11⟩, none) := by
    with_unfolding_all rfl
  have hleaders : leaders .position [fix, fix] = [fix, fix] := by with_unfolding_all rfl
  have hestimate : estimate? ((leaders .position [fix, fix]).map sightingOf) ≠ none := by
    rw [hleaders]
    exact estimate?_pair_ne_none rfl
  obtain ⟨⟨p, accuracy⟩, htwo⟩ := Option.ne_none_iff_exists'.mp hestimate
  obtain ⟨hposition, haccuracy, -⟩ :=
    accuracy_is_assumed_of_several {} [fix] (Location.blank .low) halone
  obtain ⟨-, -, hnone⟩ := accuracy_is_assumed_of_several {} [fix, fix] (Location.blank .low) htwo
  refine ⟨hposition, haccuracy, hnone.not.mpr ?_⟩
  rintro ⟨l, hl, -⟩
  simp [hleaders] at hl

/-- Two fixes on the equator that told no accuracy make a fused position with one. -/
theorem unknown_accuracies_make_one :
    let fix : Location ℝ := { (Location.blank .high).setPosition ⟨0, 0⟩ with validity := .valid }
    let raw := [fix, fix]
    let after := (pass {} raw (Location.blank .low)).1
    leaders .position raw ≠ [] ∧ (∀ l ∈ leaders .position raw, l.accuracy? = none) ∧
      estimate? ((leaders .position raw).map sightingOf) ≠ none ∧
      after.accuracy? = some (50 / Real.sqrt 2) := by
  intro fix raw after
  have hleaders : leaders .position raw = raw := by with_unfolding_all rfl
  have hfix : fix.accuracy? = none := by with_unfolding_all rfl
  have hnone : ∀ l ∈ leaders .position raw, l.accuracy? = none := by simp [hleaders, raw, hfix]
  have hestimate : estimate? ((leaders .position raw).map sightingOf) ≠ none := by
    rw [hleaders]
    exact estimate?_pair_ne_none rfl
  have haccuracy : after.accuracy? = some (50 / Real.sqrt (leaders .position raw).length) :=
    accuracy?_merge_of_unknown (by simp [hleaders, raw]) hnone hestimate (Location.blank .low)
  exact ⟨by simp [hleaders, raw], hnone, hestimate, by simpa [hleaders, raw] using haccuracy⟩

end Fusion
end Whereabouts
