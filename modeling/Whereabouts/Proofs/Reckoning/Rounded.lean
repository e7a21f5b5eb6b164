import Whereabouts.Proofs.Geo.Rounded
import Whereabouts.Proofs.Reckoning.OnGlobe

/-! Moves along routes on the globe in binary64: they leave it at most by rounding. From a start
that is no point every leg is endless or of no known length, so that it is passed and the move ends
at a point of the route. -/
namespace Whereabouts.Reckoning
open Binary64 Geo

/-- Time that is left is not below zero, if it is a number. -/
def Remaining (left : Float) : Prop := left.isNaN = true ∨ 0.0 ≤ left

lemma isNonneg_of_isPositive {x : Float} (hx : Arith.isPositive x = true) :
    Arith.isNonneg x = true := by
  have hfinite : x.isFinite = true := Arith.isFinite_of_isPositive hx
  have hpos : 0.0 < x := Arith.lt_of_isPositive hx
  have hneg : ¬ x < 0.0 := by
    rw [lt_iff_value hfinite isFinite_zero, not_lt]
    exact ((lt_iff_value isFinite_zero hfinite).mp hpos).le
  exact Bool.and_eq_true_iff.mpr ⟨hfinite, by simpa using hneg⟩

variable {m : Elementary}

/-- A walk on the globe starts at no point or near the globe. -/
lemma isNaN_or_nearGlobe_of_onSegment {p : Point Float} :
    let _ := m.arith
    OnSegment p → p.lat.isNaN = true ∨ p.NearGlobe (2 ^ (-41 : ℤ)) := by
  rintro arith (hp | ⟨q, a, b, ha, hb, rfl⟩)
  · exact .inr ((Point.nearGlobe_of_isValid hp).mono (by positivity))
  · exact Point.isNaN_or_nearGlobe_project m q ha hb

/-- Only a leg with a length stops a walk. -/
lemma nearGlobe_of_onSegment (hm : m.Strict) {start goal : Point Float} {left speed : Float} :
    let _ := m.arith
    OnSegment start → left < legTime (start.distance goal) speed →
      start.NearGlobe (2 ^ (-41 : ℤ)) := by
  intro arith hstart hlt
  refine (isNaN_or_nearGlobe_of_onSegment hstart).resolve_left fun hnan => ?_
  have hdistance := eq_nan (Point.isNaN_distance hm hnan goal)
  have htime : legTime (start.distance goal) speed = nan := by
    rw [hdistance, legTime]
    change nan / (speed / kmhPerMps) * _ = nan
    rw [nan_div, nan_mul]
  rw [htime] at hlt
  exact not_lt_nan left hlt

/-- Each of the two roundings of a position, of the start and of the point on the leg, moves it by
little. -/
theorem confined_nearGlobe (hm : m.Strict) :
    let _ := m.arith
    Confined (Point.NearGlobe (2 ^ (-40 : ℤ))) Remaining := by
  intro arith
  refine ⟨isFinite_zero, fun x => isNonneg_of_isPositive,
    fun p hp => (Point.nearGlobe_of_isValid hp).mono (by positivity),
    fun time hpos => .inr (le_of_lt hpos), fun left time => isNaN_or_zero_le_sub, ?_⟩
  intro start goal left speed hstart hgoal hleft hlt
  have hnear := nearGlobe_of_onSegment hm hstart hlt
  have hgoal : goal.NearGlobe (2 ^ (-41 : ℤ)) :=
    (Point.nearGlobe_of_isValid hgoal).mono (by positivity)
  have hnumber : ¬ left.isNaN = true := by
    intro hnan
    rw [eq_nan hnan] at hlt
    exact not_nan_lt _ hlt
  obtain ⟨hfinite, hnonneg, hle⟩ := div_mem_unit (hleft.resolve_left hnumber) hlt
  have htowards := Point.nearGlobe_towards (by norm_num) hnear hgoal ⟨hfinite, hnonneg, hle⟩
  refine ⟨htowards.mono (by norm_num), ?_⟩
  exact (Point.inCircle_bearing_of_nearGlobe hm.toDocumented (by norm_num) hnear hgoal).isFinite

end Whereabouts.Reckoning
