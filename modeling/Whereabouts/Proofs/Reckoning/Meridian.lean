import Whereabouts.Proofs.Reckoning.Onward

/-! What it takes to drive along a meridian. -/
namespace Whereabouts.Reckoning

/-- A street along the zero meridian. -/
noncomputable def meridianStreet (φ ψ : ℝ) : Route.Item ℝ :=
  ⟨.street, none, none, [⟨φ, 0⟩, ⟨ψ, 0⟩]⟩

/-- Ten kilometers in a second. -/
noncomputable def fast : Settings ℝ := ⟨some 36000, 3, offroadSpeed⟩

lemma validate_fast : fast.validate = .ok () := by
  have hfinite (x : ℝ) : Arith.isFinite x = true := rfl
  rw [Settings.validate_eq_ok_iff]
  simp only [fast, Option.all_some, Arith.isNonneg, Arith.isPositive, hfinite, offroadSpeed]
  norm_num

/-- The deciseconds for a degree of a meridian, at a thousand meters in each. -/
noncomputable def degreeCost : ℝ := 6371008.8 * (3.141592653589793 / 180) / 1000

lemma degreeCost_mem : degreeCost ∈ Set.Ioo 111 112 := by
  unfold degreeCost
  norm_num

lemma degreeCost_pos : 0 < degreeCost := lt_trans (by norm_num) degreeCost_mem.1

lemma cost_meridian {φ ψ : ℝ} (h : |ψ - φ| ≤ 180) (i : Nat) (road : Route.Item ℝ) :
    Leg.cost Geo.Point.distance (fast.speedOn none) ⟨i, road, ⟨φ, 0⟩, ⟨ψ, 0⟩⟩ =
      |ψ - φ| * degreeCost := by
  have hspeed : fast.speedOn none road = 36000 := by
    have hpos : (0.0 : ℝ) < 36000 := by norm_num
    unfold Settings.speedOn
    split
    · next v hv => exact (Option.some.inj (Option.filter_eq_some_iff.mp hv).1).symm
    · next hnone => exact absurd (decide_eq_true hpos) (Option.filter_eq_none_iff.mp hnone _ rfl)
  have hfactor : |Arith.radians (ψ - φ)| = |ψ - φ| * (3.141592653589793 / 180.0) := by
    rw [Arith.radians, abs_mul, abs_of_pos Geo.radians_factor_pos]
    rfl
  have hradius : (Geo.earthRadius : ℝ) = 6371008.8 := rfl
  have h180 : (180.0 : ℝ) = 180 := by norm_num
  rw [Leg.cost, hspeed, Geo.Point.distance_meridian h, hfactor, hradius, h180, degreeCost]
  ring

section

variable (rest : List (Route.Item ℝ)) {x : ℝ}

lemma snap?_meridian (hx : x ∈ Set.Icc (0 : ℝ) 1) :
    snap? ⟨meridianStreet 0 1 :: rest⟩ (some ⟨x, 0⟩) = some ⟨0, 0, ⟨x, 0⟩⟩ := by
  have hlies : (⟨x, 0⟩ : Geo.Point ℝ).Lies ⟨0, 0⟩ ⟨1, 0⟩ := ⟨x, hx, by simp [Geo.Point.towards]⟩
  obtain ⟨later, hstretches⟩ : ∃ later, stretches ⟨meridianStreet 0 1 :: rest⟩ =
      (⟨0, 0, ⟨0, 0⟩, ⟨1, 0⟩⟩ : Stretch ℝ) :: later := ⟨_, rfl⟩
  exact snap?_of_lies_head hstretches (by norm_num [Geo.Point.isValid_iff])
    (by norm_num [Geo.Point.isValid_iff]) hlies

/-- A drive that ends on the street. -/
lemma advance_meridian {l : Location ℝ} {now : Timestamp} (hx : x ∈ Set.Icc (0 : ℝ) 1)
    (hl : l.position? = some ⟨x, 0⟩) (hfix : l.fixTime ≠ Timestamp.never)
    (hnow : l.fixTime < now)
    (hbudget : Exact.deciseconds l.fixTime now < (1 - x) * degreeCost) :
    ∃ after, advance fast (some ⟨meridianStreet 0 1 :: rest⟩) none now l =
        .ok (.enRoute 0, after) ∧
      after.position? = some ⟨x + Exact.deciseconds l.fixTime now / degreeCost, 0⟩ := by
  have hc := hl ▸ snap?_meridian rest hx
  obtain ⟨road, hroad⟩ := onRoute_of_snap? hc
  obtain ⟨later, hlegs⟩ : ∃ later, legsFrom ⟨meridianStreet 0 1 :: rest⟩ ⟨0, 0, ⟨x, 0⟩⟩ =
      ⟨0, meridianStreet 0 1, ⟨x, 0⟩, ⟨1, 0⟩⟩ :: later := ⟨_, rfl⟩
  have habs : |1 - x| = 1 - x := abs_of_nonneg (sub_nonneg.mpr hx.2)
  have hcost := cost_meridian (by rw [habs]; linarith [hx.1]) 0 (meridianStreet 0 1)
  rw [habs] at hcost
  have hstop : StopsIn (Leg.cost Geo.Point.distance (fast.speedOn none))
      (legsFrom ⟨meridianStreet 0 1 :: rest⟩ ⟨0, 0, ⟨x, 0⟩⟩)
      (Exact.deciseconds l.fixTime now) 0 := by
    rw [hlegs, stopsIn_cons_zero, hcost]
    exact hbudget
  have hg : (legsFrom ⟨meridianStreet 0 1 :: rest⟩ ⟨0, 0, ⟨x, 0⟩⟩)[0]? =
      some ⟨0, meridianStreet 0 1, ⟨x, 0⟩, ⟨1, 0⟩⟩ := by
    rw [hlegs]
    rfl
  obtain ⟨after, hafter, hposition, -⟩ :=
    advanceBy_of_stopsIn Geo.Point.distance hfix hnow hc hroad hg hstop
  refine ⟨after, hafter, hposition.trans ?_⟩
  have hleft : 1 - x ≠ 0 := by
    intro hzero
    rw [hzero, zero_mul] at hbudget
    exact absurd (Exact.deciseconds_pos hnow) (not_lt.mpr hbudget.le)
  rw [partOf, spent_zero, sub_zero, hcost, Geo.Point.towards, div_mul_eq_div_div_swap,
    mul_div_cancel₀ _ hleft, sub_zero, zero_mul, add_zero]

end

end Whereabouts.Reckoning
