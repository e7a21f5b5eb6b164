import Whereabouts.Proofs.Geo.Bearing
import Whereabouts.Proofs.Globe
import Whereabouts.Proofs.Store.Run

/-! The mean of several directions is a direction in the full circle. Directions that are no numbers
leave no mean, since no length is compared with what they add up to. -/
namespace Whereabouts.Fusion

open Arith

/-- Several directions have the mean that their sum points to. -/
lemma heading?_eq_some {R : Type} [Arith R] {ss : List (Sample R)} (hmany : 2 ≤ ss.length) {h : R}
    (hh : heading? ss = some h) :
    let north := weightedSum (fun s => cos (radians s.value)) ss
    let east := weightedSum (fun s => sin (radians s.value)) ss
    totalWeight ss * cancelledPart < hypot north east ∧
      h = Geo.wrap (degrees (atan2 east north)) := by
  match ss with
  | [] => exact absurd hmany (Nat.not_succ_le_zero 1)
  | [_] => exact absurd hmany (Nat.not_succ_le_self 1)
  | s :: t :: ss =>
    simp only [heading?] at hh
    split_ifs at hh with hlong
    exact ⟨hlong, (Option.some.inj hh).symm⟩

open Binary64

variable {f : Sample Float → Float} {ss : List (Sample Float)}

/-- No sum of finite numbers is NaN, though it may be too large. -/
lemma isNaN_weightedSum (h : ∀ s ∈ ss, (s.weight * f s).isFinite = true) :
    (weightedSum f ss).isNaN = false := by
  have hfold (sum : Float) (hsum : sum.isNaN = false) :
      (ss.foldl (fun sum s => sum + s.weight * f s) sum).isNaN = false := by
    induction ss generalizing sum with
    | nil => exact hsum
    | cons s ss ih =>
      obtain ⟨hs, hss⟩ := List.forall_mem_cons.mp h
      exact ih hss _ (isNaN_add hsum hs)
  exact hfold 0.0 (by decide)

/-- One NaN makes the whole sum NaN. -/
lemma weightedSum_eq_nan {s : Sample Float} (hs : s ∈ ss) (h : f s = nan) :
    weightedSum f ss = nan := by
  have hrest (ss : List (Sample Float)) :
      ss.foldl (fun sum s => sum + s.weight * f s) nan = nan := by
    induction ss with
    | nil => rfl
    | cons t ss ih => rw [List.foldl_cons, nan_add, ih]
  obtain ⟨front, back, rfl⟩ := List.append_of_mem hs
  rw [weightedSum, List.foldl_append, List.foldl_cons, h, mul_nan, add_nan, hrest]

variable {m : Elementary}

lemma inCircle_heading (hm : m.Documented) (hradius : ∀ s ∈ ss, 1.0 ≤ s.radius)
    (hmany : 2 ≤ ss.length) {h : Float} :
    let _ := m.arith
    heading? ss = some h → Geo.InCircle h := by
  intro arith hh
  obtain ⟨hlong, rfl⟩ := heading?_eq_some hmany hh
  have hweight {s : Sample Float} (hs : s ∈ ss) : Within (-51) s.weight :=
    within_inverse (hradius s hs)
  by_cases hfinite : ∀ s ∈ ss, (radians s.value).isFinite = true
  · have heast := isNaN_weightedSum (f := fun s => m.sin (radians s.value)) fun s hs =>
      (within_mul (k := -49) (hweight hs) (Geo.within_sin hm (hfinite s hs)) (by decide) (by decide)
        (by decide)).isFinite
    have hnorth := isNaN_weightedSum (f := fun s => m.cos (radians s.value)) fun s hs =>
      (within_mul (k := -49) (hweight hs) (Geo.within_cos hm (hfinite s hs)) (by decide) (by decide)
        (by decide)).isFinite
    exact Geo.inCircle_atan2 hm heast hnorth
  · -- NaN is not longer than anything
    obtain ⟨s, hs, hvalue⟩ : ∃ s ∈ ss, (radians s.value).isFinite = false := by
      simpa using hfinite
    have heast : weightedSum (fun s => m.sin (radians s.value)) ss = nan :=
      weightedSum_eq_nan hs (eq_nan (hm.sin_of_infinite _ hvalue))
    have hnorth : weightedSum (fun s => m.cos (radians s.value)) ss = nan :=
      weightedSum_eq_nan hs (eq_nan (hm.cos_of_infinite _ hvalue))
    have hlength : Binary64.hypot nan nan = nan := by decide
    change _ < Binary64.hypot (weightedSum (fun s => m.cos (radians s.value)) ss)
      (weightedSum (fun s => m.sin (radians s.value)) ss) at hlong
    rw [hnorth, heast, hlength] at hlong
    exact absurd hlong (not_lt_nan _)

lemma one_le_radius_of_mem_samples {get? : Location Float → Option Float}
    {ls : List (Location Float)} {s : Sample Float} (hs : s ∈ samples get? ls) :
    1.0 ≤ s.radius := by
  obtain ⟨l, -, hl⟩ := List.mem_filterMap.mp hs
  obtain ⟨v, -, rfl⟩ := Option.map_eq_some_iff.mp hl
  exact l.one_le_weighingRadius

/-- Angles are wrapped into the full circle. In exact arithmetic this takes whole turns from them,
changes nothing when it is done again, and makes two angles the same exactly if they are whole turns
apart. In binary64 the remainder is exact and the sum after it is rounded: this keeps any finite
angle in the circle, and what is said of whole turns holds up to the rounding. So bearings between
points and means of several directions lie in the circle, in either arithmetic. A bearing may also
be NaN, but not between points on the globe. -/
theorem bearings_are_wrapped {K : Type} [Field K] [LinearOrder K] [IsStrictOrderedRing K]
    [FloorRing K] [Transcendental K] (m : Elementary) (hm : m.Documented) :
    ((∀ x : K, Geo.wrap x ∈ Set.Ico 0 360 ∧ (∃ k : ℤ, x - Geo.wrap x = 360 * k) ∧
        Geo.wrap (Geo.wrap x) = Geo.wrap x) ∧
      (∀ x y : K, Geo.wrap x = Geo.wrap y ↔ ∃ k : ℤ, x - y = 360 * k) ∧
      (∀ p q : Geo.Point K, p.bearing q ∈ Set.Ico 0 360) ∧
      ∀ ss : List (Sample K), 2 ≤ ss.length → ∀ h, heading? ss = some h → h ∈ Set.Ico 0 360) ∧
    let _ := m.arith
    (∀ x : Float, x.isFinite = true →
      value (Arith.fmod x 360.0) = Exact.remainder (value x) 360 ∧ Geo.InCircle (Geo.wrap x) ∧
      Geo.wrap (Geo.wrap x) = Geo.wrap x ∧
      ∃ k : ℤ, |value x - value (Geo.wrap x) - 360 * k| ≤ 2 ^ (-44 : ℤ)) ∧
    (∀ x y : Float, x.isFinite = true → y.isFinite = true →
      ((∃ k : ℤ, value x - value y = 360 * k) → (Geo.wrap x == Geo.wrap y) = true) ∧
      ((Geo.wrap x == Geo.wrap y) = true →
        ∃ k : ℤ, |value x - value y - 360 * k| ≤ 2 ^ (-43 : ℤ))) ∧
    (∀ p q : Geo.Point Float, ((p.bearing q).isNaN = true ∨ Geo.InCircle (p.bearing q)) ∧
      (p.lat.isFinite = true → q.lat.isFinite = true → (q.lng - p.lng).isFinite = true →
        Geo.InCircle (p.bearing q)) ∧
      (p.isValid = true → q.isValid = true → Geo.InCircle (p.bearing q))) ∧
    ∀ ls : List (Location Float), 2 ≤ (samples Location.bearing? ls).length →
      ∀ h, heading? (samples Location.bearing? ls) = some h → Geo.InCircle h := by
  refine ⟨⟨fun x => ⟨Geo.wrap_mem x, Geo.exists_sub_wrap x, Geo.wrap_wrap x⟩, Geo.wrap_eq_wrap_iff,
    fun p q => Geo.wrap_mem _, fun ss hmany h hh => ?_⟩, ?_⟩
  · rw [(heading?_eq_some hmany hh).2]
    exact Geo.wrap_mem _
  intro arith
  refine ⟨fun x hx => ?_, fun x y hx hy => ?_, fun p q => ?_, fun ls hmany h => ?_⟩
  · have hcircle := Geo.inCircle_wrap hx
    exact ⟨(Geo.fmod_circle hx).2.1, hcircle, Geo.wrap_eq_self hcircle,
      Geo.exists_abs_sub_wrap_le hx⟩
  · exact ⟨Geo.wrap_beq_wrap hx hy, Geo.exists_abs_sub_le_of_wrap_beq hx hy⟩
  · refine ⟨Geo.isNaN_or_inCircle_wrap _, Geo.inCircle_bearing hm, fun hp hq => ?_⟩
    obtain ⟨hplat, hqlat, hturn⟩ := Geo.isFinite_of_isValid hp hq
    exact Geo.inCircle_bearing hm hplat hqlat hturn
  · exact inCircle_heading hm (fun s => one_le_radius_of_mem_samples) hmany

/-- An angle so little below zero that the sum is rounded to the full circle. -/
theorem bearings_are_wrapped_below_zero :
    let m : Elementary := ⟨
      fun x => if x.isFinite then if x < 0.0 then -1.7453292519943296e-22 else 0.0 else nan,
      fun x => if x.isFinite then 1.0 else nan,
      fun y _ => if y < 0.0 then -8.726646259971648e-23 else 0.0⟩
    let _ := m.arith
    let source (degrees : Float) : Location Float := (Location.blank .high).setBearing degrees
    let ls := [source 0.0, source (-1e-20)]
    m.Documented ∧ (∃ k : ℤ, (-1e-20 : ℝ) - Geo.wrap (-1e-20 : ℝ) = 360 * k) ∧
      (-1e-20 : Float) + 360.0 = 360.0 ∧ Geo.InCircle (Geo.wrap (-1e-20)) ∧
      2 ≤ (samples Location.bearing? ls).length ∧
      ∃ h, heading? (samples Location.bearing? ls) = some h ∧ Geo.InCircle h := by
  intro m
  have hm : m.Documented := by
    refine ⟨fun x hx => ?_, fun x hx => ?_, fun x hx => ?_, fun x hx => ?_, fun y x _ _ => ?_⟩
    · change -1.0 ≤ (if x.isFinite then _ else _) ∧ (if x.isFinite then _ else _) ≤ (1.0 : Float)
      rw [if_pos hx]
      split_ifs <;> decide
    · change -1.0 ≤ (if x.isFinite then _ else _) ∧ (if x.isFinite then _ else _) ≤ (1.0 : Float)
      rw [if_pos hx]
      decide
    · change (if x.isFinite then _ else nan).isNaN = true
      rw [hx]
      change nan.isNaN = true
      decide
    · change (if x.isFinite then _ else nan).isNaN = true
      rw [hx]
      change nan.isNaN = true
      decide
    · change -pi ≤ (if y < 0.0 then -8.726646259971648e-23 else 0.0) ∧
        (if y < 0.0 then -8.726646259971648e-23 else 0.0) ≤ (pi : Float)
      split_ifs <;> decide
  intro _ source ls
  obtain ⟨⟨hexact, -⟩, hfloat, -, -, hheading⟩ := bearings_are_wrapped (K := ℝ) m hm
  obtain ⟨-, hcircle, -⟩ := hfloat (-1e-20) (by decide)
  have hmany : 2 ≤ (samples Location.bearing? ls).length := by decide +kernel
  have hreported : (heading? (samples Location.bearing? ls)).isSome = true := by decide +kernel
  obtain ⟨h, hh⟩ := Option.isSome_iff_exists.mp hreported
  exact ⟨hm, (hexact _).2.1, by decide, hcircle, hmany, h, hh, hheading ls hmany h hh⟩

end Whereabouts.Fusion
