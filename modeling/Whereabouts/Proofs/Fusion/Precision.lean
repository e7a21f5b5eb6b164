import Mathlib.Algebra.BigOperators.Group.List.Basic
import Mathlib.Tactic.FieldSimp
import Mathlib.Tactic.Ring
import Whereabouts.Fusion.Estimate
import Whereabouts.Proofs.Exact

/-! In exact arithmetic the running estimate is the mean of all sightings, each weighed by its
precision, the inverse square of its radius. The precision of the mean is the sum of theirs. -/
namespace Whereabouts

variable {K : Type} [Field K]

namespace Fusion

/-- The sum of a quantity over sightings, each times its precision. -/
def precisionSum (f : Sighting K → K) (ss : List (Sighting K)) : K :=
  (ss.map fun s => f s / (s.radius * s.radius)).sum

lemma precisionSum_singleton (f : Sighting K → K) (s : Sighting K) :
    precisionSum f [s] = f s / (s.radius * s.radius) := by
  simp [precisionSum]

lemma precisionSum_append (f : Sighting K → K) (ss : List (Sighting K)) (s : Sighting K) :
    precisionSum f (ss ++ [s]) = precisionSum f ss + f s / (s.radius * s.radius) := by
  simp [precisionSum]

lemma precisionSum_perm (f : Sighting K → K) {ss ss' : List (Sighting K)} (h : ss.Perm ss') :
    precisionSum f ss = precisionSum f ss' :=
  (h.map _).sum_eq

end Fusion

variable [LinearOrder K] [FloorRing K] [Transcendental K]

namespace Fusion

/-- A coordinate of vectors, which a blend of vectors blends by itself. -/
def IsCoordinate (f : Geo.Vector K → K) : Prop :=
  ∀ (v w : Geo.Vector K) (k : K), f (v.blend w k) = (1.0 - k) * f v + k * f w

lemma isCoordinate_x : IsCoordinate (Geo.Vector.x (R := K)) := fun _ _ _ => rfl

lemma isCoordinate_y : IsCoordinate (Geo.Vector.y (R := K)) := fun _ _ _ => rfl

lemma isCoordinate_z : IsCoordinate (Geo.Vector.z (R := K)) := fun _ _ _ => rfl

end Fusion

variable [IsStrictOrderedRing K]

lemma Location.weighingRadius_pos (l : Location K) : 0 < l.weighingRadius := by
  have hone : (0 : K) < 1.0 := by norm_num
  have hfifty : (0 : K) < 50.0 := by norm_num
  unfold weighingRadius
  cases l.accuracy? with
  | none => exact hfifty
  | some r =>
    change (0 : K) < if (1.0 : K) < r then r else 1.0
    split_ifs with h
    · exact hone.trans h
    · exact hone

namespace Fusion.Estimate

/-- The mean of sightings by their precisions. -/
structure Averages (e : Estimate K) (ss : List (Sighting K)) : Prop where
  variance_pos : 0 < e.variance
  precision_eq : 1 / e.variance = precisionSum (fun _ => 1) ss
  coordinate_eq : ∀ f, IsCoordinate f →
    f e.vector / e.variance = precisionSum (fun s => f s.point.toVector) ss

lemma averages_seed {s : Sighting K} (hs : 0 < s.radius) :
    (seed s.point.toVector s.radius).Averages [s] :=
  ⟨mul_pos hs hs, (precisionSum_singleton (fun _ => 1) s).symm,
    fun f _ => (precisionSum_singleton (fun s => f s.point.toVector) s).symm⟩

theorem Averages.absorb {e : Estimate K} {ss : List (Sighting K)} (h : e.Averages ss)
    {s : Sighting K} (hs : 0 < s.radius) :
    (e.absorb s.point.toVector s.radius).Averages (ss ++ [s]) := by
  obtain ⟨hpos, hprecision, hcoordinate⟩ := h
  have hone : (1.0 : K) = 1 := by norm_num
  have hq : 0 < s.radius * s.radius := mul_pos hs hs
  have hgain : gain e.variance (s.radius * s.radius) =
      e.variance / (e.variance + s.radius * s.radius) := rfl
  have hvariance : (e.absorb s.point.toVector s.radius).variance =
      e.variance * (1.0 - gain e.variance (s.radius * s.radius)) := rfl
  have hvector : (e.absorb s.point.toVector s.radius).vector =
      e.vector.blend s.point.toVector (gain e.variance (s.radius * s.radius)) := rfl
  have hsplit : (e.absorb s.point.toVector s.radius).variance =
      e.variance * (s.radius * s.radius) / (e.variance + s.radius * s.radius) := by
    rw [hvariance, hgain, hone]
    field_simp
    ring
  refine ⟨?_, ?_, fun f hf => ?_⟩
  · rw [hsplit]
    positivity
  · rw [precisionSum_append, ← hprecision, hsplit]
    field_simp
    ring
  · rw [precisionSum_append, ← hcoordinate f hf, hsplit, hvector, hf, hgain, hone]
    field_simp
    ring

theorem averages_ofSightings {s : Sighting K} {rest : List (Sighting K)}
    (h : ∀ t ∈ s :: rest, 0 < t.radius) : (ofSightings s rest).Averages (s :: rest) := by
  obtain ⟨hs, hrest⟩ := List.forall_mem_cons.mp h
  have hfold {e : Estimate K} {ss : List (Sighting K)} (he : e.Averages ss) :
      (rest.foldl (fun e t => e.absorb t.point.toVector t.radius) e).Averages (ss ++ rest) := by
    induction rest generalizing e ss with
    | nil => simpa using he
    | cons t rest ih =>
      obtain ⟨ht, hrest⟩ := List.forall_mem_cons.mp hrest
      simpa using ih (List.forall_mem_cons.mpr ⟨hs, hrest⟩) hrest (he.absorb ht)
  exact hfold (averages_seed hs)

omit [IsStrictOrderedRing K] in
/-- The sightings determine their mean, in whatever order they come. -/
theorem Averages.unique {e e' : Estimate K} {ss ss' : List (Sighting K)} (h : e.Averages ss)
    (h' : e'.Averages ss') (hperm : ss.Perm ss') : e = e' := by
  have hvariance : e.variance = e'.variance := by
    have := h.precision_eq.trans ((precisionSum_perm _ hperm).trans h'.precision_eq.symm)
    exact inv_injective (by simpa using this)
  have hcoordinate {f : Geo.Vector K → K} (hf : IsCoordinate f) : f e.vector = f e'.vector := by
    have := (h.coordinate_eq f hf).trans
      ((precisionSum_perm _ hperm).trans (h'.coordinate_eq f hf).symm)
    rwa [hvariance, div_left_inj' h'.variance_pos.ne'] at this
  obtain ⟨⟨x, y, z⟩, p⟩ := e
  obtain ⟨⟨x', y', z'⟩, p'⟩ := e'
  obtain rfl : p = p' := hvariance
  obtain rfl : x = x' := hcoordinate isCoordinate_x
  obtain rfl : y = y' := hcoordinate isCoordinate_y
  obtain rfl : z = z' := hcoordinate isCoordinate_z
  rfl

end Fusion.Estimate
end Whereabouts
