import Mathlib.Algebra.Order.BigOperators.Group.List
import Mathlib.Data.List.MinMax
import Mathlib.Tactic.FieldSimp
import Mathlib.Tactic.Linarith
import Mathlib.Tactic.Ring
import Whereabouts.Proofs.Fusion.Leaders
import Whereabouts.Proofs.Fusion.Precision
import Whereabouts.Proofs.Globe

/-! In exact arithmetic a mean of numbers is the sum of all of them, each divided by its radius,
over the sum of the inverse radii. It lies among the numbers, strictly unless all are equal, and of
two numbers it is closer to the one with the smaller radius. -/
namespace Whereabouts.Fusion

/-- A number is neither below the smallest nor above the largest of some others, and is none of
these two unless they are equal. -/
def Amid {K : Type} [LinearOrder K] (vs : List K) (m : K) : Prop :=
  ∃ lo ∈ vs, ∃ hi ∈ vs, (∀ v ∈ vs, lo ≤ v ∧ v ≤ hi) ∧ lo ≤ m ∧ m ≤ hi ∧
    (lo ≠ hi → lo < m ∧ m < hi)

variable {K : Type} [Field K]

/-- The sum of a quantity over samples, each divided by its radius. -/
def radiusSum (f : Sample K → K) (ss : List (Sample K)) : K :=
  (ss.map fun s => f s / s.radius).sum

@[simp] lemma radiusSum_nil (f : Sample K → K) : radiusSum f [] = 0 := rfl

@[simp] lemma radiusSum_cons (f : Sample K → K) (s : Sample K) (ss : List (Sample K)) :
    radiusSum f (s :: ss) = f s / s.radius + radiusSum f ss := List.sum_cons

lemma radiusSum_sub (f g : Sample K → K) (ss : List (Sample K)) :
    radiusSum (fun s => f s - g s) ss = radiusSum f ss - radiusSum g ss := by
  induction ss with
  | nil => simp
  | cons s ss ih =>
    simp only [radiusSum_cons, ih]
    ring

lemma radiusSum_perm (f : Sample K → K) {ss ss' : List (Sample K)} (h : ss.Perm ss') :
    radiusSum f ss = radiusSum f ss' :=
  (h.map _).sum_eq

lemma radiusSum_const (c : K) (ss : List (Sample K)) :
    radiusSum (fun _ => c) ss = c * radiusSum (fun _ => 1) ss := by
  induction ss with
  | nil => simp
  | cons s ss ih =>
    simp only [radiusSum_cons, ih]
    ring

/-- The sum of the values over the sum of one, both by radius. -/
def radiusMean (ss : List (Sample K)) : K :=
  radiusSum Sample.value ss / radiusSum (fun _ => 1) ss

lemma radiusMean_perm {ss ss' : List (Sample K)} (h : ss.Perm ss') :
    radiusMean ss = radiusMean ss' := by
  rw [radiusMean, radiusMean, radiusSum_perm _ h, radiusSum_perm _ h]

section

variable [LinearOrder K] [IsStrictOrderedRing K]

lemma radiusSum_pos {f : Sample K → K} {ss : List (Sample K)} (hpos : ∀ s ∈ ss, 0 < s.radius)
    (hf : ∀ s ∈ ss, 0 ≤ f s) {t : Sample K} (ht : t ∈ ss) (hft : 0 < f t) :
    0 < radiusSum f ss := by
  refine (div_pos hft (hpos t ht)).trans_le (List.single_le_sum ?_ _ (List.mem_map_of_mem ht))
  intro x hx
  obtain ⟨s, hs, rfl⟩ := List.mem_map.mp hx
  exact div_nonneg (hf s hs) (hpos s hs).le

variable {ss : List (Sample K)}

lemma radiusSum_one_pos (hpos : ∀ s ∈ ss, 0 < s.radius) (hne : ss ≠ []) :
    0 < radiusSum (fun _ => 1) ss := by
  obtain ⟨s, hs⟩ := List.exists_mem_of_ne_nil ss hne
  exact radiusSum_pos hpos (fun _ _ => zero_le_one) hs zero_lt_one

lemma radiusMean_lt (hpos : ∀ s ∈ ss, 0 < s.radius) {hi : K} (hle : ∀ s ∈ ss, s.value ≤ hi)
    {t : Sample K} (ht : t ∈ ss) (hlt : t.value < hi) : radiusMean ss < hi := by
  have hgap : 0 < radiusSum (fun s => hi - s.value) ss :=
    radiusSum_pos hpos (fun s hs => sub_nonneg.mpr (hle s hs)) ht (sub_pos.mpr hlt)
  rw [radiusSum_sub, radiusSum_const] at hgap
  rw [radiusMean, div_lt_iff₀ (radiusSum_one_pos hpos (List.ne_nil_of_mem ht))]
  exact sub_pos.mp hgap

lemma lt_radiusMean (hpos : ∀ s ∈ ss, 0 < s.radius) {lo : K} (hle : ∀ s ∈ ss, lo ≤ s.value)
    {t : Sample K} (ht : t ∈ ss) (hlt : lo < t.value) : lo < radiusMean ss := by
  have hgap : 0 < radiusSum (fun s => s.value - lo) ss :=
    radiusSum_pos hpos (fun s hs => sub_nonneg.mpr (hle s hs)) ht (sub_pos.mpr hlt)
  rw [radiusSum_sub, radiusSum_const] at hgap
  rw [radiusMean, lt_div_iff₀ (radiusSum_one_pos hpos (List.ne_nil_of_mem ht))]
  exact sub_pos.mp hgap

lemma radiusMean_eq_of_forall (hpos : ∀ s ∈ ss, 0 < s.radius) (hne : ss ≠ []) {v : K}
    (h : ∀ s ∈ ss, s.value = v) : radiusMean ss = v := by
  have hvalues : radiusSum Sample.value ss = radiusSum (fun _ => v) ss :=
    congrArg List.sum (List.map_congr_left fun s hs => by rw [h s hs])
  rw [radiusMean, hvalues, radiusSum_const,
    mul_div_cancel_right₀ _ (radiusSum_one_pos hpos hne).ne']

theorem amid_radiusMean (hpos : ∀ s ∈ ss, 0 < s.radius) (hne : ss ≠ []) :
    Amid (ss.map Sample.value) (radiusMean ss) := by
  have hlength : 0 < (ss.map Sample.value).length := by
    rw [List.length_map]
    exact List.length_pos_iff.mpr hne
  obtain ⟨t, ht, hlo⟩ := List.mem_map.mp (List.minimum_of_length_pos_mem hlength)
  obtain ⟨u, hu, hhi⟩ := List.mem_map.mp (List.maximum_of_length_pos_mem hlength)
  have hbounds : ∀ v ∈ ss.map Sample.value, t.value ≤ v ∧ v ≤ u.value := by
    intro v hv
    rw [hlo, hhi]
    exact ⟨List.minimum_of_length_pos_le_of_mem hv hlength,
      List.le_maximum_of_length_pos_of_mem hv hlength⟩
  have hle (s : Sample K) (hs : s ∈ ss) : t.value ≤ s.value ∧ s.value ≤ u.value :=
    hbounds _ (List.mem_map_of_mem hs)
  refine ⟨t.value, List.mem_map_of_mem ht, u.value, List.mem_map_of_mem hu, hbounds, ?_⟩
  rcases (hle t ht).2.eq_or_lt with heq | hlt
  · have hmean : radiusMean ss = t.value :=
      radiusMean_eq_of_forall hpos hne fun s hs =>
        le_antisymm ((hle s hs).2.trans heq.ge) (hle s hs).1
    exact ⟨hmean.ge, (hmean.trans heq).le, fun h => absurd heq h⟩
  · have hlower := lt_radiusMean hpos (fun s hs => (hle s hs).1) hu hlt
    have hupper := radiusMean_lt hpos (fun s hs => (hle s hs).2) ht hlt
    exact ⟨hlower.le, hupper.le, fun _ => ⟨hlower, hupper⟩⟩

/-- The mean of two numbers parts the way between them in the ratio of their radii. -/
lemma radiusMean_pair {t u : Sample K} (ht : 0 < t.radius) (hu : 0 < u.radius) :
    radiusMean [t, u] - t.value = (u.value - t.value) * (t.radius / (t.radius + u.radius)) := by
  simp only [radiusMean, radiusSum_cons, radiusSum_nil, add_zero]
  field_simp
  ring

/-- It is closer to the number with the smaller radius. -/
lemma radiusMean_closer {t u : Sample K} (ht : 0 < t.radius) (hne : t.value ≠ u.value)
    (hlt : t.radius < u.radius) :
    |radiusMean [t, u] - t.value| < |radiusMean [t, u] - u.value| := by
  have hu : 0 < u.radius := ht.trans hlt
  have hsum : 0 < t.radius + u.radius := add_pos ht hu
  have hdistance : 0 < |u.value - t.value| := abs_pos.mpr (sub_ne_zero.mpr hne.symm)
  rw [radiusMean_pair ht hu, radiusMean_perm (List.Perm.swap u t []), radiusMean_pair hu ht,
    abs_mul, abs_mul, abs_sub_comm t.value, add_comm u.radius,
    abs_of_pos (div_pos ht hsum), abs_of_pos (div_pos hu hsum)]
  gcongr

end

variable [LinearOrder K] [FloorRing K] [Transcendental K]

lemma weightedSum_eq (f : Sample K → K) (ss : List (Sample K)) :
    weightedSum f ss = radiusSum f ss := by
  have hfold (start : K) :
      ss.foldl (fun sum s => sum + s.weight * f s) start = start + radiusSum f ss := by
    induction ss generalizing start with
    | nil => simp
    | cons s ss ih =>
      have hone : (1.0 : K) = 1 := by norm_num
      rw [List.foldl_cons, ih, radiusSum_cons, Sample.weight, hone]
      ring
  have hzero : (0.0 : K) = 0 := by norm_num
  exact (hfold 0.0).trans (by rw [hzero, zero_add])

lemma totalWeight_eq (ss : List (Sample K)) : totalWeight ss = radiusSum (fun _ => 1) ss := by
  rw [← weightedSum_eq]
  simp only [totalWeight, weightedSum, mul_one]

lemma map_value_samples (get? : Location K → Option K) (ls : List (Location K)) :
    (samples get? ls).map Sample.value = ls.filterMap get? := by
  have hvalue (l : Location K) :
      ((get? l).map fun v => (⟨v, l.weighingRadius⟩ : Sample K)).map Sample.value = get? l := by
    cases get? l <;> rfl
  simp only [samples, List.map_filterMap, hvalue]

variable [IsStrictOrderedRing K]

/-- A single number is its own mean. -/
lemma mean?_eq {ss : List (Sample K)} (hpos : ∀ s ∈ ss, 0 < s.radius) (hne : ss ≠ []) :
    mean? ss = some (radiusMean ss) := by
  match ss with
  | [] => exact absurd rfl hne
  | [s] =>
    have hsingle : radiusMean [s] = s.value :=
      radiusMean_eq_of_forall hpos hne fun t ht => by rw [List.mem_singleton.mp ht]
    rw [hsingle]
    rfl
  | s :: t :: ss =>
    rw [radiusMean, ← weightedSum_eq, ← totalWeight_eq]
    rfl

lemma samples_pos {get? : Location K → Option K} {ls : List (Location K)} :
    ∀ s ∈ samples get? ls, 0 < s.radius := by
  intro s hs
  obtain ⟨l, -, hl⟩ := List.mem_filterMap.mp hs
  obtain ⟨v, -, rfl⟩ := Option.map_eq_some_iff.mp hl
  exact l.weighingRadius_pos

/-- The mean of what the leaders of a group supply lies among that. -/
lemma exists_mean_leaders {g : Group} {get? : Location K → Option K}
    (hget : ∀ l, l.has g.presence = true → get? l ≠ none) {raw : List (Location K)}
    (hne : leaders g raw ≠ []) :
    ∃ v, mean? (samples get? (leaders g raw)) = some v ∧
      Amid ((leaders g raw).filterMap get?) v := by
  have hsamples : samples get? (leaders g raw) ≠ [] := by
    intro hnil
    obtain ⟨l, hl⟩ := List.exists_mem_of_ne_nil _ hne
    have hnone := List.filterMap_eq_nil_iff.mp hnil l hl
    exact hget l (has_of_mem_leaders hl) (Option.map_eq_none_iff.mp hnone)
  refine ⟨_, mean?_eq samples_pos hsamples, ?_⟩
  rw [← map_value_samples]
  exact amid_radiusMean samples_pos hsamples

/-- In exact arithmetic a mean of numbers with positive radii is the sum of all of them by radius
over that of one, which is positive. It lies among the numbers and is closer to the one of two that
has the smaller radius. So the speed and the altitude of a pass lie among those of their leaders. -/
theorem mean_weighs_by_radius :
    (∀ ss : List (Sample K), ss ≠ [] → (∀ s ∈ ss, 0 < s.radius) →
      let total := radiusSum (fun _ => 1) ss
      let m := radiusSum Sample.value ss / total
      0 < total ∧ mean? ss = some m ∧ Amid (ss.map Sample.value) m ∧
      ∀ t u, ss.Perm [t, u] → t.value ≠ u.value → t.radius < u.radius →
        |m - t.value| < |m - u.value|) ∧
    ∀ (s : Settings K) (raw : List (Location K)) (fused : Location K),
      let after := (pass s raw fused).1
      (leaders .speed raw ≠ [] →
        ∃ v, after.speed? = some v ∧ mean? (samples Location.speed? (leaders .speed raw)) = some v ∧
          Amid ((leaders .speed raw).filterMap Location.speed?) v) ∧
      (leaders .altitude raw ≠ [] →
        ∃ v, after.altitude? = some v ∧
          mean? (samples Location.altitude? (leaders .altitude raw)) = some v ∧
          Amid ((leaders .altitude raw).filterMap Location.altitude?) v) := by
  refine ⟨fun ss hne hpos => ⟨radiusSum_one_pos hpos hne, mean?_eq hpos hne,
    amid_radiusMean hpos hne, fun t u hperm hvalues hradii => ?_⟩, fun s raw fused => ⟨?_, ?_⟩⟩
  · have ht : 0 < t.radius := hpos t (hperm.mem_iff.mpr List.mem_cons_self)
    have hmean : radiusSum Sample.value ss / radiusSum (fun _ => 1) ss = radiusMean [t, u] :=
      radiusMean_perm hperm
    rw [hmean]
    exact radiusMean_closer ht hvalues hradii
  · intro hne
    have hget (l : Location K) (hl : l.has .speed = true) : l.speed? ≠ none := by
      simp [Location.speed?, hl]
    obtain ⟨v, hmean, hamid⟩ := exists_mean_leaders hget hne
    have hspeed : (merge raw fused).speed? = some v := by
      rw [speed?_merge, contributors_eq_leaders, hmean, Option.some_or]
    exact ⟨v, hspeed, hmean, hamid⟩
  · intro hne
    have hget (l : Location K) (hl : l.has .altitude = true) : l.altitude? ≠ none := by
      simp [Location.altitude?, hl]
    obtain ⟨v, hmean, hamid⟩ := exists_mean_leaders hget hne
    have haltitude : (merge raw fused).altitude? = some v := by
      rw [altitude?_merge, contributors_eq_leaders, hmean, Option.some_or]
    exact ⟨v, haltitude, hmean, hamid⟩

/-- Speeds of 10 and 20 km/h with radii of 1 and 4 meters. -/
theorem mean_weighs_by_radius_two :
    let ss : List (Sample ℝ) := [⟨10, 1⟩, ⟨20, 4⟩]
    let source (kmh radius : ℝ) : Location ℝ :=
      { ((Location.blank .high).setSpeed kmh).setAccuracy radius with validity := .valid }
    let raw := [source 10 1, source 20 4]
    ss ≠ [] ∧ (∀ s ∈ ss, 0 < s.radius) ∧ mean? ss = some 12 ∧ |(12 : ℝ) - 10| < |12 - 20| ∧
      leaders .speed raw ≠ [] ∧
      ∃ v, (pass {} raw (Location.blank .low)).1.speed? = some v ∧ Amid [10, 20] v := by
  intro ss source raw
  have hpos : ∀ s ∈ ss, 0 < s.radius := by simp [ss]
  have hmean : radiusMean ss = 12 := by norm_num [radiusMean, ss]
  have hleaders : leaders .speed raw = raw := by with_unfolding_all rfl
  have hspeeds : raw.filterMap Location.speed? = [10, 20] := by with_unfolding_all rfl
  obtain ⟨-, htold, -, hcloser⟩ := mean_weighs_by_radius.1 ss (by simp [ss]) hpos
  have hclose := hcloser ⟨10, 1⟩ ⟨20, 4⟩ (List.Perm.refl ss) (by norm_num) (by norm_num)
  obtain ⟨v, hspeed, -, hamid⟩ :=
    (mean_weighs_by_radius.2 {} raw (Location.blank .low)).1 (by simp [hleaders, raw])
  rw [← radiusMean, hmean] at htold hclose
  rw [hleaders, hspeeds] at hamid
  exact ⟨by simp [ss], hpos, htold, hclose, by simp [hleaders, raw], v, hspeed, hamid⟩

end Whereabouts.Fusion
