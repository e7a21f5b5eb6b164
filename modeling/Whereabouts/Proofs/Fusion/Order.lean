import Mathlib.Data.List.Nodup
import Whereabouts.Proofs.Globe
import Whereabouts.Proofs.Fusion.Pass
import Whereabouts.Proofs.Fusion.Precision

/-! The order of the raw locations. In exact arithmetic it does not matter for a pass, but for
satellite counts with the same fix time. -/
namespace Whereabouts

namespace Validity

lemma rank_injective {v w : Validity} (h : v.rank = w.rank) : v = w := by
  cases v <;> cases w <;> first | rfl | cases h

lemma rank_max (v w : Validity) : (max v w).rank = max v.rank w.rank := by
  change (if v.rank ≤ w.rank then w else v).rank = _
  split_ifs with h <;> omega

lemma max_comm (v w : Validity) : max v w = max w v :=
  rank_injective (by rw [rank_max, rank_max, Nat.max_comm])

lemma max_right_comm (u v w : Validity) : max (max u v) w = max (max u w) v :=
  rank_injective (by simp only [rank_max]; omega)

end Validity

namespace Preference

lemma level_injective {p q : Preference} (h : p.level = q.level) : p = q := by
  cases p <;> cases q <;> first | rfl | cases h

lemma level_max (p q : Preference) : (max p q).level = max p.level q.level := by
  change (if p.level ≤ q.level then q else p).level = _
  split_ifs with h <;> omega

lemma max_comm (p q : Preference) : max p q = max q p :=
  level_injective (by rw [level_max, level_max, Int.max_comm])

lemma max_right_comm (p q r : Preference) : max (max p q) r = max (max p r) q :=
  level_injective (by simp only [level_max]; omega)

end Preference

namespace Fusion

variable {R : Type}

theorem Winners.among_perm {raw raw' : List (Location R)} (h : raw.Perm raw') :
    among raw' = among raw := by
  apply ext_of
  intro g
  have hranks : (ranks g raw).Perm (ranks g raw') := (h.filter _).map _
  have hwins := wins_among raw g
  refine (wins_among raw' g).unique (hwins.transfer (fun r hr => ?_) (hranks.symm.count_eq _))
  exact hwins.not_lt r (hranks.mem_iff.mpr hr)

theorem peaks?_perm {ls ls' : List (Location R)} (h : ls.Perm ls') : peaks? ls = peaks? ls' := by
  induction h with
  | nil => rfl
  | @cons l ls ls' h _ =>
    refine congrArg some (h.foldl_eq' (fun a _ b _ p => ?_) _)
    have hfixType : max (max p.fixType a.fixType) b.fixType =
        max (max p.fixType b.fixType) a.fixType := by omega
    simp only [hfixType, Nat.max_right_comm, Validity.max_right_comm, Preference.max_right_comm]
  | swap l m ls =>
    refine congrArg some (congrArg (ls.foldl _) ?_)
    simp only [Int.max_comm, Nat.max_comm, Validity.max_comm, Preference.max_comm]
  | trans _ _ ih ih' => exact ih.trans ih'

/-- Of two entries with satellites the later one stays, and of equal times the second. -/
def newer (best : Option (Timestamp × (Nat × Nat))) (l : Location R) :
    Option (Timestamp × (Nat × Nat)) :=
  match l.satellites?, best with
  | none, _ => best
  | some s, none => some (l.fixTime, s)
  | some s, some (t, _) => if t ≤ l.fixTime then some (l.fixTime, s) else best

lemma latestSatellites?_eq (used : List (Location R)) :
    latestSatellites? used = (used.foldl newer none).map (·.2) := rfl

lemma newer_of_not_has {l : Location R} (h : l.has .satellites = false)
    (best : Option (Timestamp × (Nat × Nat))) : newer best l = best := by
  simp [newer, Location.satellites?, h]

lemma newer_none {l : Location R} (h : l.has .satellites = true) :
    newer none l = some (l.fixTime, (l.satsInView, l.satsUsed)) := by
  simp [newer, Location.satellites?, h]

lemma newer_some {l : Location R} (h : l.has .satellites = true) (t : Timestamp) (s : Nat × Nat) :
    newer (some (t, s)) l =
      if t ≤ l.fixTime then some (l.fixTime, (l.satsInView, l.satsUsed)) else some (t, s) := by
  simp [newer, Location.satellites?, h]

lemma isSome_newer (best : Option (Timestamp × (Nat × Nat))) (l : Location R) :
    (newer best l).isSome = (best.isSome || l.has .satellites) := by
  cases hl : l.has .satellites with
  | false => simp [newer_of_not_has hl]
  | true =>
    match best with
    | none => simp [newer_none hl]
    | some (t, s) =>
      rw [newer_some hl]
      split_ifs <;> rfl

lemma isSome_latestSatellites? (used : List (Location R)) :
    (latestSatellites? used).isSome = used.any (·.has .satellites) := by
  have hfold (best : Option (Timestamp × (Nat × Nat))) :
      (used.foldl newer best).isSome = (best.isSome || used.any (·.has .satellites)) := by
    induction used generalizing best with
    | nil => simp
    | cons l used ih => rw [List.foldl_cons, ih, isSome_newer, List.any_cons, Bool.or_assoc]
  rw [latestSatellites?_eq, Option.isSome_map, hfold]
  rfl

/-- The fix times of the entries with satellites. -/
def satelliteTimes (used : List (Location R)) : List Timestamp :=
  (used.filter (·.has .satellites)).map Location.fixTime

lemma newer_right_comm_of_lt {l m : Location R} (hl : l.has .satellites = true)
    (hm : m.has .satellites = true) (hlt : l.fixTime < m.fixTime)
    (best : Option (Timestamp × (Nat × Nat))) :
    newer (newer best l) m = newer (newer best m) l := by
  have hle := Nat.le_of_lt hlt
  have hnot := Nat.not_le_of_lt hlt
  match best with
  | none => simp [newer_none, newer_some, hl, hm, hle, hnot]
  | some (t, s) =>
    by_cases htl : t ≤ l.fixTime
    · have htm : t ≤ m.fixTime := htl.trans hle
      simp [newer_some, hl, hm, htl, htm, hle, hnot]
    · by_cases htm : t ≤ m.fixTime <;> simp [newer_some, hl, hm, htl, htm, hnot]

/-- Entries of different times may be looked at in any order. -/
lemma newer_right_comm {l m : Location R}
    (h : l.has .satellites = true → m.has .satellites = true → l.fixTime ≠ m.fixTime)
    (best : Option (Timestamp × (Nat × Nat))) :
    newer (newer best l) m = newer (newer best m) l := by
  cases hl : l.has .satellites with
  | false => simp only [newer_of_not_has hl]
  | true =>
    cases hm : m.has .satellites with
    | false => simp only [newer_of_not_has hm]
    | true =>
      rcases Nat.lt_or_gt_of_ne (h hl hm) with hlt | hlt
      · exact newer_right_comm_of_lt hl hm hlt best
      · exact (newer_right_comm_of_lt hm hl hlt best).symm

theorem latestSatellites?_perm {used used' : List (Location R)} (h : used.Perm used')
    (hdistinct : (satelliteTimes used).Nodup) :
    latestSatellites? used = latestSatellites? used' := by
  rw [latestSatellites?_eq, latestSatellites?_eq]
  refine congrArg _ (h.foldl_eq' (fun l hl m hm best => ?_) none)
  by_cases hlm : l = m
  · rw [hlm]
  · refine newer_right_comm (fun hl' hm' htime => hlm ?_) best
    exact List.inj_on_of_nodup_map hdistinct (List.mem_filter.mpr ⟨hl, hl'⟩)
      (List.mem_filter.mpr ⟨hm, hm'⟩) htime

/-- A list in another order is the same list, or both have two entries and more. -/
lemma perm_cases {α : Type} {xs ys : List α} (h : xs.Perm ys) :
    xs = ys ∨ ∃ a b as c d cs, xs = a :: b :: as ∧ ys = c :: d :: cs := by
  match xs, ys, h, h.length_eq with
  | [], [], _, _ => exact .inl rfl
  | [a], [c], h, _ => exact .inl (List.perm_singleton.mp h)
  | a :: b :: as, c :: d :: cs, _, _ => exact .inr ⟨a, b, as, c, d, cs, rfl, rfl⟩

/-- The estimate from all sightings before it becomes a point. -/
def running? [Arith R] : List (Sighting R) → Option (Estimate R)
  | [] => none
  | s :: rest => some (Estimate.ofSightings s rest)

lemma estimate?_eq [Arith R] (a b : Sighting R) (ss : List (Sighting R)) :
    estimate? (a :: b :: ss) =
      (running? (a :: b :: ss)).bind fun e => e.vector.point?.map fun p =>
        (p, some (Arith.sqrt e.variance)) := rfl

variable {K : Type} [Field K] [LinearOrder K] [FloorRing K] [Transcendental K]

theorem weightedSum_perm (f : Sample K → K) {ss ss' : List (Sample K)} (h : ss.Perm ss') :
    weightedSum f ss = weightedSum f ss' := by
  refine h.foldl_eq' (fun s _ t _ sum => ?_) _
  exact add_right_comm sum (s.weight * f s) (t.weight * f t)

theorem totalWeight_perm {ss ss' : List (Sample K)} (h : ss.Perm ss') :
    totalWeight ss = totalWeight ss' := by
  refine h.foldl_eq' (fun s _ t _ sum => ?_) _
  exact add_right_comm sum s.weight t.weight

theorem mean?_perm {ss ss' : List (Sample K)} (h : ss.Perm ss') : mean? ss = mean? ss' := by
  rcases perm_cases h with rfl | ⟨a, b, as, c, d, cs, rfl, rfl⟩
  · rfl
  · simp only [mean?, weightedSum_perm _ h, totalWeight_perm h]

theorem heading?_perm {ss ss' : List (Sample K)} (h : ss.Perm ss') :
    heading? ss = heading? ss' := by
  rcases perm_cases h with rfl | ⟨a, b, as, c, d, cs, rfl, rfl⟩
  · rfl
  · simp only [heading?, weightedSum_perm _ h, totalWeight_perm h]

variable [IsStrictOrderedRing K]

theorem running?_perm {ss ss' : List (Sighting K)} (hpos : ∀ s ∈ ss, 0 < s.radius)
    (h : ss.Perm ss') : running? ss = running? ss' := by
  match ss, ss', h, h.length_eq with
  | [], [], _, _ => rfl
  | s :: rest, s' :: rest', h, _ =>
    have haverages := Estimate.averages_ofSightings hpos
    have haverages' := Estimate.averages_ofSightings fun t ht => hpos t (h.mem_iff.mpr ht)
    exact congrArg some (haverages.unique haverages' h)

theorem estimate?_perm {ss ss' : List (Sighting K)} (hpos : ∀ s ∈ ss, 0 < s.radius)
    (h : ss.Perm ss') : estimate? ss = estimate? ss' := by
  rcases perm_cases h with rfl | ⟨a, b, as, c, d, cs, rfl, rfl⟩
  · rfl
  · rw [estimate?_eq, estimate?_eq, running?_perm hpos h]

section

variable {R : Type}

/-- A location without its satellite counts; whether it has any stays. -/
def uncounted (l : Location R) : Location R := { l with satsInView := 0, satsUsed := 0 }

def Provenance.uncounted (p : Provenance) : Provenance :=
  { p with satellites := p.satellites.map fun _ => (0, 0) }

lemma uncounted_inherit (p : Option Provenance) (fused : Location R) :
    uncounted (inherit p fused) = uncounted (inherit (p.map Provenance.uncounted) fused) := by
  match p with
  | none | some ⟨_, _, _, _, none⟩ | some ⟨_, _, _, _, some _⟩ => rfl

lemma uncounted_place (e : Option (Geo.Point R × Option R)) (l : Location R) :
    uncounted (place e l) = place e (uncounted l) := by
  match e with
  | none | some (_, none) | some (_, some _) => rfl

lemma uncounted_setIfSome {α : Type} {set : Location R → α → Location R}
    (h : ∀ l v, uncounted (set l v) = set (uncounted l) v) (value : Option α) (l : Location R) :
    uncounted (setIfSome set value l) = setIfSome set value (uncounted l) := by
  cases value with
  | none => rfl
  | some v => exact h l v

/-- The locations that decide what is taken over from them. -/
lemma peaks?_deciding_perm (w : Winners) {raw raw' : List (Location R)} (h : raw.Perm raw') :
    peaks? (if w.position.ties = 0 then raw'.filter w.usesAny else w.contributors .position raw') =
      peaks? (if w.position.ties = 0 then raw.filter w.usesAny
        else w.contributors .position raw) := by
  split_ifs
  · exact (peaks?_perm (h.filter _)).symm
  · exact (peaks?_perm (h.filter _)).symm

lemma uncounted_provenance?_perm (w : Winners) {raw raw' : List (Location R)}
    (h : raw.Perm raw') :
    (provenance? w raw').map Provenance.uncounted =
      (provenance? w raw).map Provenance.uncounted := by
  have hsome : (latestSatellites? (raw'.filter w.usesAny)).isSome =
      (latestSatellites? (raw.filter w.usesAny)).isSome := by
    rw [isSome_latestSatellites?, isSome_latestSatellites?]
    exact (h.filter _).symm.any_eq
  have hcounts : (latestSatellites? (raw'.filter w.usesAny)).map (fun _ => (0, 0)) =
      (latestSatellites? (raw.filter w.usesAny)).map fun _ => (0, 0) := by
    cases h : latestSatellites? (raw.filter w.usesAny) <;>
      cases h' : latestSatellites? (raw'.filter w.usesAny) <;> simp_all
  simp only [provenance?, Option.map_map, peaks?_deciding_perm w h]
  congr 1
  funext p
  simp only [Function.comp_apply, Provenance.uncounted, hcounts]

lemma provenance?_perm (w : Winners) {raw raw' : List (Location R)} (h : raw.Perm raw')
    (hdistinct : (satelliteTimes (raw.filter w.usesAny)).Nodup) :
    provenance? w raw' = provenance? w raw := by
  simp only [provenance?, peaks?_deciding_perm w h,
    latestSatellites?_perm (h.filter w.usesAny) hdistinct]

variable [Arith R]

/-- A location with the attributes that the raw locations lead to. -/
def attributed (raw : List (Location R)) (l : Location R) : Location R :=
  let contributors (g : Group) := (Winners.among raw).contributors g raw
  l |> place (estimate? ((contributors .position).filterMap sighting?))
    |> setIfSome Location.setSpeed (mean? (samples Location.speed? (contributors .speed)))
    |> setIfSome Location.setAltitude (mean? (samples Location.altitude? (contributors .altitude)))
    |> setIfSome Location.setBearing (heading? (samples Location.bearing? (contributors .bearing)))

lemma merge_eq_attributed (raw : List (Location R)) (fused : Location R) :
    merge raw fused =
      attributed raw (inherit (provenance? (Winners.among raw) raw) fused) := rfl

lemma uncounted_attributed (raw : List (Location R)) (l : Location R) :
    uncounted (attributed raw l) = attributed raw (uncounted l) := by
  unfold attributed
  rw [uncounted_setIfSome fun _ _ => rfl, uncounted_setIfSome fun _ _ => rfl,
    uncounted_setIfSome fun _ _ => rfl, uncounted_place]

end

lemma sightings_pos {ls : List (Location K)} : ∀ s ∈ ls.filterMap sighting?, 0 < s.radius := by
  intro s hs
  obtain ⟨l, -, hl⟩ := List.mem_filterMap.mp hs
  obtain ⟨p, -, rfl⟩ := Option.map_eq_some_iff.mp hl
  exact l.weighingRadius_pos

lemma attributed_perm {raw raw' : List (Location K)} (h : raw.Perm raw') :
    attributed raw' = attributed raw := by
  have hused (g : Group) : ((Winners.among raw).contributors g raw').Perm
      ((Winners.among raw).contributors g raw) := h.symm.filter _
  unfold attributed
  rw [Winners.among_perm h]
  simp only [estimate?_perm sightings_pos ((hused .position).filterMap _),
    mean?_perm ((hused .speed).filterMap _), mean?_perm ((hused .altitude).filterMap _),
    heading?_perm ((hused .bearing).filterMap _), samples]

/-- In exact arithmetic the order of the raw locations does not matter: not for the winners and
their ties, nor for the estimate of the position, the means and the sums that the bearing is made
of, nor for the fused location but for its satellite counts. These are the same too if no two
contributors with satellites have the same fix time. -/
theorem pass_perm (s : Settings K) (fused : Location K) {raw raw' : List (Location K)}
    (h : raw.Perm raw') :
    let w := Winners.among raw
    let sightings (ls : List (Location K)) := (w.contributors .position ls).filterMap sighting?
    let samplesOf (g : Group) (get? : Location K → Option K) (ls : List (Location K)) :=
      samples get? (w.contributors g ls)
    Winners.among raw' = w ∧
      running? (sightings raw') = running? (sightings raw) ∧
      (∀ g get?, mean? (samplesOf g get? raw') = mean? (samplesOf g get? raw) ∧
        (∀ f, weightedSum f (samplesOf g get? raw') = weightedSum f (samplesOf g get? raw)) ∧
        totalWeight (samplesOf g get? raw') = totalWeight (samplesOf g get? raw)) ∧
      uncounted (merge raw' fused) = uncounted (merge raw fused) ∧
      ((satelliteTimes (raw.filter w.usesAny)).Nodup → pass s raw' fused = pass s raw fused) := by
  intro w sightings samplesOf
  have hused (g : Group) : (w.contributors g raw).Perm (w.contributors g raw') := h.filter _
  have hsamples (g : Group) (get? : Location K → Option K) :
      (samplesOf g get? raw').Perm (samplesOf g get? raw) := ((hused g).filterMap _).symm
  refine ⟨Winners.among_perm h, ?_, fun g get? => ⟨?_, fun f => ?_, ?_⟩, ?_, fun hdistinct => ?_⟩
  · exact (running?_perm sightings_pos ((hused .position).filterMap _)).symm
  · exact mean?_perm (hsamples g get?)
  · exact weightedSum_perm f (hsamples g get?)
  · exact totalWeight_perm (hsamples g get?)
  · rw [merge_eq_attributed, merge_eq_attributed, Winners.among_perm h, attributed_perm h,
      uncounted_attributed, uncounted_attributed, uncounted_inherit,
      uncounted_provenance?_perm _ h, ← uncounted_inherit]
  · have hmerge : merge raw' fused = merge raw fused := by
      rw [merge_eq_attributed, merge_eq_attributed, Winners.among_perm h, attributed_perm h,
        provenance?_perm _ h hdistinct]
    rw [pass, pass, hmerge]

/-- Two fixes of one preference, the first at twice the accuracy of the second. -/
theorem pass_perm_two_fixes :
    let fix (lat radius : ℝ) (time : Timestamp) : Location ℝ :=
      { (((Location.blank .high).setPosition ⟨lat, 11⟩).setAccuracy radius).setSatellites 9 7 with
        validity := .valid
        fixTime := time }
    let raw := [fix 48 5 1000, fix 49 10 2000]
    (satelliteTimes (raw.filter (Winners.among raw).usesAny)).Nodup ∧
      pass {} raw.reverse (Location.blank .low) = pass {} raw (Location.blank .low) := by
  intro fix raw
  have hdistinct : (satelliteTimes (raw.filter (Winners.among raw).usesAny)).Nodup := by decide
  exact ⟨hdistinct, (pass_perm {} _ (List.reverse_perm raw).symm).2.2.2.2 hdistinct⟩

end Fusion
end Whereabouts
