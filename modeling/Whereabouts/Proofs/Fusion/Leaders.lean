import Whereabouts.Proofs.Fusion.Merge

/-! The leaders of a group: the locations that no other one outranks among all that supply it. The
one walk over the raw locations finds exactly them, and each attribute comes from its leaders
alone. -/
namespace Whereabouts

variable {R : Type}

lemma Location.rank_eq_invalid {l : Location R} : l.rank = .invalid ↔ l.validity = .invalid := by
  cases h : l.validity <;> simp [rank, Rank.combine, h]

namespace Fusion

lemma supplies_iff {g : Group} {l : Location R} :
    supplies g l = true ↔ l.validity ≠ .invalid ∧ l.has g.presence = true := by
  simp [supplies, Location.rank_eq_invalid, and_comm]

/-- A location leads a group if it supplies it and no location outranks it that does so too. -/
def Leads (g : Group) (raw : List (Location R)) (l : Location R) : Prop :=
  supplies g l = true ∧ ∀ m ∈ raw, supplies g m = true → ¬ l.rank < m.rank

instance (g : Group) (raw : List (Location R)) (l : Location R) : Decidable (Leads g raw l) :=
  inferInstanceAs (Decidable (_ ∧ _))

/-- The leaders of a group, in their order. -/
def leaders (g : Group) (raw : List (Location R)) : List (Location R) :=
  raw.filter fun l => Leads g raw l

section

variable {g : Group} {raw : List (Location R)} {l : Location R}

lemma mem_leaders : l ∈ leaders g raw ↔ l ∈ raw ∧ Leads g raw l := by simp [leaders]

lemma supplies_of_mem_leaders (h : l ∈ leaders g raw) : supplies g l = true :=
  (mem_leaders.mp h).2.1

lemma has_of_mem_leaders (h : l ∈ leaders g raw) : l.has g.presence = true :=
  (supplies_iff.mp (supplies_of_mem_leaders h)).2

/-- The rank of the leaders is the best one. -/
lemma rank_eq_best_iff (hl : l ∈ raw) (hg : supplies g l = true) :
    l.rank = ((Winners.among raw).of g).best ↔ Leads g raw l := by
  have hwins := Winners.wins_among raw g
  constructor
  · intro hbest
    refine ⟨hg, fun m hm hmg hlt => ?_⟩
    exact hwins.not_lt _ (mem_ranks hm hmg) (hbest ▸ hlt)
  · rintro ⟨-, hnone⟩
    rcases Rank.lt_trichotomy l.rank ((Winners.among raw).of g).best with hlt | heq | hlt
    · exfalso
      rcases hwins.attained with hinvalid | hmem
      · rw [hinvalid] at hlt
        exact Rank.not_lt_invalid _ hlt
      · obtain ⟨m, hm, hrank⟩ := List.mem_map.mp hmem
        obtain ⟨hm, hmg⟩ := List.mem_filter.mp hm
        exact hnone m hm hmg (hrank ▸ hlt)
    · exact heq
    · exact absurd hlt (hwins.not_lt _ (mem_ranks hl hg))

lemma uses_iff_leads (hl : l ∈ raw) : (Winners.among raw).uses g l = true ↔ Leads g raw l := by
  rw [Winners.uses_eq, Bool.and_eq_true, beq_iff_eq]
  constructor
  · rintro ⟨hg, hbest⟩
    exact (rank_eq_best_iff hl hg).mp hbest
  · intro h
    exact ⟨h.1, (rank_eq_best_iff hl h.1).mpr h⟩

theorem contributors_eq_leaders (g : Group) (raw : List (Location R)) :
    (Winners.among raw).contributors g raw = leaders g raw := by
  apply List.filter_congr
  intro l hl
  rw [Bool.eq_iff_iff, uses_iff_leads hl, decide_eq_true_iff]

lemma ties_eq_length_leaders (g : Group) (raw : List (Location R)) :
    ((Winners.among raw).of g).ties = (leaders g raw).length := by
  rw [Winners.ties_eq_length, contributors_eq_leaders]

lemma best_eq_rank (h : l ∈ leaders g raw) : ((Winners.among raw).of g).best = l.rank := by
  obtain ⟨hl, hleads⟩ := mem_leaders.mp h
  exact ((rank_eq_best_iff hl hleads.1).mpr hleads).symm

/-- A best rank that is not the invalid one is the rank of a leader. -/
lemma best_of_leaders_eq_nil (h : leaders g raw = []) :
    ((Winners.among raw).of g).best = .invalid := by
  have hwins := Winners.wins_among raw g
  rcases hwins.attained with hinvalid | hmem
  · exact hinvalid
  · have hties := ties_eq_length_leaders g raw
    rw [h, hwins.ties_eq] at hties
    exact absurd hmem (List.count_eq_zero.mp hties)

/-- There are leaders as soon as the group is supplied at all. -/
lemma leaders_eq_nil_iff :
    leaders g raw = [] ↔ ∀ l ∈ raw, l.validity ≠ .invalid → l.has g.presence = false := by
  constructor
  · intro h l hl hv
    by_contra hhas
    have hg : supplies g l = true := supplies_iff.mpr ⟨hv, by simpa using hhas⟩
    have hnot := (Winners.wins_among raw g).not_lt _ (mem_ranks hl hg)
    rw [best_of_leaders_eq_nil h] at hnot
    cases hrank : l.rank with
    | invalid => exact hv (Location.rank_eq_invalid.mp hrank)
    | of n => exact hnot (hrank ▸ Rank.invalid_lt_of n)
  · intro h
    apply List.eq_nil_iff_forall_not_mem.mpr
    intro l hl
    obtain ⟨hv, hhas⟩ := supplies_iff.mp (supplies_of_mem_leaders hl)
    simp [h l (mem_leaders.mp hl).1 hv] at hhas

end

/-- What leaders make of an attribute: it stays without any, a single one is copied, and several are
combined unless they cancel out. -/
def taken {α : Type} (before : α) (copied : Location R → α)
    (combined : List (Location R) → Option α) : List (Location R) → α
  | [] => before
  | [l] => copied l
  | l :: m :: ls => (combined (l :: m :: ls)).getD before

variable [Arith R]

def sightingOf (l : Location R) : Sighting R := ⟨l.position, l.weighingRadius, l.accuracy?⟩

def sampleOf (value : Location R → R) (l : Location R) : Sample R := ⟨value l, l.weighingRadius⟩

lemma sightings_leaders (raw : List (Location R)) :
    (leaders .position raw).filterMap sighting? = (leaders .position raw).map sightingOf := by
  apply List.filterMap_eq_map_iff_forall_eq_some.mpr
  intro l hl
  have hhas : l.has .position = true := has_of_mem_leaders hl
  simp [sighting?, Location.position?, hhas, sightingOf]

/-- Where the leaders of the position put a location, and with which accuracy. -/
lemma estimate_eq_taken (raw : List (Location R)) (position : Option (Geo.Point R))
    (accuracy : Option R) :
    let e := estimate? ((leaders .position raw).filterMap sighting?)
    ((e.map Prod.fst).or position, (e.map Prod.snd).getD accuracy) =
      taken (position, accuracy) (fun l => (l.position?, l.accuracy?))
        (fun ls => (estimate? (ls.map sightingOf)).map fun e => (some e.1, e.2))
        (leaders .position raw) := by
  intro e
  have he : e = estimate? ((leaders .position raw).map sightingOf) :=
    congrArg estimate? (sightings_leaders raw)
  rw [he]
  match h : leaders .position raw with
  | [] => simp [taken, estimate?]
  | [l] =>
    have hl : l ∈ leaders .position raw := h ▸ List.mem_singleton_self l
    have hhas : l.has .position = true := has_of_mem_leaders hl
    simp [taken, estimate?, sightingOf, Location.position?, hhas]
  | l :: m :: ls =>
    rw [taken]
    cases estimate? ((l :: m :: ls).map sightingOf) <;> rfl

/-- Whichever mean it is, the mean of one value is that value. -/
lemma mean_eq_taken (mean : List (Sample R) → Option R) (hnil : mean [] = none)
    (hsingle : ∀ s, mean [s] = some s.value) (g : Group) (get? : Location R → Option R)
    (value : Location R → R)
    (hget : ∀ l, get? l = if l.has g.presence = true then some (value l) else none)
    (raw : List (Location R)) (before : Option R) :
    (mean (samples get? (leaders g raw))).or before =
      taken before get? (fun ls => (mean (ls.map (sampleOf value))).map some) (leaders g raw) := by
  have hsamples : samples get? (leaders g raw) = (leaders g raw).map (sampleOf value) := by
    apply List.filterMap_eq_map_iff_forall_eq_some.mpr
    intro l hl
    simp [hget, has_of_mem_leaders hl, sampleOf]
  rw [hsamples]
  match h : leaders g raw with
  | [] => simp [taken, hnil]
  | [l] =>
    have hl : l ∈ leaders g raw := h ▸ List.mem_singleton_self l
    simp [taken, hsingle, hget, has_of_mem_leaders hl, sampleOf]
  | l :: m :: ls =>
    rw [taken]
    cases mean ((l :: m :: ls).map (sampleOf value)) <;> rfl

/-- Every group has the rank of its leaders as its best one and their number as its ties, and each
attribute of the location after a pass comes from the leaders of its group. No attribute but the
accuracy is ever dropped. -/
theorem pass_takes_from_leaders (s : Settings R) (raw : List (Location R)) (fused : Location R) :
    let after := (pass s raw fused).1
    (∀ g,
      let w := (Winners.among raw).of g
      let ls := leaders g raw
      (∀ l ∈ ls, w.best = l.rank) ∧ w.ties = ls.length ∧ (ls = [] → w.best = .invalid) ∧
        (ls = [] ↔ ∀ l ∈ raw, l.validity ≠ .invalid → l.has g.presence = false)) ∧
    (after.position?, after.accuracy?) =
      taken (fused.position?, fused.accuracy?) (fun l => (l.position?, l.accuracy?))
        (fun ls => (estimate? (ls.map sightingOf)).map fun e => (some e.1, e.2))
        (leaders .position raw) ∧
    after.speed? =
      taken fused.speed? Location.speed?
        (fun ls => (mean? (ls.map (sampleOf Location.speed))).map some) (leaders .speed raw) ∧
    after.bearing? =
      taken fused.bearing? Location.bearing?
        (fun ls => (heading? (ls.map (sampleOf Location.bearing))).map some)
        (leaders .bearing raw) ∧
    after.altitude? =
      taken fused.altitude? Location.altitude?
        (fun ls => (mean? (ls.map (sampleOf Location.altitude))).map some)
        (leaders .altitude raw) ∧
    ∀ p ∈ [Presence.position, .speed, .bearing, .altitude, .satellites],
      fused.has p = true → after.has p = true := by
  intro after
  have hreading := reading_merge raw fused
  simp only [contributors_eq_leaders] at hreading
  refine ⟨fun g => ?_, ?_, ?_, ?_, ?_, fun p hp => ?_⟩
  · exact ⟨fun _ => best_eq_rank, ties_eq_length_leaders g raw, best_of_leaders_eq_nil,
      leaders_eq_nil_iff⟩
  · have hposition := congrArg Location.Reading.position hreading
    have haccuracy := congrArg Location.Reading.accuracy hreading
    exact (Prod.ext hposition haccuracy).trans (estimate_eq_taken raw _ _)
  · have hspeed : after.speed? =
        (mean? (samples Location.speed? (leaders .speed raw))).or fused.speed? :=
      congrArg Location.Reading.speed hreading
    rw [hspeed]
    exact mean_eq_taken mean? rfl (fun _ => rfl) .speed _ _ (fun _ => rfl) raw _
  · have hbearing : after.bearing? =
        (heading? (samples Location.bearing? (leaders .bearing raw))).or fused.bearing? :=
      congrArg Location.Reading.bearing hreading
    rw [hbearing]
    exact mean_eq_taken heading? rfl (fun _ => rfl) .bearing _ _ (fun _ => rfl) raw _
  · have haltitude : after.altitude? =
        (mean? (samples Location.altitude? (leaders .altitude raw))).or fused.altitude? :=
      congrArg Location.Reading.altitude hreading
    rw [haltitude]
    exact mean_eq_taken mean? rfl (fun _ => rfl) .altitude _ _ (fun _ => rfl) raw _
  · apply has_merge
    revert p
    decide

/-- A valid speed of medium preference and an extrapolated one of high preference both lead. -/
example :
    let source (p : Preference) (v : Validity) : Location Float :=
      { (Location.blank p).setSpeed 10.0 with validity := v }
    let raw := [source .medium .valid, source .high .extrapolatedSpatial, source .low .valid]
    leaders .speed raw = raw.take 2 := by
  decide

end Fusion
end Whereabouts
