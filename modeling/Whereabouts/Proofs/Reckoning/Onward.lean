import Whereabouts.Proofs.Globe
import Whereabouts.Proofs.Reckoning.Stretches

/-! Where a point of a route snaps to, and routes that do not come back to themselves: from there
nothing is left to drive before the point. -/
namespace Whereabouts.Reckoning

section

variable {α : Type} {key : α → ℝ}

lemma foldl_closest_of_zero (hkey : ∀ a, 0 ≤ key a) {a : α} (ha : key a = 0) (as : List α) :
    as.foldl (fun best b => if key b < key best then b else best) a = a := by
  induction as with
  | nil => rfl
  | cons b as ih =>
    have hnot : ¬ key b < key a := not_lt.mpr (ha ▸ hkey b)
    rw [List.foldl_cons, if_neg hnot, ih]

lemma foldl_closest_of_ne_zero (hkey : ∀ a, 0 ≤ key a) {a : α} (ha : key a ≠ 0) {as : List α}
    (has : ∃ b ∈ as, key b = 0) :
    some (as.foldl (fun best b => if key b < key best then b else best) a) =
      as.find? (fun b => key b = 0) := by
  induction as generalizing a with
  | nil => obtain ⟨b, hb, -⟩ := has; cases hb
  | cons b as ih =>
    rw [List.foldl_cons]
    by_cases hb : key b = 0
    · have hlt : key b < key a := hb ▸ lt_of_le_of_ne (hkey a) (Ne.symm ha)
      rw [if_pos hlt, foldl_closest_of_zero hkey hb, List.find?_cons_of_pos (by simpa using hb)]
    · rw [List.find?_cons_of_neg (by simpa using hb)]
      obtain ⟨z, hz, hzero⟩ := has
      have hrest : ∃ b ∈ as, key b = 0 := by
        rcases List.mem_cons.mp hz with rfl | hz
        · exact absurd hzero hb
        · exact ⟨z, hz, hzero⟩
      split_ifs
      · exact ih hb hrest
      · exact ih ha hrest

/-- Where a key is zero, the closest element is the first such one. -/
lemma closest?_eq_find? (hkey : ∀ a, 0 ≤ key a) {as : List α} (has : ∃ a ∈ as, key a = 0) :
    closest? key as = as.find? (fun a => key a = 0) := by
  cases as with
  | nil => obtain ⟨b, hb, -⟩ := has; cases hb
  | cons a as =>
    by_cases ha : key a = 0
    · rw [List.find?_cons_of_pos (by simpa using ha)]
      exact congrArg some (foldl_closest_of_zero hkey ha as)
    · rw [List.find?_cons_of_neg (by simpa using ha)]
      refine foldl_closest_of_ne_zero hkey ha ?_
      obtain ⟨z, hz, hzero⟩ := has
      rcases List.mem_cons.mp hz with rfl | hz
      · exact absurd hzero ha
      · exact ⟨z, hz, hzero⟩

end

variable {r : Route ℝ} {c : Cursor ℝ}

/-- A cursor on a stretch. -/
structure Cursor.At (c : Cursor ℝ) (s : Stretch ℝ) : Prop where
  item_eq : c.item = s.item
  segment_eq : c.segment = s.segment
  lies : c.point.Lies s.start s.stop

lemma exists_at_of_snap? {p : Option (Geo.Point ℝ)} (hc : snap? r p = some c) :
    ∃ s ∈ stretches r, c.At s := by
  obtain ⟨s, hs, hitem, hsegment, hpoint⟩ := exists_mem_of_snap? hc
  refine ⟨s, hs, hitem, hsegment, ?_⟩
  rcases hpoint with hpoint | ⟨q, hpoint⟩
  · exact hpoint ▸ Geo.Point.lies_start _ _
  · exact hpoint ▸ Geo.Point.lies_point_project _ _ _

lemma project_nonneg (p : Geo.Point ℝ) :
    ∀ s : Stretch ℝ, 0 ≤ (fun s : Stretch ℝ => (p.project s.start s.stop).distance) s :=
  fun s => Geo.Point.distance_project_nonneg p s.start s.stop

/-- A point of the first stretch snaps to that one, whatever else it lies on. -/
lemma snap?_of_lies_head {s : Stretch ℝ} {rest : List (Stretch ℝ)} (hr : stretches r = s :: rest)
    (hstart : s.start.isValid = true) (hstop : s.stop.isValid = true) {p : Geo.Point ℝ}
    (hp : p.Lies s.start s.stop) : snap? r (some p) = some ⟨s.item, s.segment, p⟩ := by
  have hzero : (p.project s.start s.stop).distance = 0 :=
    (Geo.Point.distance_project_eq_zero (hp.isValid hstart hstop) hstart hstop).mpr hp
  have hclosest : closest? (fun s => (p.project s.start s.stop).distance) (stretches r) =
      some s := by
    rw [hr]
    exact congrArg some (foldl_closest_of_zero (project_nonneg p) hzero rest)
  rw [snap?, hclosest, Option.map_some, Stretch.snap, Geo.Point.point_project hstart hp]

/-- The walkable part of a route lies on the globe without a gap. -/
structure Unbroken (r : Route ℝ) : Prop where
  isValid : ∀ s ∈ stretches r, s.start.isValid = true ∧ s.stop.isValid = true
  joined : r.Joined

/-- Where an item meets an earlier one, that is at the end of a stretch, and nothing is left to
drive before the item. -/
def Onward (r : Route ℝ) : Prop :=
  ∀ s ∈ stretches r, ∀ t ∈ stretches r, s.item < t.item →
    ∀ p : Geo.Point ℝ, p.Lies s.start s.stop → p.Lies t.start t.stop →
      p = s.stop ∧ ∀ u ∈ stretches r, s.Before u → u.item < t.item → u.start = u.stop

/-- Where the destination lies on a stretch, that is at its end, and nothing is left to drive. -/
def EndsOnce (r : Route ℝ) : Prop :=
  ∀ s ∈ stretches r, ∀ p ∈ r.destination?, p.Lies s.start s.stop →
    p = s.stop ∧ ∀ u ∈ stretches r, s.Before u → u.start = u.stop

namespace Unbroken

variable (hr : Unbroken r)

include hr

/-- A point of the route snaps to the first stretch that it lies on. -/
lemma snap?_eq {t : Stretch ℝ} (ht : t ∈ stretches r) {p : Geo.Point ℝ}
    (hp : p.Lies t.start t.stop) (hc : snap? r (some p) = some c) :
    ∃ s ∈ stretches r, p.Lies s.start s.stop ∧ c = ⟨s.item, s.segment, p⟩ ∧
      (s = t ∨ s.Before t) := by
  have hvalid := hp.isValid (hr.isValid t ht).1 (hr.isValid t ht).2
  have hkey (s : Stretch ℝ) (hs : s ∈ stretches r) :
      (p.project s.start s.stop).distance = 0 ↔ p.Lies s.start s.stop :=
    Geo.Point.distance_project_eq_zero hvalid (hr.isValid s hs).1 (hr.isValid s hs).2
  obtain ⟨s, hs, hsnap⟩ := Option.map_eq_some_iff.mp hc
  have hmem := mem_of_closest? hs
  rw [closest?_eq_find? (project_nonneg p) ⟨t, ht, (hkey t ht).mpr hp⟩] at hs
  obtain ⟨hzero, before, after, hsplit, hbefore⟩ := List.find?_eq_some_iff_append.mp hs
  have hlies := (hkey s hmem).mp (by simpa using hzero)
  -- A stretch in front of the first one at no distance is at a distance, so it is not `t`.
  have hfirst : s = t ∨ s.Before t := by
    have hsorted := pairwise_stretches r
    have hmem' := ht
    rw [hsplit] at hsorted hmem'
    rcases List.mem_append.mp hmem' with ht' | ht'
    · have hne := hbefore t ht'
      simp [(hkey t ht).mpr hp] at hne
    · rcases List.mem_cons.mp ht' with rfl | ht'
      · exact .inl rfl
      · exact .inr ((List.pairwise_cons.mp (List.pairwise_append.mp hsorted).2.1).1 t ht')
  refine ⟨s, hmem, hlies, ?_, hfirst⟩
  rw [← hsnap, Stretch.snap, Geo.Point.point_project (hr.isValid s hmem).1 hlies]

/-- From a point of an item, all that is left to drive is on that item or on later ones. -/
lemma item_le (honward : Onward r) {t : Stretch ℝ} (ht : t ∈ stretches r) {p : Geo.Point ℝ}
    (hp : p.Lies t.start t.stop) (hc : snap? r (some p) = some c) {g : Leg ℝ}
    (hg : g ∈ legsFrom r c) (hne : g.start ≠ g.goal) : t.item ≤ g.item := by
  obtain ⟨s, hs, hlies, rfl, hst⟩ := hr.snap?_eq ht hp hc
  have hle : s.item ≤ t.item := by
    rcases hst with rfl | hst
    · exact le_rfl
    · exact hst.item_le
  rcases mem_legsFrom hr.joined hs rfl rfl hg with h | ⟨hitem, hstart, hgoal⟩ | ⟨u, hu, hsu, hgu⟩
  · exact absurd h hne
  · rw [hitem]
    by_contra hlt
    have hend := (honward s hs t ht (by omega) p hlies hp).1
    exact hne (hstart.trans (hend.trans hgoal.symm))
  · rw [hgu.item_eq]
    by_contra hlt
    have hsu' := hsu.item_le
    have hnone := (honward s hs t ht (by omega) p hlies hp).2 u hu hsu (by omega)
    rw [← hgu.start_eq, ← hgu.goal_eq] at hnone
    exact hne hnone

/-- From the destination nothing is left to drive. -/
lemma start_eq_goal (hends : EndsOnce r) {p : Geo.Point ℝ} (hp : r.destination? = some p)
    (hc : snap? r (some p) = some c) {g : Leg ℝ} (hg : g ∈ legsFrom r c) : g.start = g.goal := by
  obtain ⟨t, ht, hstop, -⟩ := exists_stop_eq_destination hp
  have hlies : p.Lies t.start t.stop := hstop ▸ Geo.Point.lies_stop _ _
  obtain ⟨s, hs, hlies, rfl, -⟩ := hr.snap?_eq ht hlies hc
  obtain ⟨hend, hafter⟩ := hends s hs p hp hlies
  rcases mem_legsFrom hr.joined hs rfl rfl hg with h | ⟨-, hstart, hgoal⟩ | ⟨u, hu, hsu, hgu⟩
  · exact h
  · exact hstart.trans (hend.trans hgoal.symm)
  · rw [hgu.start_eq, hgu.goal_eq]
    exact hafter u hu hsu

end Unbroken

end Whereabouts.Reckoning
