import Whereabouts.Proofs.Reckoning.Walk
import Mathlib.Data.List.Chain

/-! The stretches of a route in travel order, and the legs of a walk along those that are ahead. -/
namespace Whereabouts

namespace Route

variable {R : Type}

/-- Each walkable item starts where the one before it ends. -/
def Joined (r : Route R) : Prop :=
  r.walkable.IsChain fun i j => i.1.points.getLast? = j.1.points.head?

/-- Every point of the route is a valid coordinate. -/
def OnGlobe [Arith R] (r : Route R) : Prop := ∀ i ∈ r.items, ∀ p ∈ i.points, p.isValid = true

instance [Arith R] (r : Route R) : Decidable r.OnGlobe :=
  inferInstanceAs (Decidable (∀ i ∈ r.items, ∀ p ∈ i.points, p.isValid = true))

/-- The walkable items around one of them. -/
lemma walkable_eq_append {r : Route R} {road : Item R} {i : Nat} (hroad : r.items[i]? = some road)
    (hwalkable : road.isWalkable = true) :
    r.walkable = (r.items.zipIdx.take i).filter (·.1.isWalkable) ++
      (road, i) :: (r.items.zipIdx.drop (i + 1)).filter (·.1.isWalkable) := by
  obtain ⟨hlt, rfl⟩ := List.getElem?_eq_some_iff.mp hroad
  have hdrop : r.items.zipIdx.drop i = (r.items[i], i) :: r.items.zipIdx.drop (i + 1) := by
    rw [List.drop_eq_getElem_cons (by simpa using hlt)]
    simp
  have hfilter := List.filter_append (p := fun j => j.1.isWalkable) (r.items.zipIdx.take i)
    (r.items.zipIdx.drop i)
  rw [List.take_append_drop, hdrop, List.filter_cons_of_pos (by exact hwalkable)] at hfilter
  exact hfilter

lemma pairwise_walkable (r : Route R) : r.walkable.Pairwise fun i j => i.2 < j.2 := by
  refine List.Pairwise.filter _ ?_
  rw [← List.pairwise_map (f := Prod.snd) (R := (· < ·)), List.zipIdx_map_snd]
  exact List.pairwise_lt_range'

end Route

namespace Reckoning

variable {R : Type}

/-- One stretch comes before another in travel order. -/
def Stretch.Before (s t : Stretch R) : Prop :=
  s.item < t.item ∨ s.item = t.item ∧ s.segment < t.segment

lemma Stretch.Before.item_le {s t : Stretch R} (h : s.Before t) : s.item ≤ t.item := by
  rcases h with h | ⟨h, -⟩ <;> omega

lemma mem_stretchesOf_iff {i : Route.Item R × Nat} {s : Stretch R} :
    s ∈ stretchesOf i ↔ s.item = i.2 ∧ i.1.points[s.segment]? = some s.start ∧
      i.1.points[s.segment + 1]? = some s.stop := by
  simp only [stretchesOf, List.mem_map, List.mem_zipIdx_iff_getElem?, pairs,
    List.getElem?_zip_eq_some, List.getElem?_tail]
  constructor
  · rintro ⟨p, ⟨hstart, hstop⟩, rfl⟩
    exact ⟨rfl, hstart, hstop⟩
  · rintro ⟨hitem, hstart, hstop⟩
    exact ⟨((s.start, s.stop), s.segment), ⟨hstart, hstop⟩, by rw [← hitem]⟩

lemma mem_stretches_iff {r : Route R} {s : Stretch R} :
    s ∈ stretches r ↔ ∃ road, r.items[s.item]? = some road ∧ road.isWalkable = true ∧
      road.points[s.segment]? = some s.start ∧ road.points[s.segment + 1]? = some s.stop := by
  simp only [stretches, List.mem_flatMap, mem_stretchesOf_iff]
  constructor
  · rintro ⟨⟨road, i⟩, hi, rfl, hstart, hstop⟩
    obtain ⟨hroad, hwalkable⟩ := Route.mem_walkable.mp hi
    exact ⟨road, hroad, hwalkable, hstart, hstop⟩
  · rintro ⟨road, hroad, hwalkable, hstart, hstop⟩
    exact ⟨(road, s.item), Route.mem_walkable.mpr ⟨hroad, hwalkable⟩, rfl, hstart, hstop⟩

/-- Stretches are listed in travel order. -/
lemma pairwise_stretches (r : Route R) : (stretches r).Pairwise Stretch.Before := by
  refine List.pairwise_flatMap.mpr ⟨?_, ?_⟩
  · intro i _
    refine List.pairwise_map.mpr ?_
    have hindex : ((pairs i.1.points).zipIdx).Pairwise fun p q => p.2 < q.2 := by
      rw [← List.pairwise_map (f := Prod.snd) (R := (· < ·)), List.zipIdx_map_snd]
      exact List.pairwise_lt_range'
    exact hindex.imp fun h => .inr ⟨rfl, h⟩
  · refine (Route.pairwise_walkable r).imp fun h s hs t ht => .inl ?_
    rw [(mem_stretchesOf hs).1, (mem_stretchesOf ht).1]
    exact h

/-- A leg leads along a whole stretch. -/
structure Leg.Along (g : Leg R) (s : Stretch R) : Prop where
  item_eq : g.item = s.item
  start_eq : g.start = s.start
  goal_eq : g.goal = s.stop

lemma legsVia_append (start : Geo.Point R) (as bs : List (Goal R)) :
    legsVia start (as ++ bs) =
      legsVia start as ++ legsVia ((as.getLast?.map (·.2)).getD start) bs := by
  induction as generalizing start with
  | nil => rfl
  | cons a as ih =>
    obtain ⟨i, p⟩ := a
    simp only [List.cons_append, legsVia, ih, List.getLast?_cons, Option.map_some, Option.getD_some]
    cases as.getLast? <;> rfl

/-- The legs to the points of one item: one to the first point, and those between points. -/
lemma mem_legsVia_map {i : Route.Item R × Nat} {points : List (Geo.Point R)}
    {start : Geo.Point R} {g : Leg R} (hg : g ∈ legsVia start (points.map (i, ·))) :
    g.item = i.2 ∧ ((g.start = start ∧ points.head? = some g.goal) ∨
      ∃ k, points[k]? = some g.start ∧ points[k + 1]? = some g.goal) := by
  induction points generalizing start with
  | nil => cases hg
  | cons p points ih =>
    rcases List.mem_cons.mp hg with rfl | hg
    · exact ⟨rfl, .inl ⟨rfl, rfl⟩⟩
    · obtain ⟨hitem, ⟨hstart, hgoal⟩ | ⟨k, hk⟩⟩ := ih hg
      · rw [List.head?_eq_getElem?] at hgoal
        exact ⟨hitem, .inr ⟨0, by simp [hstart], hgoal⟩⟩
      · exact ⟨hitem, .inr ⟨k + 1, hk⟩⟩

lemma getLast?_goals (i : Route.Item R × Nat) (points : List (Geo.Point R)) :
    ((points.map fun p => ((i, p) : Goal R)).getLast?.map (·.2)) = points.getLast? := by
  simp [List.getLast?_map, Function.comp_def]

lemma getLast?_points {road : Route.Item R} (h : road.isWalkable = true) :
    ∃ p, road.points.getLast? = some p := by
  have hlong : 2 ≤ road.points.length := by simpa using (Bool.and_eq_true_iff.mp h).2
  exact ⟨_, List.getLast?_eq_some_getLast (List.ne_nil_of_length_pos (by omega))⟩

/-- When items join up, the legs from the end of one through those behind it lead along their
stretches, apart from those that lead nowhere. -/
lemma mem_legsVia_behind {i : Route.Item R × Nat} {items : List (Route.Item R × Nat)}
    (hjoined : (i :: items).IsChain fun i j => i.1.points.getLast? = j.1.points.head?)
    (hwalkable : ∀ j ∈ items, j.1.isWalkable = true) {last : Geo.Point R}
    (hlast : i.1.points.getLast? = some last) {g : Leg R}
    (hg : g ∈ legsVia last (items.flatMap fun j => j.1.points.map (j, ·))) :
    g.start = g.goal ∨ ∃ j ∈ items, ∃ u ∈ stretchesOf j, g.Along u := by
  induction items generalizing i last with
  | nil => cases hg
  | cons j items ih =>
    obtain ⟨hlink, hjoined⟩ := List.isChain_cons_cons.mp hjoined
    obtain ⟨end', hend⟩ := getLast?_points (hwalkable j List.mem_cons_self)
    rw [List.flatMap_cons, legsVia_append, List.mem_append, getLast?_goals, hend] at hg
    rcases hg with hg | hg
    · obtain ⟨hitem, ⟨hstart, hgoal⟩ | ⟨k, hk, hk'⟩⟩ := mem_legsVia_map hg
      · -- The leg to the first point of an item starts there, where the item before it ends.
        rw [← hlink, hlast] at hgoal
        exact .inl (hstart.trans (Option.some.inj hgoal))
      · have hu : (⟨j.2, k, g.start, g.goal⟩ : Stretch R) ∈ stretchesOf j :=
          mem_stretchesOf_iff.mpr ⟨rfl, hk, hk'⟩
        exact .inr ⟨j, List.mem_cons_self, _, hu, hitem, rfl, rfl⟩
    · rcases ih hjoined (fun k hk => hwalkable k (List.mem_cons_of_mem j hk)) hend hg with
        h | ⟨k, hk, h⟩
      · exact .inl h
      · exact .inr ⟨k, List.mem_cons_of_mem j hk, h⟩

/-- The legs from a cursor lead to the end of its stretch and along the stretches behind, apart from
those that lead nowhere. -/
theorem mem_legsFrom {r : Route R} (hr : r.Joined) {s : Stretch R} (hs : s ∈ stretches r)
    {c : Cursor R} (hitem : c.item = s.item) (hsegment : c.segment = s.segment) {g : Leg R}
    (hg : g ∈ legsFrom r c) :
    g.start = g.goal ∨ (g.item = s.item ∧ g.start = c.point ∧ g.goal = s.stop) ∨
      ∃ u ∈ stretches r, s.Before u ∧ g.Along u := by
  obtain ⟨road, hroad, hwalkable, -, hstop⟩ := mem_stretches_iff.mp hs
  have hsplit := Route.walkable_eq_append hroad hwalkable
  have hjoined : r.walkable.IsChain _ := hr
  rw [hsplit] at hjoined
  rw [legsFrom, goalsBehind, hitem, hsegment, hroad, legsVia_append, List.mem_append,
    Option.toList_some, List.flatMap_singleton, getLast?_goals] at hg
  rcases hg with hg | hg
  · obtain ⟨hgitem, ⟨hstart, hgoal⟩ | ⟨k, hk, hk'⟩⟩ := mem_legsVia_map hg
    · rw [List.head?_drop, hstop] at hgoal
      exact .inr (.inl ⟨hgitem, hstart, (Option.some.inj hgoal).symm⟩)
    · rw [List.getElem?_drop] at hk hk'
      have hu : (⟨s.item, s.segment + 1 + k, g.start, g.goal⟩ : Stretch R) ∈ stretches r :=
        mem_stretches_iff.mpr ⟨road, hroad, hwalkable, hk, hk'⟩
      refine .inr (.inr ⟨_, hu, .inr ⟨rfl, ?_⟩, hgitem, rfl, rfl⟩)
      change s.segment < s.segment + 1 + k
      omega
  · obtain ⟨last, hlast⟩ := getLast?_points hwalkable
    have hlt := (List.getElem?_eq_some_iff.mp hstop).1
    rw [List.getLast?_drop, if_neg (by omega), hlast] at hg
    have hbehind (j) (hj : j ∈ (r.items.zipIdx.drop (s.item + 1)).filter (·.1.isWalkable)) :
        j.1.isWalkable = true := (List.mem_filter.mp hj).2
    rcases mem_legsVia_behind hjoined.right_of_append hbehind hlast hg with
      h | ⟨j, hj, u, hu, hgu⟩
    · exact .inl h
    · have hju : j ∈ r.walkable := by
        rw [hsplit]
        exact List.mem_append_right _ (List.mem_cons_of_mem _ hj)
      have hlater : s.item < j.2 := by
        have hsorted := Route.pairwise_walkable r
        rw [hsplit] at hsorted
        exact (List.pairwise_cons.mp (List.pairwise_append.mp hsorted).2.1).1 j hj
      refine .inr (.inr ⟨u, List.mem_flatMap_of_mem hju hu, .inl ?_, hgu⟩)
      rw [(mem_stretchesOf hu).1]
      exact hlater

lemma destination?_eq (r : Route R) :
    r.destination? = r.walkable.getLast?.bind fun i => i.1.points.getLast? := by
  have hitems : r.items.filter Route.Item.isWalkable = r.walkable.map (·.1) := by
    conv_lhs => rw [← List.zipIdx_map_fst 0 r.items]
    exact List.filter_map
  rw [Route.destination?, ← List.getLast?_filter, hitems, List.getLast?_map]
  cases r.walkable.getLast? <;> rfl

/-- A stretch of the last item ends at the destination. -/
lemma exists_stop_eq_destination {r : Route R} {p : Geo.Point R} (h : r.destination? = some p) :
    ∃ s ∈ stretches r, s.stop = p ∧ ∀ t ∈ stretches r, t.item ≤ s.item := by
  rw [destination?_eq] at h
  obtain ⟨⟨road, i⟩, hi, hp⟩ := Option.bind_eq_some_iff.mp h
  obtain ⟨hroad, hwalkable⟩ := Route.mem_walkable.mp (List.mem_of_getLast? hi)
  have hlong : 2 ≤ road.points.length := by simpa using (Bool.and_eq_true_iff.mp hwalkable).2
  obtain ⟨n, hn⟩ : ∃ n, road.points.length = n + 2 := ⟨road.points.length - 2, by omega⟩
  have hstart : road.points[n]? = some road.points[n] := List.getElem?_eq_getElem (by omega)
  have hstop : road.points[n + 1]? = some p := by
    rw [List.getLast?_eq_getElem?, hn] at hp
    exact hp
  refine ⟨⟨i, n, _, p⟩, mem_stretches_iff.mpr ⟨road, hroad, hwalkable, hstart, hstop⟩, rfl, ?_⟩
  intro t ht
  obtain ⟨j, hj, hjt⟩ := List.mem_flatMap.mp ht
  obtain ⟨init, hinit⟩ := List.getLast?_eq_some_iff.mp hi
  have hsorted := Route.pairwise_walkable r
  rw [hinit] at hj hsorted
  rw [(mem_stretchesOf hjt).1]
  rcases List.mem_append.mp hj with hj | hj
  · exact ((List.pairwise_append.mp hsorted).2.2 j hj _ List.mem_cons_self).le
  · exact (congrArg Prod.snd (List.mem_singleton.mp hj)).le

section

variable [Arith R] {r : Route R} (hr : r.OnGlobe)

include hr

lemma isValid_of_mem_stretches {s : Stretch R} (hs : s ∈ stretches r) :
    s.start.isValid = true ∧ s.stop.isValid = true := by
  obtain ⟨road, hroad, -, hstart, hstop⟩ := mem_stretches_iff.mp hs
  have hitem := List.mem_of_getElem? hroad
  exact ⟨hr road hitem _ (List.mem_of_getElem? hstart),
    hr road hitem _ (List.mem_of_getElem? hstop)⟩

lemma isValid_destination {p : Geo.Point R} (h : r.destination? = some p) : p.isValid = true := by
  obtain ⟨s, hs, rfl, -⟩ := exists_stop_eq_destination h
  exact (isValid_of_mem_stretches hr hs).2

end

/-- The last of the points behind a cursor is the destination. -/
lemma getLast?_goalsBehind {r : Route R} {c : Cursor R} {road : Route.Item R}
    (hc : c.OnRoute r road) : (goalsBehind r c).getLast?.map (·.2) = r.destination? := by
  have hlt := hc.segment_lt
  have hrest : ((road.points.drop (c.segment + 1)).map fun p => (((road, c.item), p) : Goal R)
      ).getLast?.map (·.2) = road.points.getLast? := by
    rw [getLast?_goals, List.getLast?_drop, if_neg (by omega)]
  rw [destination?_eq, Route.walkable_eq_append hc.item_eq hc.walkable, goalsBehind, hc.item_eq,
    Option.toList_some, List.flatMap_singleton]
  rcases List.eq_nil_or_concat ((r.items.zipIdx.drop (c.item + 1)).filter (·.1.isWalkable)) with
    hnil | ⟨init, j, hj⟩
  · rw [hnil, List.flatMap_nil, List.append_nil, hrest]
    simp
  · have hmem : j ∈ (r.items.zipIdx.drop (c.item + 1)).filter (·.1.isWalkable) := by simp [hj]
    obtain ⟨last, hlast⟩ := getLast?_points (List.mem_filter.mp hmem).2
    rw [hj, List.concat_eq_append, List.flatMap_append, ← List.append_assoc, List.getLast?_append,
      ← List.cons_append, ← List.append_assoc, List.getLast?_concat]
    simp [hlast]

/-- The last leg ends at the destination. -/
lemma goal_eq_destination {r : Route R} {c : Cursor R} {road : Route.Item R}
    (hc : c.OnRoute r road) {g : Leg R} (hg : g ∈ (legsFrom r c).getLast?) :
    r.destination? = some g.goal := by
  have hgoal (start : Geo.Point R) (goals : List (Goal R)) :
      (legsVia start goals).getLast?.map Leg.goal = goals.getLast?.map (·.2) := by
    induction goals generalizing start with
    | nil => rfl
    | cons x goals ih =>
      rw [legsVia, List.getLast?_cons, List.getLast?_cons, Option.map_some, Option.map_some]
      have ih := ih x.2
      cases hlegs : (legsVia x.2 goals).getLast? <;> cases hgoals : goals.getLast? <;>
        simp_all
  rw [← getLast?_goalsBehind hc, ← hgoal c.point]
  exact congrArg (Option.map Leg.goal) hg

end Reckoning
end Whereabouts
