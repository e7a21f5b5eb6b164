import Whereabouts.Reckoning.Drive
import Mathlib.Data.List.Basic
import Mathlib.Tactic.Common

/-! Where a walk along a route starts, and what is written where it ends. -/
namespace Whereabouts

variable {R : Type}

namespace Route

lemma mem_walkable {r : Route R} {road : Item R} {i : Nat} :
    (road, i) ∈ r.walkable ↔ r.items[i]? = some road ∧ road.isWalkable = true := by
  simp [walkable, List.mem_filter, List.mem_zipIdx_iff_getElem?]

end Route

namespace Reckoning

/-- A cursor on a segment of a walkable item. -/
structure Cursor.OnRoute (r : Route R) (c : Cursor R) (road : Route.Item R) : Prop where
  item_eq : r.items[c.item]? = some road
  walkable : road.isWalkable = true
  segment_lt : c.segment + 1 < road.points.length

lemma mem_stretchesOf {i : Route.Item R × Nat} {s : Stretch R} (hs : s ∈ stretchesOf i) :
    s.item = i.2 ∧ s.segment + 1 < i.1.points.length := by
  obtain ⟨⟨ends, n⟩, hmem, rfl⟩ := List.mem_map.mp hs
  have hn : n < (pairs i.1.points).length := (List.mem_zipIdx' hmem).1
  simp only [pairs, List.length_zip, List.length_tail] at hn
  refine ⟨rfl, ?_⟩
  change n + 1 < i.1.points.length
  omega

lemma stretchesOf_ne_nil {i : Route.Item R × Nat} (hi : i.1.isWalkable = true) :
    stretchesOf i ≠ [] := by
  intro h
  have hlen := congrArg List.length h
  have hpoints : 2 ≤ i.1.points.length := by
    simpa using (Bool.and_eq_true_iff.mp hi).2
  simp [stretchesOf, pairs] at hlen
  omega

lemma mem_stretches {r : Route R} {s : Stretch R} (hs : s ∈ stretches r) :
    ∃ road, r.items[s.item]? = some road ∧ road.isWalkable = true ∧
      s.segment + 1 < road.points.length := by
  obtain ⟨⟨road, i⟩, hi, hs⟩ := List.mem_flatMap.mp hs
  obtain ⟨hitem, hsegment⟩ := mem_stretchesOf hs
  obtain ⟨hroad, hwalkable⟩ := Route.mem_walkable.mp hi
  exact ⟨road, hitem ▸ hroad, hwalkable, hsegment⟩

lemma stretches_eq_nil {r : Route R} : stretches r = [] ↔ r.walkable = [] := by
  constructor
  · intro h
    rw [List.eq_nil_iff_forall_not_mem]
    rintro ⟨road, i⟩ hi
    have hnil := List.flatMap_eq_nil_iff.mp h _ hi
    exact stretchesOf_ne_nil (Route.mem_walkable.mp hi).2 hnil
  · intro h
    rw [stretches, h, List.flatMap_nil]

variable [Arith R]

lemma closest?_eq_none {α : Type} {key : α → R} {as : List α} :
    closest? key as = none ↔ as = [] := by
  cases as <;> simp [closest?]

lemma mem_of_closest? {α : Type} {key : α → R} {as : List α} {a : α}
    (h : closest? key as = some a) : a ∈ as := by
  cases as with
  | nil => cases h
  | cons b as =>
    obtain rfl := Option.some.inj h
    refine as.foldlRecOn (motive := fun best => best ∈ b :: as) _ List.mem_cons_self ?_
    intro best hbest x hx
    split_ifs
    · exact List.mem_cons_of_mem _ hx
    · exact hbest

/-- There is a start unless nothing of the route can be walked. -/
theorem snap?_eq_none {r : Route R} {p : Option (Geo.Point R)} :
    snap? r p = none ↔ r.walkable = [] := by
  rw [← stretches_eq_nil]
  cases p with
  | none => simp [snap?]
  | some p => simp [snap?, closest?_eq_none]

/-- A walk starts on a stretch, at its first point or at a projection onto it. -/
lemma exists_mem_of_snap? {r : Route R} {p : Option (Geo.Point R)} {c : Cursor R}
    (h : snap? r p = some c) :
    ∃ s ∈ stretches r, c.item = s.item ∧ c.segment = s.segment ∧
      (c.point = s.start ∨ ∃ q : Geo.Point R, c.point = (q.project s.start s.stop).point) := by
  cases p with
  | none =>
    obtain ⟨s, hs, rfl⟩ := Option.map_eq_some_iff.mp h
    exact ⟨s, List.mem_of_mem_head? hs, rfl, rfl, .inl rfl⟩
  | some p =>
    obtain ⟨s, hs, rfl⟩ := Option.map_eq_some_iff.mp h
    exact ⟨s, mem_of_closest? hs, rfl, rfl, .inr ⟨p, rfl⟩⟩

theorem onRoute_of_snap? {r : Route R} {p : Option (Geo.Point R)} {c : Cursor R}
    (h : snap? r p = some c) : ∃ road, c.OnRoute r road := by
  obtain ⟨s, hs, hitem, hsegment, -⟩ := exists_mem_of_snap? h
  obtain ⟨road, hroad, hwalkable, hlt⟩ := mem_stretches hs
  exact ⟨road, hitem ▸ hroad, hwalkable, hsegment ▸ hlt⟩

open Presence (contains_clear_of_contains contains_set_of_contains contains_set_self)

/-- A location on a leg has the position, the speed and the bearing there. -/
lemma arrive_onLeg (s : Settings R) (now : Timestamp) (l : Location R) (item : Nat) (speed : R)
    (start goal : Geo.Point R) (fraction : R) :
    ∃ after, arrive s now l (.onLeg item speed start goal fraction) = (.enRoute item, after) ∧
      after.position? = some (start.towards goal fraction) ∧ after.speed? = some speed ∧
      after.bearing? = some (start.bearing goal) := by
  refine ⟨_, rfl, if_pos ?_, if_pos ?_, if_pos ?_⟩
  · apply contains_set_of_contains
    apply contains_set_of_contains
    apply contains_set_of_contains
    exact contains_set_self _ _
  · apply contains_set_of_contains
    apply contains_set_of_contains
    exact contains_set_self _ _
  · apply contains_set_of_contains
    exact contains_set_self _ _

lemma arrive_atEnd (s : Settings R) (now : Timestamp) (l : Location R) (point : Geo.Point R) :
    ∃ after, arrive s now l (.atEnd point) = (.destinationReached, after) ∧
      after.position? = some point := by
  refine ⟨_, rfl, if_pos ?_⟩
  apply contains_set_of_contains
  refine contains_clear_of_contains ?_ rfl
  apply contains_set_of_contains
  exact contains_set_self _ _

lemma fixTime_arrive (s : Settings R) (now : Timestamp) (l : Location R) (stop : Stop R) :
    (arrive s now l stop).2.fixTime = now := by
  cases stop <;> rfl

/-- A move is an arrival, unless no time has passed. -/
lemma arrive_of_advance {s : Settings R} {route : Option (Route R)} {table : Option (SpeedTable R)}
    {now : Timestamp} {l after : Location R} {outcome : Outcome}
    (h : advance s route table now l = .ok (outcome, after)) :
    after = l ∨ ∃ stop, arrive s now l stop = (outcome, after) := by
  unfold advance advanceBy at h
  split_ifs at h
  split at h
  · cases h
  · split at h
    · cases h
    · simp only at h
      split_ifs at h
      · exact .inr ⟨_, Except.ok.inj h⟩
      · exact .inl (Prod.mk.inj (Except.ok.inj h)).2.symm

end Reckoning
end Whereabouts
