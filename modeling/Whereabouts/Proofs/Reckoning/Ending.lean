import Whereabouts.Arith.Binary64
import Whereabouts.Proofs.Reckoning.Stretches

/-! Where a walk along a route ends. Nothing is assumed of the arithmetic, so no length, speed or
time makes it end anywhere else. -/
namespace Whereabouts

namespace Route

variable {R : Type}

/-- A route leads somewhere unless nothing of it can be walked. -/
lemma destination?_eq_none {r : Route R} : r.destination? = none ↔ r.walkable = [] := by
  rw [Reckoning.destination?_eq, Option.bind_eq_none_iff]
  constructor
  · intro h
    rw [← List.getLast?_eq_none_iff, Option.eq_none_iff_forall_ne_some]
    rintro ⟨road, i⟩ hi
    have hwalkable := (mem_walkable.mp (List.mem_of_getLast? hi)).2
    obtain ⟨p, hp⟩ := Reckoning.getLast?_points hwalkable
    cases hp.symm.trans (h _ hi)
  · intro h i hi
    rw [h] at hi
    cases hi

end Route

namespace Reckoning

variable {R : Type} {r : Route R} {c : Cursor R}

lemma Cursor.OnRoute.mem_walkable {road : Route.Item R}
    (hc : c.OnRoute r road) : (road, c.item) ∈ r.walkable :=
  Route.mem_walkable.mpr ⟨hc.item_eq, hc.walkable⟩

lemma mem_ahead {speedOn : Route.Item R → R} {w : Waypoint R} (hw : w ∈ ahead speedOn r c) :
    ∃ road, r.items[w.item]? = some road ∧ road.isWalkable = true ∧ c.item ≤ w.item ∧
      w.speed = speedOn road ∧ w.point ∈ road.points := by
  obtain ⟨⟨road, i⟩, hi, hpoint⟩ := List.mem_flatMap.mp hw
  obtain ⟨hmem, hle⟩ := List.mem_filter.mp hi
  obtain ⟨hroad, hwalkable⟩ := Route.mem_walkable.mp hmem
  obtain ⟨p, hp, rfl⟩ := List.mem_map.mp hpoint
  refine ⟨road, hroad, hwalkable, of_decide_eq_true hle, rfl, ?_⟩
  split_ifs at hp
  · exact List.mem_of_mem_drop hp
  · exact hp

/-- The last point ahead is the destination. -/
lemma getLast?_ahead {road : Route.Item R} (hc : c.OnRoute r road) (speedOn : Route.Item R → R) :
    (ahead speedOn r c).getLast?.map Waypoint.point = r.destination? := by
  rw [ahead_eq hc, List.getLast?_map, Option.map_map, ← getLast?_goalsBehind hc]
  rfl

variable [Arith R]

/-- Without a position the start is on the first item that can be walked. -/
lemma item_le_of_snap?_none (hc : snap? r none = some c) {i : Nat} {road : Route.Item R}
    (hroad : r.items[i]? = some road) (hwalkable : road.isWalkable = true) : c.item ≤ i := by
  obtain ⟨s, hs, rfl⟩ := Option.map_eq_some_iff.mp hc
  obtain ⟨t, ht⟩ := List.exists_mem_of_ne_nil _ (stretchesOf_ne_nil (i := (road, i)) hwalkable)
  have hmem : t ∈ stretches r :=
    List.mem_flatMap_of_mem (Route.mem_walkable.mpr ⟨hroad, hwalkable⟩) ht
  have hitem : t.item = i := (mem_stretchesOf ht).1
  obtain ⟨rest, hrest⟩ := List.head?_eq_some_iff.mp hs
  have hsorted := pairwise_stretches r
  rw [hrest] at hmem hsorted
  rcases List.mem_cons.mp hmem with rfl | hlater
  · exact hitem.le
  · have hbefore : s.Before t := (List.pairwise_cons.mp hsorted).1 t hlater
    exact hbefore.item_le.trans hitem.le

/-- How a drive along a route from a cursor may stop: on the way to a point of an item that can be
walked, at or behind the item of the cursor, with too little time left for the leg; or at the
destination. `Left` is what is known of the time that is left. -/
inductive Stops (length : Geo.Point R → Geo.Point R → R) (speedOn : Route.Item R → R) (r : Route R)
    (c : Cursor R) (Left : R → Prop) : Stop R → Prop
  | onLeg {item : Nat} {road : Route.Item R} {start goal : Geo.Point R} {left : R}
    (item_eq : r.items[item]? = some road) (walkable : road.isWalkable = true)
    (le : c.item ≤ item) (start_eq : start = c.point ∨ ∃ i ∈ r.items, start ∈ i.points)
    (goal_mem : goal ∈ road.points) (known : Left left)
    (lt : left < legTime (length start goal) (speedOn road)) :
    Stops length speedOn r c Left (.onLeg item (speedOn road) start goal
      (left / legTime (length start goal) (speedOn road)))
  | atEnd {point : Geo.Point R} (point_eq : r.destination? = some point) :
    Stops length speedOn r c Left (.atEnd point)

section

variable (length : Geo.Point R → Geo.Point R → R) {Left : R → Prop}
  (hspend : ∀ left time, Left left → ¬ left < time → Left (left - time))

include hspend in
/-- A drive stops on the way to one of the points before it, or at the last of them. -/
lemma drive_cases {budget : R} (hbudget : Left budget) (position : Geo.Point R)
    (ways : List (Waypoint R)) :
    (∃ w ∈ ways, ∃ start left, (start = position ∨ start ∈ ways.map Waypoint.point) ∧
      Left left ∧ left < legTime (length start w.point) w.speed ∧
      drive length budget position ways =
        .onLeg w.item w.speed start w.point (left / legTime (length start w.point) w.speed)) ∨
    drive length budget position ways =
      .atEnd ((ways.getLast?.map Waypoint.point).getD position) := by
  induction ways generalizing budget position with
  | nil => exact .inr rfl
  | cons w ways ih =>
    rw [drive]
    split_ifs with hlt
    · exact .inl ⟨w, List.mem_cons_self, position, budget, .inl rfl, hbudget, hlt, rfl⟩
    · rcases ih (hspend budget _ hbudget hlt) w.point with
        ⟨v, hv, start, left, hstart, hleft, hshort, h⟩ | h
      · refine .inl ⟨v, List.mem_cons_of_mem w hv, start, left, .inr ?_, hleft, hshort, h⟩
        exact hstart.elim (· ▸ List.mem_cons_self) (List.mem_cons_of_mem _)
      · right
        rw [h, List.getLast?_cons]
        cases ways.getLast? <;> rfl

include hspend in
theorem stops_drive {budget : R} (hbudget : Left budget) (speedOn : Route.Item R → R)
    {road : Route.Item R} (hc : c.OnRoute r road) :
    Stops length speedOn r c Left (drive length budget c.point (ahead speedOn r c)) := by
  rcases drive_cases length hspend hbudget c.point (ahead speedOn r c) with
    ⟨w, hw, start, left, hstart, hleft, hlt, h⟩ | h
  · obtain ⟨on, hon, hwalkable, hle, hspeed, hgoal⟩ := mem_ahead hw
    rw [h]
    rw [hspeed] at hlt ⊢
    refine .onLeg hon hwalkable hle (hstart.imp_right fun hmem => ?_) hgoal hleft hlt
    obtain ⟨v, hv, rfl⟩ := List.mem_map.mp hmem
    obtain ⟨i, hi, -, -, -, hpoint⟩ := mem_ahead hv
    exact ⟨i, List.mem_of_getElem? hi, hpoint⟩
  · have hwalkable : r.walkable ≠ [] := List.ne_nil_of_mem hc.mem_walkable
    obtain ⟨p, hp⟩ := Option.ne_none_iff_exists'.mp (mt Route.destination?_eq_none.mp hwalkable)
    rw [getLast?_ahead hc, hp] at h
    rw [h]
    exact .atEnd hp

variable (s : Settings R) (table : Option (SpeedTable R)) (now : Timestamp) {l : Location R}

include hspend in
/-- From a start a location stays if no time has passed; otherwise it arrives where a drive may
stop. -/
theorem advanceBy_cases (hbudget : ∀ time, (0.0 : R) < time → Left time)
    (hfix : l.fixTime ≠ Timestamp.never) (hc : snap? r l.position? = some c) :
    (¬ (0.0 : R) < Timestamp.deciseconds l.fixTime now ∧
      advanceBy length s (some r) table now l = .ok (.enRoute c.item, l)) ∨
    (0.0 : R) < Timestamp.deciseconds l.fixTime now ∧ ∃ stop,
      Stops length (s.speedOn table) r c Left stop ∧
        advanceBy length s (some r) table now l = .ok (arrive s now l stop) := by
  obtain ⟨road, hroad⟩ := onRoute_of_snap? hc
  by_cases hpos : (0.0 : R) < Timestamp.deciseconds l.fixTime now
  · exact .inr ⟨hpos, _, stops_drive length hspend (hbudget _ hpos) (s.speedOn table) hroad,
      advanceBy_of_snap? hfix hc hpos⟩
  · exact .inl ⟨hpos, by simp [advanceBy, hfix, hc, hpos]⟩

/-- Nothing needs to be known of the time that is left. -/
lemma advanceBy_stops (hfix : l.fixTime ≠ Timestamp.never) (hc : snap? r l.position? = some c) :
    (¬ (0.0 : R) < Timestamp.deciseconds l.fixTime now ∧
      advanceBy length s (some r) table now l = .ok (.enRoute c.item, l)) ∨
    (0.0 : R) < Timestamp.deciseconds l.fixTime now ∧ ∃ stop,
      Stops length (s.speedOn table) r c (fun _ => True) stop ∧
        advanceBy length s (some r) table now l = .ok (arrive s now l stop) :=
  advanceBy_cases length (fun _ _ _ _ => trivial) s table now (fun _ _ => trivial) hfix hc

/-- A location that ever had a fix fails to move only along a route without streets. -/
lemma advanceBy_some_eq_error_iff {e : Obstacle} (hfix : l.fixTime ≠ Timestamp.never) :
    advanceBy length s (some r) table now l = .error e ↔
      e = .noStreetGeometry ∧ r.walkable = [] := by
  cases hc : snap? r l.position? with
  | none => simp [advanceBy_of_snap?_eq_none hfix hc, snap?_eq_none.mp hc, eq_comm]
  | some c =>
    obtain ⟨road, hroad⟩ := onRoute_of_snap? hc
    have hwalkable : r.walkable ≠ [] := List.ne_nil_of_mem hroad.mem_walkable
    rcases advanceBy_stops length s table now hfix hc with ⟨-, h⟩ | ⟨-, stop, -, h⟩ <;>
    simp [h, hwalkable]

end

/-- Whatever lengths, speeds and times are, a walk fails exactly if its route has no destination. It
ends nowhere but at that destination or on the way, and then on an item that can be walked and that
is not before the item of its start, which without a position is the first one that can be
walked. -/
theorem advanceBy_ends_on_route (length : Geo.Point R → Geo.Point R → R) (s : Settings R)
    (table : Option (SpeedTable R)) (r : Route R) (now : Timestamp) {l : Location R}
    (hfix : l.fixTime ≠ Timestamp.never) :
    (∀ e, advanceBy length s (some r) table now l = .error e ↔
      e = .noStreetGeometry ∧ r.destination? = none) ∧
    (∀ after, advanceBy length s (some r) table now l = .ok (.destinationReached, after) →
      ∃ p, r.destination? = some p ∧ after.position? = some p) ∧
    ∀ i after, advanceBy length s (some r) table now l = .ok (.enRoute i, after) →
      (∃ road, r.items[i]? = some road ∧ road.isWalkable = true) ∧
      ∃ c start, snap? r l.position? = some c ∧ c.OnRoute r start ∧ c.item ≤ i ∧
        (l.position? = none → ∀ j road, r.items[j]? = some road → road.isWalkable = true →
          c.item ≤ j) := by
  refine ⟨fun e => ?_, ?_⟩
  · rw [advanceBy_some_eq_error_iff length s table now hfix, Route.destination?_eq_none]
  cases hc : snap? r l.position? with
  | none =>
    rw [advanceBy_of_snap?_eq_none hfix hc]
    exact ⟨nofun, nofun⟩
  | some c =>
    obtain ⟨road, hroad⟩ := onRoute_of_snap? hc
    have hfirst (hl : l.position? = none) (j : Nat) (on : Route.Item R)
        (hon : r.items[j]? = some on) (hw : on.isWalkable = true) : c.item ≤ j :=
      item_le_of_snap?_none (hl ▸ hc) hon hw
    rcases advanceBy_stops length s table now hfix hc with ⟨-, h⟩ | ⟨-, stop, hstop, h⟩
    · rw [h]
      refine ⟨nofun, ?_⟩
      rintro i after ⟨⟩
      exact ⟨⟨road, hroad.item_eq, hroad.walkable⟩, c, road, rfl, hroad, le_rfl, hfirst⟩
    · rw [h]
      cases hstop with
      | onLeg hon hw hle =>
        refine ⟨nofun, ?_⟩
        rintro i after ⟨⟩
        exact ⟨⟨_, hon, hw⟩, c, road, rfl, hroad, hle, hfirst⟩
      | @atEnd p hp =>
        obtain ⟨after, harrive, hposition⟩ := arrive_atEnd s now l p
        rw [harrive]
        refine ⟨?_, nofun⟩
        rintro _ ⟨⟩
        exact ⟨p, hp, hposition⟩

/-- Legs whose lengths are not numbers are all passed, and then the route is at its end: not at the
last of its items, but at the last one that can be walked. -/
theorem advanceBy_ends_on_route_nan :
    let street (points : List (Geo.Point Float)) : Route.Item Float := ⟨.street, none, none, points⟩
    let r : Route Float := ⟨[⟨.routeStart, none, none, [⟨1, 1⟩, ⟨2, 2⟩]⟩,
      street [⟨0, 0⟩, ⟨0, 1⟩, ⟨0, 2⟩], street [⟨5, 5⟩]]⟩
    let l : Location Float := { Location.blank .low with fixTime := 1000 }
    l.fixTime ≠ Timestamp.never ∧ ∃ after,
      advanceBy (fun _ _ => Binary64.nan) Settings.default (some r) none 7000 l =
        .ok (.destinationReached, after) ∧ after.position? = some ⟨0, 2⟩ := by
  intro street r l
  have hfix : l.fixTime ≠ Timestamp.never := by decide
  have hreached : (advanceBy (fun _ _ => Binary64.nan) Settings.default (some r) none 7000 l).map
      Prod.fst = .ok .destinationReached := by decide +kernel
  cases hrun : advanceBy (fun _ _ => Binary64.nan) Settings.default (some r) none 7000 l with
  | error e =>
    rw [hrun] at hreached
    cases hreached
  | ok result =>
    obtain ⟨outcome, after⟩ := result
    rw [hrun] at hreached
    obtain rfl : outcome = .destinationReached := Except.ok.inj hreached
    obtain ⟨p, hp, hposition⟩ := (advanceBy_ends_on_route (fun _ _ => Binary64.nan)
      Settings.default none r 7000 hfix).2.1 after hrun
    exact ⟨hfix, after, rfl, hposition.trans hp.symm⟩

end Reckoning
end Whereabouts
