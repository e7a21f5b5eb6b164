import Whereabouts.Proofs.Binary64.Elapsed
import Whereabouts.Proofs.Location.Agreement
import Whereabouts.Proofs.Reckoning.Ending

/-! Moves that write to a location in place: how they end, what they write, and that one that meets
an obstacle has written nothing. -/
namespace Whereabouts.Reckoning

variable {R : Type}

/-- When an obstacle keeps a location from moving. A route without streets does so only if there
ever was a fix. -/
def Obstacle.Blocks (l : Location R) (route : Option (Route R)) : Obstacle → Prop
  | noPriorFix => l.fixTime = Timestamp.never
  | noRoute => l.fixTime ≠ Timestamp.never ∧ route = none
  | noStreetGeometry => l.fixTime ≠ Timestamp.never ∧ ∃ r, route = some r ∧
      ∀ road ∈ r.items, road.kind = .street → road.points.length < 2

lemma walkable_eq_nil_iff {r : Route R} :
    r.walkable = [] ↔ ∀ road ∈ r.items, road.kind = .street → road.points.length < 2 := by
  have hwalkable (road : Route.Item R) :
      (road.kind = .street → road.points.length < 2) ↔ ¬ road.isWalkable = true := by
    simp [Route.Item.isWalkable]
  rw [List.eq_nil_iff_forall_not_mem]
  constructor
  · intro h road hroad
    obtain ⟨i, hi⟩ := List.mem_iff_getElem?.mp hroad
    exact (hwalkable road).mpr fun hw => h (road, i) (Route.mem_walkable.mpr ⟨hi, hw⟩)
  · rintro h ⟨road, i⟩ hmem
    obtain ⟨hi, hw⟩ := Route.mem_walkable.mp hmem
    exact (hwalkable road).mp (h road (List.mem_of_getElem? hi)) hw

section

variable (s : Settings R) (now : Timestamp) (l : Location R)

lemma reading_stamp :
    (stamp s now l).reading =
      { l.reading with accuracy := some s.accuracy, fixTime := now, validity := .valid } := by
  have h : (stamp s now l).reading =
      { (l.setAccuracy s.accuracy).reading with fixTime := now, validity := .valid } := rfl
  rw [h, Location.reading_setAccuracy]

variable [Arith R]

lemma reading_arrive_onLeg (item : Nat) (speed : R) (start goal : Geo.Point R) (fraction : R) :
    (arrive s now l (.onLeg item speed start goal fraction)).2.reading =
      { l.reading with
        position := some (start.towards goal fraction), speed := some speed,
        bearing := some (start.bearing goal), accuracy := some s.accuracy, fixTime := now,
        validity := .valid } := by
  rw [arrive, reading_stamp]
  simp only [Location.reading_setPosition, Location.reading_setSpeed, Location.reading_setBearing]

lemma reading_arrive_atEnd (point : Geo.Point R) :
    (arrive s now l (.atEnd point)).2.reading =
      { l.reading with
        position := some point, speed := some 0.0, bearing := none, accuracy := some s.accuracy,
        fixTime := now, validity := .valid } := by
  rw [arrive, reading_stamp]
  simp only [Location.reading_setPosition, Location.reading_setSpeed,
    Location.reading_clear_bearing]

end

variable [Arith R]

/-- What a location tells after a move along a route, and that all else that it tells is as
before. -/
inductive Moves (s : Settings R) (table : Option (SpeedTable R)) (r : Route R) (now : Timestamp)
    (l after : Location R) : Outcome → Prop
  | enRoute {item : Nat} {road : Route.Item R} (item_eq : r.items[item]? = some road)
    (walkable : road.isWalkable = true) (p : Geo.Point R) (bearing : R)
    (reading_eq : after.reading =
      { l.reading with
        position := some p, speed := some (s.speedOn table road), bearing := some bearing,
        accuracy := some s.accuracy, fixTime := now, validity := .valid }) :
    Moves s table r now l after (.enRoute item)
  | destinationReached (p : Geo.Point R)
    (reading_eq : after.reading =
      { l.reading with
        position := some p, speed := some 0.0, bearing := none, accuracy := some s.accuracy,
        fixTime := now, validity := .valid }) :
    Moves s table r now l after .destinationReached

/-- A program on a location that may meet an obstacle. -/
abbrev InPlace (R : Type) := EStateM Obstacle (Location R)

namespace InPlace

def stamp (s : Settings R) (now : Timestamp) : InPlace R Unit := do
  modify (·.setAccuracy s.accuracy)
  modify fun l => { l with fixTime := now }
  modify fun l => { l with validity := .valid }

/-- Spend the time on one leg after the other, and write where it ends. -/
def drive (length : Geo.Point R → Geo.Point R → R) (s : Settings R) (now : Timestamp) (budget : R)
    (position : Geo.Point R) : List (Waypoint R) → InPlace R Outcome
  | [] => do
    modify (·.setPosition position)
    modify (·.setSpeed 0.0)
    modify (·.clear .bearing)
    stamp s now
    return .destinationReached
  | w :: rest => do
    let required := legTime (length position w.point) w.speed
    if budget < required then
      modify (·.setPosition (position.towards w.point (budget / required)))
      modify (·.setSpeed w.speed)
      modify (·.setBearing (position.bearing w.point))
      stamp s now
      return .enRoute w.item
    else drive length s now (budget - required) w.point rest

def advanceBy (length : Geo.Point R → Geo.Point R → R) (s : Settings R) (route : Option (Route R))
    (table : Option (SpeedTable R)) (now : Timestamp) : InPlace R Outcome := do
  let l ← get
  if l.fixTime = Timestamp.never then
    throw .noPriorFix
  match route with
  | none => throw .noRoute
  | some r =>
    match snap? r l.position? with
    | none => throw .noStreetGeometry
    | some c =>
      let budget : R := Timestamp.deciseconds l.fixTime now
      if (0.0 : R) < budget then
        drive length s now budget c.point (ahead (s.speedOn table) r c)
      else return .enRoute c.item

/-- A program ends as a function does that returns a new location, or leaves the old one. -/
def ended (l : Location R) :
    Except Obstacle (Outcome × Location R) → EStateM.Result Obstacle (Location R) Outcome
  | .ok (outcome, after) => .ok outcome after
  | .error e => .error e l

lemma drive_run (length : Geo.Point R → Geo.Point R → R) (s : Settings R) (now : Timestamp)
    (budget : R) (position : Geo.Point R) (ways : List (Waypoint R)) (l : Location R) :
    (drive length s now budget position ways).run l =
      ended l (.ok (arrive s now l (Reckoning.drive length budget position ways))) := by
  induction ways generalizing budget position with
  | nil => rfl
  | cons w ways ih =>
    rw [drive, Reckoning.drive]
    split_ifs
    · rfl
    · exact ih _ _

/-- A move in place that fails leaves the location as it was. -/
theorem advanceBy_run (length : Geo.Point R → Geo.Point R → R) (s : Settings R)
    (route : Option (Route R)) (table : Option (SpeedTable R)) (now : Timestamp) (l : Location R) :
    (advanceBy length s route table now).run l =
      ended l (Reckoning.advanceBy length s route table now l) := by
  by_cases hfix : l.fixTime = Timestamp.never
  · simp only [advanceBy, Reckoning.advanceBy, EStateM.run_bind, EStateM.run_get, if_pos hfix]
    rfl
  · simp only [advanceBy, Reckoning.advanceBy, EStateM.run_bind, EStateM.run_get, if_neg hfix]
    cases route with
    | none => rfl
    | some r =>
      dsimp only
      cases snap? r l.position? with
      | none => rfl
      | some c =>
        dsimp only
        split_ifs
        · exact drive_run length s now _ _ _ l
        · rfl

end InPlace

section

variable (length : Geo.Point R → Geo.Point R → R) (s : Settings R) (table : Option (SpeedTable R))
  (now : Timestamp) {l : Location R}

/-- An obstacle stops a move exactly when it blocks the way. -/
lemma advanceBy_eq_error_iff {route : Option (Route R)} {e : Obstacle} :
    advanceBy length s route table now l = .error e ↔ e.Blocks l route := by
  by_cases hfix : l.fixTime = Timestamp.never
  · have h : advanceBy length s route table now l = .error .noPriorFix := if_pos hfix
    cases e <;> simp [h, Obstacle.Blocks, hfix]
  · cases route with
    | none =>
      have h : advanceBy length s none table now l = .error .noRoute := if_neg hfix
      cases e <;> simp [h, Obstacle.Blocks, hfix]
    | some r =>
      rw [advanceBy_some_eq_error_iff length s table now hfix, walkable_eq_nil_iff]
      cases e <;> simp [Obstacle.Blocks, hfix]

/-- Once time has passed, a location that has a start moves. -/
lemma moves_of_advanceBy {r : Route R} {c : Cursor R} (hfix : l.fixTime ≠ Timestamp.never)
    (hc : snap? r l.position? = some c)
    (hpos : (0.0 : R) < Timestamp.deciseconds l.fixTime now) :
    ∃ outcome after, advanceBy length s (some r) table now l = .ok (outcome, after) ∧
      Moves s table r now l after outcome := by
  rcases advanceBy_stops length s table now hfix hc with ⟨hstay, -⟩ | ⟨-, stop, hstop, h⟩
  · exact absurd hpos hstay
  · refine ⟨_, _, h, ?_⟩
    cases hstop with
    | onLeg hroad hw => exact .enRoute hroad hw _ _ (reading_arrive_onLeg ..)
    | atEnd => exact .destinationReached _ (reading_arrive_atEnd ..)

end

/-- A move in place meets no fix, then no route, then no street, each exactly when it is so, and has
then written nothing. Otherwise, if time has not passed since the fix, the location is where it
starts and nothing is written either; and if time has passed, position, speed, bearing, accuracy,
fix time and validity are written, and nothing else of what the location tells. -/
theorem moves_in_place (s : Settings Float) (route : Option (Route Float))
    (table : Option (SpeedTable Float)) (now : Timestamp) (l : Location Float) :
    let run := (InPlace.advanceBy Geo.Point.distance s route table now).run l
    run = InPlace.ended l (advance s route table now l) ∧
    (∀ e after, run = .error e after ↔ e.Blocks l route ∧ after = l) ∧
    ∀ r, l.fixTime ≠ Timestamp.never → route = some r →
      (∃ road ∈ r.items, road.kind = .street ∧ 2 ≤ road.points.length) →
      (now ≤ l.fixTime → ∃ c, snap? r l.position? = some c ∧ run = .ok (.enRoute c.item) l) ∧
      (l.fixTime < now → ∃ outcome after, run = .ok outcome after ∧
        Moves s table r now l after outcome) := by
  intro run
  have hrun : run = InPlace.ended l (advance s route table now l) :=
    InPlace.advanceBy_run Geo.Point.distance s route table now l
  refine ⟨hrun, fun e after => ?_, fun r hfix hroute hstreet => ?_⟩
  · have herror : advance s route table now l = .error e ↔ e.Blocks l route :=
      advanceBy_eq_error_iff Geo.Point.distance s table now
    rw [hrun, ← herror]
    cases advance s route table now l with
    | ok result => simp [InPlace.ended]
    | error e' => simp [InPlace.ended, eq_comm]
  · subst hroute
    have hwalkable : r.walkable ≠ [] := by
      obtain ⟨road, hroad, hkind, hlong⟩ := hstreet
      intro hnil
      exact absurd (walkable_eq_nil_iff.mp hnil road hroad hkind) (Nat.not_lt.mpr hlong)
    obtain ⟨c, hc⟩ := Option.ne_none_iff_exists'.mp (mt snap?_eq_none.mp hwalkable)
    have hcases := advanceBy_stops Geo.Point.distance s table now hfix hc
    rw [hrun]
    refine ⟨fun hle => ⟨c, hc, ?_⟩, fun hlt => ?_⟩
    · have hnot : ¬ (0.0 : Float) < Timestamp.deciseconds l.fixTime now :=
        mt Binary64.deciseconds_pos_iff.mp (Nat.not_lt.mpr hle)
      rcases hcases with ⟨-, h⟩ | ⟨hpos, -⟩
      · rw [advance, h]
        rfl
      · exact absurd hpos hnot
    · obtain ⟨outcome, after, h, hmoves⟩ := moves_of_advanceBy Geo.Point.distance s table now
        hfix hc (Binary64.deciseconds_pos_iff.mpr hlt)
      rw [advance, h]
      exact ⟨outcome, after, rfl, hmoves⟩

end Whereabouts.Reckoning
