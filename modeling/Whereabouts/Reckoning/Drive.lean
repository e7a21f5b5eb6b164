import Whereabouts.Location.Basic
import Whereabouts.Reckoning.Settings
import Whereabouts.Reckoning.Snap

/-! Moving a location along a route for the time since its fix. -/
namespace Whereabouts.Reckoning

open Arith

/-- Why a location stays where it is. -/
inductive Obstacle where
  | noPriorFix
  | noRoute
  | noStreetGeometry
  deriving Repr, DecidableEq

def Obstacle.message : Obstacle → String
  | noPriorFix => "No previous fix to extrapolate from"
  | noRoute => "No active route"
  | noStreetGeometry => "Route has no walkable street geometry"

inductive Outcome where
  /-- Still driving, on the given item. -/
  | enRoute (item : Nat)
  /-- The route is used up; the vehicle stands at its last point. -/
  | destinationReached
  deriving Repr, DecidableEq

/-- A point that is still ahead, with the item that leads to it and the speed there. -/
structure Waypoint (R : Type) where
  item : Nat
  speed : R
  point : Geo.Point R
  deriving Repr

/-- Where a drive stops: inside a leg or at the end of the route. -/
inductive Stop (R : Type) where
  | onLeg (item : Nat) (speed : R) (start goal : Geo.Point R) (fraction : R)
  | atEnd (point : Geo.Point R)
  deriving Repr

variable {R : Type} [Arith R]

/-- The time in deciseconds that a leg takes. -/
def legTime (meters speed : R) : R := meters / (speed / kmhPerMps) * decisecondsPerSecond

/-- The points of a route behind a cursor: the rest of its item, and all points of the walkable
items that follow. -/
def ahead (speedOn : Route.Item R → R) (r : Route R) (c : Cursor R) : List (Waypoint R) :=
  (r.walkable.filter fun i => c.item ≤ i.2).flatMap fun i =>
    let speed := speedOn i.1
    let points := if i.2 = c.item then i.1.points.drop (c.segment + 1) else i.1.points
    points.map fun p => ⟨i.2, speed, p⟩

/-- Spend the time on one leg after the other, with the length of a leg measured from point to
point. A leg that takes exactly the time that is left is completed. -/
def drive (length : Geo.Point R → Geo.Point R → R) (budget : R) (position : Geo.Point R) :
    List (Waypoint R) → Stop R
  | [] => .atEnd position
  | w :: rest =>
    let required := legTime (length position w.point) w.speed
    if budget < required then .onLeg w.item w.speed position w.point (budget / required)
    else drive length (budget - required) w.point rest

/-- What a simulated fix carries. -/
def stamp (s : Settings R) (now : Timestamp) (l : Location R) : Location R :=
  { l.setAccuracy s.accuracy with fixTime := now, validity := .valid }

def arrive (s : Settings R) (now : Timestamp) (l : Location R) : Stop R → Outcome × Location R
  | .onLeg item speed start goal fraction =>
    (.enRoute item,
      stamp s now
        (((l.setPosition (start.towards goal fraction)).setSpeed speed).setBearing
          (start.bearing goal)))
  | .atEnd point =>
    (.destinationReached, stamp s now (((l.setPosition point).setSpeed 0.0).clear .bearing))

/-- The location at a later time, with the length of a leg measured from point to point. Without
an obstacle it moves along the route, unless no time has passed since its fix. -/
def advanceBy (length : Geo.Point R → Geo.Point R → R) (s : Settings R)
    (route : Option (Route R)) (table : Option (SpeedTable R)) (now : Timestamp)
    (l : Location R) : Except Obstacle (Outcome × Location R) :=
  if l.fixTime = Timestamp.never then .error .noPriorFix
  else
    match route with
    | none => .error .noRoute
    | some r =>
      match snap? r l.position? with
      | none => .error .noStreetGeometry
      | some c =>
        let budget : R := Timestamp.deciseconds l.fixTime now
        if (0.0 : R) < budget then
          .ok (arrive s now l (drive length budget c.point (ahead (s.speedOn table) r c)))
        else .ok (.enRoute c.item, l)

/-- The location at a later time, with legs along great circles. -/
def advance (s : Settings R) (route : Option (Route R)) (table : Option (SpeedTable R))
    (now : Timestamp) (l : Location R) : Except Obstacle (Outcome × Location R) :=
  advanceBy Geo.Point.distance s route table now l

end Whereabouts.Reckoning
