import Whereabouts.Geo.Point
import Whereabouts.Route.Speed

/-! Routes that have been computed: items with their polylines, in travel order. -/
namespace Whereabouts

namespace Route

inductive ItemKind where
  /-- Connects the vehicle to the road network. -/
  | routeStart
  | street
  /-- A waypoint, an annotation or the like. -/
  | other
  deriving Repr, DecidableEq, Inhabited

namespace ItemKind

def all : List ItemKind := [routeStart, street, other]

def name : ItemKind → String
  | routeStart => "route_start"
  | street => "street"
  | other => "other"

end ItemKind

structure Item (R : Type) where
  kind : ItemKind
  streetType : Option StreetType
  /-- Posted limit in km/h. -/
  maxSpeed : Option R
  points : List (Geo.Point R)
  deriving Repr, DecidableEq

/-- A street with at least one segment. -/
def Item.isWalkable {R : Type} (i : Item R) : Bool := i.kind = .street && 2 ≤ i.points.length

end Route

structure Route (R : Type) where
  items : List (Route.Item R)
  deriving Repr, DecidableEq

namespace Route

variable {R : Type}

def length (r : Route R) : Nat := r.items.length

def item? (r : Route R) (i : Nat) : Option (Item R) := r.items[i]?

/-- Walkable items with their places in the route. -/
def walkable (r : Route R) : List (Item R × Nat) := r.items.zipIdx.filter fun p => p.1.isWalkable

/-- Last point of the last walkable item. -/
def destination? (r : Route R) : Option (Geo.Point R) :=
  (r.items.reverse.find? Item.isWalkable).bind (·.points.getLast?)

end Route
end Whereabouts
