import Whereabouts.Geo.Segment
import Whereabouts.Route.Basic

/-! Where on a route a vehicle is. -/
namespace Whereabouts.Reckoning

/-- A point on a segment of an item. -/
structure Cursor (R : Type) where
  item : Nat
  segment : Nat
  point : Geo.Point R
  deriving Repr

/-- A segment of a walkable item. -/
structure Stretch (R : Type) where
  item : Nat
  segment : Nat
  start : Geo.Point R
  stop : Geo.Point R
  deriving Repr, DecidableEq

variable {R : Type} [Arith R]

/-- Consecutive points of a polyline. -/
def pairs {α : Type} (points : List α) : List (α × α) := points.zip points.tail

def stretchesOf (i : Route.Item R × Nat) : List (Stretch R) :=
  (pairs i.1.points).zipIdx.map fun p => ⟨i.2, p.2, p.1.1, p.1.2⟩

/-- All segments of a route that can be walked, in travel order. -/
def stretches (r : Route R) : List (Stretch R) := r.walkable.flatMap stretchesOf

/-- The element with the least key; of equal ones the first. -/
def closest? {α : Type} (key : α → R) : List α → Option α
  | [] => none
  | a :: rest => some (rest.foldl (fun best b => if key b < key best then b else best) a)

def Stretch.snap (s : Stretch R) (p : Geo.Point R) : Cursor R :=
  ⟨s.item, s.segment, (p.project s.start s.stop).point⟩

/-- The point of the route closest to a position, or its first point for an unknown position. None
if nothing of the route can be walked. -/
def snap? (r : Route R) : Option (Geo.Point R) → Option (Cursor R)
  | none => (stretches r).head?.map fun s => ⟨s.item, s.segment, s.start⟩
  | some p =>
    (closest? (fun s => (p.project s.start s.stop).distance) (stretches r)).map (·.snap p)

end Whereabouts.Reckoning
