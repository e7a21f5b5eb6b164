import Whereabouts.Geo.Vector
import Whereabouts.Location.Basic

/-! A position from several ones, each weighed by the inverse square of its radius. -/
namespace Whereabouts.Fusion

open Arith

/-- A running estimate: a vector near the unit sphere and the variance of its position. -/
structure Estimate (R : Type) where
  vector : Geo.Vector R
  variance : R
  deriving Repr

/-- A position with the radius that weighs it and the accuracy that its source told. -/
structure Sighting (R : Type) where
  point : Geo.Point R
  radius : R
  accuracy : Option R
  deriving Repr

variable {R : Type} [Arith R]

def sighting? (l : Location R) : Option (Sighting R) :=
  l.position?.map fun p => ⟨p, l.weighingRadius, l.accuracy?⟩

namespace Estimate

/-- The part of the way to a new sighting that an estimate moves. -/
def gain (variance sample : R) : R := variance / (variance + sample)

def seed (v : Geo.Vector R) (radius : R) : Estimate R := ⟨v, radius * radius⟩

def absorb (e : Estimate R) (v : Geo.Vector R) (radius : R) : Estimate R :=
  let k := gain e.variance (radius * radius)
  ⟨e.vector.blend v k, e.variance * (1.0 - k)⟩

/-- The estimate from a first sighting and those that follow it. -/
def ofSightings (first : Sighting R) (rest : List (Sighting R)) : Estimate R :=
  rest.foldl (fun e s => e.absorb s.point.toVector s.radius)
    (seed first.point.toVector first.radius)

end Estimate

/-- The position of all sightings and its accuracy. A single sighting is taken as it is; none is
left when the sightings cancel out. -/
def estimate? : List (Sighting R) → Option (Geo.Point R × Option R)
  | [] => none
  | [s] => some (s.point, s.accuracy)
  | s :: rest =>
    let e := Estimate.ofSightings s rest
    e.vector.point?.map fun p => (p, some (sqrt e.variance))

end Whereabouts.Fusion
