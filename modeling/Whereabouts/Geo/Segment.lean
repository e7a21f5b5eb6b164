import Whereabouts.Geo.Point

/-! The point of a segment that is closest to a given point, on a map that shrinks longitude by
the cosine of the latitude where the segment starts. -/
namespace Whereabouts.Geo

open Arith

structure Projection (R : Type) where
  /-- Zero at the start of the segment, one at its end. -/
  fraction : R
  point : Point R
  /-- Meters between the projected and the given point. -/
  distance : R
  deriving Repr

variable {R : Type} [Arith R]

/-- How far along the segment the foot of the perpendicular lies, limited to the segment. -/
def footFraction (scale : R) (p a b : Point R) : R :=
  let dx := (b.lng - a.lng) * scale
  let dy := b.lat - a.lat
  let px := (p.lng - a.lng) * scale
  let py := p.lat - a.lat
  let square := dx * dx + dy * dy
  if (0.0 : R) < square then unitClamp ((px * dx + py * dy) / square) else 0.0

def Point.project (p a b : Point R) : Projection R :=
  let fraction := footFraction (cos (radians a.lat)) p a b
  let foot := a.towards b fraction
  ⟨fraction, foot, foot.distance p⟩

end Whereabouts.Geo
