import Whereabouts.Geo.Point

/-! Points as vectors on the unit sphere, where positions are averaged. -/
namespace Whereabouts.Geo

open Arith

/-- A vector from the center of the earth: `x` towards the zero meridian on the equator, `y`
towards 90° east, `z` towards the north pole. -/
structure Vector (R : Type) where
  x : R
  y : R
  z : R
  deriving Repr, BEq, DecidableEq

variable {R : Type} [Arith R]

/-- A vector this short has no direction. -/
def cancelledLength : R := 1e-9

def Point.toVector (p : Point R) : Vector R :=
  let φ := radians p.lat
  let l := radians p.lng
  ⟨cos φ * cos l, cos φ * sin l, sin φ⟩

namespace Vector

def length (v : Vector R) : R := sqrt (v.x * v.x + v.y * v.y + v.z * v.z)

/-- The vector a part `k` of the way to another one. -/
def blend (v w : Vector R) (k : R) : Vector R :=
  ⟨(1.0 - k) * v.x + k * w.x, (1.0 - k) * v.y + k * w.y, (1.0 - k) * v.z + k * w.z⟩

/-- The point that a vector of any length points at; none if opposite parts have cancelled. -/
def point? (v : Vector R) : Option (Point R) :=
  let len := v.length
  if cancelledLength < len then
    let x := v.x / len
    let y := v.y / len
    let z := v.z / len
    some ⟨degrees (atan2 z (sqrt (x * x + y * y))), degrees (atan2 y x)⟩
  else none

end Vector
end Whereabouts.Geo
