import Whereabouts.Arith

/-! Points on the globe: great-circle distance, bearing, and travel between two of them. -/
namespace Whereabouts.Geo

open Arith

/-- Latitude and longitude in decimal degrees. -/
structure Point (R : Type) where
  lat : R
  lng : R
  deriving Repr, BEq, DecidableEq

variable {R : Type} [Arith R]

/-- Mean radius of the earth in meters. -/
def earthRadius : R := 6371008.8

def fullCircle : R := 360.0

/-- Wrap an angle in degrees into `[0, 360)`. The last guard catches a tiny negative remainder
that the addition rounds up to the full circle. -/
def wrap (angle : R) : R :=
  let r := fmod angle fullCircle
  let r := if r < 0.0 then r + fullCircle else r
  if fullCircle ≤ r then 0.0 else r

namespace Point

theorem beq_eq {R : Type} [BEq R] (p q : Point R) :
    (p == q) = (p.lat == q.lat && p.lng == q.lng) := rfl

def isValid (p : Point R) : Bool :=
  isFinite p.lat && isFinite p.lng
    && (decide ((-90.0 : R) ≤ p.lat) && decide (p.lat ≤ 90.0))
    && (decide ((-180.0 : R) ≤ p.lng) && decide (p.lng ≤ 180.0))

/-- Haversine of the central angle between two points. -/
def haversine (p q : Point R) : R :=
  let φ := radians p.lat
  let ψ := radians q.lat
  let s := sin ((ψ - φ) / 2.0)
  let t := sin (radians (q.lng - p.lng) / 2.0)
  s * s + cos φ * cos ψ * t * t

/-- Great-circle distance in meters. -/
def distance (p q : Point R) : R :=
  let a := haversine p q
  2.0 * earthRadius * atan2 (sqrt a) (sqrt (1.0 - a))

/-- Initial bearing of the great circle to another point, in `[0, 360)`. -/
def bearing (p q : Point R) : R :=
  let φ := radians p.lat
  let ψ := radians q.lat
  let turn := radians (q.lng - p.lng)
  let east := sin turn * cos ψ
  let north := cos φ * sin ψ - sin φ * cos ψ * cos turn
  wrap (degrees (atan2 east north))

/-- The point at a fraction of the way, linear in latitude and longitude. -/
def towards (p q : Point R) (fraction : R) : Point R :=
  ⟨p.lat + (q.lat - p.lat) * fraction, p.lng + (q.lng - p.lng) * fraction⟩

end Point
end Whereabouts.Geo
