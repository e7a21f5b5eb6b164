import Whereabouts.Geo.Point

/-! Means of numbers and of directions, weighed by the inverse of a radius. -/
namespace Whereabouts.Fusion

open Arith

/-- A value with the radius that weighs it. -/
structure Sample (R : Type) where
  value : R
  radius : R
  deriving Repr

variable {R : Type} [Arith R]

def Sample.weight (s : Sample R) : R := 1.0 / s.radius

/-- The sum of a quantity over all samples, each times its weight. -/
def weightedSum (f : Sample R → R) (samples : List (Sample R)) : R :=
  samples.foldl (fun sum s => sum + s.weight * f s) 0.0

def totalWeight (samples : List (Sample R)) : R :=
  samples.foldl (fun sum s => sum + s.weight) 0.0

/-- Weighted mean; a single value is taken as it is. -/
def mean? : List (Sample R) → Option R
  | [] => none
  | [s] => some s.value
  | samples => some (weightedSum Sample.value samples / totalWeight samples)

/-- Directions whose sum is shorter than this part of their weight have cancelled out. -/
def cancelledPart : R := 1e-9

/-- Weighted mean of directions in degrees; a single one is taken as it is, and none is left when
they cancel out. -/
def heading? : List (Sample R) → Option R
  | [] => none
  | [s] => some s.value
  | samples =>
    let north := weightedSum (fun s => cos (radians s.value)) samples
    let east := weightedSum (fun s => sin (radians s.value)) samples
    if totalWeight samples * cancelledPart < hypot north east then
      some (Geo.wrap (degrees (atan2 east north)))
    else none

end Whereabouts.Fusion
