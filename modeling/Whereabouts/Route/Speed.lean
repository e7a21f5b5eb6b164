import Whereabouts.Arith
import Whereabouts.Route.Street

/-! Travel speeds by class of road, and how they combine with posted limits. -/
namespace Whereabouts

open Arith

/-- What a posted limit does to the speed of a profile. -/
inductive LimitPolicy where
  /-- The limit is driven wherever there is one. -/
  | enforce
  /-- The lower of both is driven. -/
  | preferLower
  /-- The speed of the profile is driven. -/
  | ignore
  deriving Repr, DecidableEq, Inhabited

namespace LimitPolicy

def all : List LimitPolicy := [enforce, preferLower, ignore]

def name : LimitPolicy → String
  | enforce => "enforce"
  | preferLower => "prefer_lower"
  | ignore => "ignore"

end LimitPolicy

/-- Speed settings for one class of road. -/
structure RoadSpeed (R : Type) where
  /-- In km/h. -/
  speed : R
  policy : LimitPolicy := .preferLower
  deriving Repr, DecidableEq

variable {R : Type} [Arith R]

/-- A speed that can be driven: finite and positive. -/
def usable (speed : Option R) : Option R := speed.filter isPositive

/-- The speed to drive under a posted limit; none if neither can be driven. -/
def RoadSpeed.resolve (r : RoadSpeed R) (posted : Option R) : Option R :=
  match r.policy, usable (some r.speed), usable posted with
  | .ignore, some p, _ => some p
  | .enforce, _, some m => some m
  | .preferLower, some p, some m => some (lesser p m)
  | _, p, m => p <|> m

/-- Speed settings for the classes of road that a vehicle uses. -/
abbrev SpeedTable (R : Type) := StreetType → Option (RoadSpeed R)

end Whereabouts
