import Whereabouts.Location.Basic
import Whereabouts.Json.Number

/-! The check that a location passes before it is stored. -/
namespace Whereabouts

open Arith

/-- Why a location or a slot was refused. -/
inductive Fault (R : Type) where
  | invalidPosition (p : Geo.Point R)
  | invalidAccuracy (radius : R)
  | invalidSpeed
  | invalidBearing
  | invalidAltitude
  | storeFull (capacity : Nat)
  | unknownSlot (slot : Nat)
  deriving Repr, DecidableEq

namespace Fault

def invalidValue (field : String) : String :=
  "Invalid value for " ++ field ++ ": not a valid number"

def message {R : Type} [Written R] : Fault R → String
  | invalidPosition p =>
    "Position (" ++ Written.plain p.lat ++ ", " ++ Written.plain p.lng
      ++ ") is not a valid coordinate"
  | invalidAccuracy r =>
    "Accuracy radius " ++ Written.plain r ++ " m is not a finite, non-negative distance"
  | invalidSpeed => invalidValue "speed"
  | invalidBearing => invalidValue "bearing"
  | invalidAltitude => invalidValue "altitude"
  | storeFull n => "Raw location store full: capacity " ++ natText n
  | unknownSlot n => "Unknown raw location slot " ++ natText n

end Fault

namespace Location

variable {R : Type} [Arith R]

/-- A fault of the position or its radius. -/
def placeFault? (l : Location R) : Option (Fault R) :=
  if l.has .position && !l.position.isValid then some (.invalidPosition l.position)
  else if l.has .accuracy && !isNonneg l.accuracy then some (.invalidAccuracy l.accuracy)
  else none

/-- A fault of the speed, the bearing or the altitude. -/
def motionFault? (l : Location R) : Option (Fault R) :=
  if l.has .speed && !isFinite l.speed then some .invalidSpeed
  else if l.has .bearing && !isFinite l.bearing then some .invalidBearing
  else if l.has .altitude && !isFinite l.altitude then some .invalidAltitude
  else none

/-- Raise an accuracy below the smallest radius. -/
def floored (l : Location R) : Location R :=
  if l.has .accuracy && decide (l.accuracy < minRadius) then { l with accuracy := minRadius }
  else l

/-- The location as it is stored and the first fault of it. The accuracy is raised before motion is
looked at, so it stays raised when a fault is found there. -/
def sanitize (l : Location R) : Location R × Option (Fault R) :=
  match l.placeFault? with
  | some e => (l, some e)
  | none => (l.floored, l.motionFault?)

end Location
end Whereabouts
