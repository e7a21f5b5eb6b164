import Whereabouts.Config.Form
import Whereabouts.Location.Form

/-! Settings of the simulated source. -/
namespace Whereabouts

open Arith Json

structure Demo (R : Type) where
  /-- In km/h; zero for the speeds of the road network. -/
  speed : R
  /-- Radius of simulated fixes in meters. -/
  accuracy : R
  start : Option (Geo.Point R)
  deriving Repr, DecidableEq

namespace Demo

variable {R : Type} [Arith R]

def default : Demo R := ⟨0.0, Reckoning.simulatedAccuracy, none⟩

/-- The settings that the simulated source drives with. -/
def reckoning (d : Demo R) : Reckoning.Settings R :=
  { fixedSpeed := if (0.0 : R) < d.speed then some d.speed else none
    accuracy := d.accuracy
    offroadSpeed := Reckoning.offroadSpeed }

def validate (d : Demo R) : Except ConfigFault Unit := do
  ConfigFault.demoSpeed.require (isNonneg d.speed)
  ConfigFault.demoStart.require (d.start.all Geo.Point.isValid)
  d.reckoning.validate

theorem validate_eq_ok_iff (d : Demo R) :
    d.validate = .ok () ↔
      isNonneg d.speed = true ∧ d.start.all Geo.Point.isValid = true ∧
        d.reckoning.validate = .ok () := by
  simp [validate]

variable [Written R]

def toJson (d : Demo R) : Json :=
  obj
    [("speed_kmh", num d.speed), ("accuracy_m", num d.accuracy),
      ("start", orNull (d.start.map Geo.Point.toJson))]

def ofJson? (j : Json) : Option (Demo R) := do
  let f ← j.fields? ["speed_kmh", "accuracy_m", "start"]
  let d : Demo R := default
  some
    { speed := ← f.optional? "speed_kmh" d.speed num?
      accuracy := ← f.optional? "accuracy_m" d.accuracy num?
      start := ← f.optional? "start" d.start (nullable? Geo.Point.ofJson?) }

end Demo
end Whereabouts
