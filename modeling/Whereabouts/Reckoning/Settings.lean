import Whereabouts.Config.Fault
import Whereabouts.Route.Basic

/-! Settings for dead reckoning, and the speed that they give on an item of a route. -/
namespace Whereabouts.Reckoning

open Arith

variable {R : Type} [Arith R]

/-- Walking pace, in km/h. -/
def offroadSpeed : R := 5.0

/-- About the width of a lane, in meters. -/
def simulatedAccuracy : R := 3.0

/-- The km/h of one m/s. -/
def kmhPerMps : R := 3.6

structure Settings (R : Type) where
  /-- The speed on every segment; none or zero for the speeds of the road network. -/
  fixedSpeed : Option R
  /-- Radius that extrapolated locations get. -/
  accuracy : R
  /-- The speed where nothing else is known. -/
  offroadSpeed : R
  deriving Repr, DecidableEq

namespace Settings

def default : Settings R := ⟨none, simulatedAccuracy, Reckoning.offroadSpeed⟩

def validate (s : Settings R) : Except ConfigFault Unit := do
  ConfigFault.fixedSpeed.require (s.fixedSpeed.all isNonneg)
  ConfigFault.simulatedAccuracy.require (isPositive s.accuracy)
  ConfigFault.offroadSpeed.require (isPositive s.offroadSpeed)

theorem validate_eq_ok_iff (s : Settings R) :
    s.validate = .ok () ↔
      s.fixedSpeed.all isNonneg = true ∧ isPositive s.accuracy = true ∧
        isPositive s.offroadSpeed = true := by
  simp [validate]

/-- Travel speed on an item in km/h. The table is asked only without a fixed speed; an item that is
not in it is driven at its posted limit. -/
def speedOn (s : Settings R) (table : Option (SpeedTable R)) (i : Route.Item R) : R :=
  match s.fixedSpeed.filter fun v => decide ((0.0 : R) < v) with
  | some v => v
  | none =>
    let road := i.streetType.bind fun t => table.bind fun lookup => lookup t
    let resolved :=
      match road with
      | some r => r.resolve i.maxSpeed
      | none => usable i.maxSpeed
    resolved.getD s.offroadSpeed

end Settings
end Whereabouts.Reckoning
