/-! Parameters that a configuration can get wrong. -/
namespace Whereabouts

inductive ConfigFault where
  | changeEpsilon
  | fixedSpeed
  | simulatedAccuracy
  | offroadSpeed
  | demoSpeed
  | demoStart
  | interval
  | channelCapacity
  | roadSpeed
  deriving Repr, DecidableEq

namespace ConfigFault

/-- The parameter as configuration texts name it. -/
def parameter : ConfigFault → String
  | changeEpsilon => "change_epsilon"
  | fixedSpeed => "fixed_speed_kmh"
  | simulatedAccuracy => "simulated_accuracy_m"
  | offroadSpeed => "offroad_speed_kmh"
  | demoSpeed => "demo.speed_kmh"
  | demoStart => "demo.start"
  | interval => "interval_ms"
  | channelCapacity => "channel_capacity"
  | roadSpeed => "profile.roads.speed_kmh"

def reason : ConfigFault → String
  | changeEpsilon => "must be a finite, non-negative number of degrees"
  | fixedSpeed | demoSpeed | roadSpeed => "must be a finite, non-negative speed"
  | simulatedAccuracy | offroadSpeed | interval => "must be positive"
  | demoStart => "not a valid coordinate"
  | channelCapacity => "must be at least 1"

def message (f : ConfigFault) : String :=
  "Invalid value for " ++ f.parameter ++ ": " ++ f.reason

/-- Refuse a configuration for a parameter unless a condition holds. -/
def require (f : ConfigFault) (ok : Bool) : Except ConfigFault Unit :=
  if ok then .ok () else .error f

@[simp] theorem require_eq_ok_iff (f : ConfigFault) (ok : Bool) :
    f.require ok = .ok () ↔ ok = true := by
  cases ok <;> simp [require]

/-- A check and what follows it succeed together. -/
@[simp] theorem require_bind_eq_ok_iff {α : Type} (f : ConfigFault) (ok : Bool)
    (next : Unit → Except ConfigFault α) (a : α) :
    (f.require ok >>= next) = .ok a ↔ ok = true ∧ next () = .ok a := by
  cases ok <;> simp [require, bind, Except.bind]

end ConfigFault
end Whereabouts
