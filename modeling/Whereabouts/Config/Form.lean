import Whereabouts.Fusion.Pass
import Whereabouts.Json.Decode
import Whereabouts.Json.Number
import Whereabouts.Reckoning.Settings

/-! The JSON form of the settings for fusion and dead reckoning. Every field may be missing. -/
namespace Whereabouts

open Json

variable {R : Type} [Arith R] [Written R]

namespace Fusion.Settings

def toJson (s : Settings R) : Json :=
  obj [("notify_motion", bool s.notifyMotion), ("change_epsilon", orNull (s.changeEpsilon.map num))]

def ofJson? (j : Json) : Option (Settings R) := do
  let f ← j.fields? ["notify_motion", "change_epsilon"]
  some
    { notifyMotion := ← f.optional? "notify_motion" false bool?
      changeEpsilon := ← f.optional? "change_epsilon" none (nullable? num?) }

end Fusion.Settings

namespace Reckoning.Settings

def toJson (s : Settings R) : Json :=
  obj
    [("fixed_speed_kmh", orNull (s.fixedSpeed.map num)), ("simulated_accuracy_m", num s.accuracy),
      ("offroad_speed_kmh", num s.offroadSpeed)]

def ofJson? (j : Json) : Option (Settings R) := do
  let f ← j.fields? ["fixed_speed_kmh", "simulated_accuracy_m", "offroad_speed_kmh"]
  let d : Settings R := default
  some
    { fixedSpeed := ← f.optional? "fixed_speed_kmh" d.fixedSpeed (nullable? num?)
      accuracy := ← f.optional? "simulated_accuracy_m" d.accuracy num?
      offroadSpeed := ← f.optional? "offroad_speed_kmh" d.offroadSpeed num? }

end Reckoning.Settings
end Whereabouts
