import Whereabouts.Location.Form
import Whereabouts.Route.Basic

/-! The JSON form of routes and speed settings. -/
namespace Whereabouts

open Json

namespace StreetType

def toJson (t : StreetType) : Json := str t.name

def ofName? (n : String) : Option StreetType := all.find? (·.name == n)

def ofJson? : Json → Option StreetType := oneOf? all name

end StreetType

namespace LimitPolicy

def toJson (p : LimitPolicy) : Json := str p.name

def ofJson? : Json → Option LimitPolicy := oneOf? all name

end LimitPolicy

namespace Route.ItemKind

def toJson (k : ItemKind) : Json := str k.name

def ofJson? : Json → Option ItemKind := oneOf? all name

end Route.ItemKind

variable {R : Type} [Written R]

namespace RoadSpeed

def toJson (r : RoadSpeed R) : Json :=
  obj [("speed_kmh", num r.speed), ("maxspeed_handling", r.policy.toJson)]

def ofJson? (j : Json) : Option (RoadSpeed R) := do
  let f ← j.fields? ["speed_kmh", "maxspeed_handling"]
  some
    { speed := ← f.required? "speed_kmh" num?
      policy := ← f.optional? "maxspeed_handling" .preferLower LimitPolicy.ofJson? }

end RoadSpeed

namespace Route

def Item.toJson (i : Item R) : Json :=
  obj
    [("kind", i.kind.toJson), ("street_type", orNull (i.streetType.map StreetType.toJson)),
      ("max_speed_kmh", orNull (i.maxSpeed.map num)),
      ("points", array (i.points.map Geo.Point.toJson))]

def Item.ofJson? (j : Json) : Option (Item R) := do
  let f ← j.fields? ["kind", "street_type", "max_speed_kmh", "points"]
  some
    { kind := ← f.required? "kind" ItemKind.ofJson?
      streetType := ← f.optional? "street_type" none (nullable? StreetType.ofJson?)
      maxSpeed := ← f.optional? "max_speed_kmh" none (nullable? num?)
      points := ← f.required? "points" fun j => do (← j.array?).mapM Geo.Point.ofJson? }

def toJson (r : Route R) : Json := obj [("items", array (r.items.map Item.toJson))]

def ofJson? (j : Json) : Option (Route R) := do
  let f ← j.fields? ["items"]
  some ⟨← f.required? "items" fun j => do (← j.array?).mapM Item.ofJson?⟩

end Route
end Whereabouts
