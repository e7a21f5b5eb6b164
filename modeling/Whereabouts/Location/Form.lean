import Whereabouts.Change
import Whereabouts.Json.Decode
import Whereabouts.Json.Number

/-! The JSON form of locations and of what they are made of. -/
namespace Whereabouts

open Json

/-- The alternative with the name that a JSON value gives. -/
def Json.oneOf? {α : Type} (all : List α) (name : α → String) (j : Json) : Option α := do
  let n ← j.choice?
  all.find? (name · == n)

namespace Validity

def toJson (v : Validity) : Json := str v.name

def ofJson? : Json → Option Validity := oneOf? all name

end Validity

namespace Preference

def toJson (p : Preference) : Json := str p.name

def ofJson? : Json → Option Preference := oneOf? all name

end Preference

namespace Presence

def toJson (p : Presence) : Json := nat p.bits.toNat

def ofJson? (j : Json) : Option Presence := (j.unsigned? 8).map fun n => ⟨BitVec.ofNat 8 n⟩

end Presence

namespace Attribute

/-- The name of an attribute in stored texts, where listeners know it by another one. -/
def formName : Attribute → String
  | validity => "validity"
  | fixType => "fix_type"
  | satelliteCount => "satellite_count"
  | satellitesUsed => "satellites_used"
  | position => "position"
  | speed => "speed"
  | bearing => "bearing"
  | altitude => "altitude"

def toJson (a : Attribute) : Json := str a.formName

def ofJson? : Json → Option Attribute := oneOf? all formName

end Attribute

variable {R : Type} [Written R]

namespace Geo.Point

def toJson (p : Geo.Point R) : Json := obj [("lat", num p.lat), ("lng", num p.lng)]

def ofJson? (j : Json) : Option (Geo.Point R) := do
  let f ← j.fields? ["lat", "lng"]
  some ⟨← f.required? "lat" num?, ← f.required? "lng" num?⟩

end Geo.Point

namespace Location

def fieldNames : List String :=
  ["position", "speed", "bearing", "altitude", "accuracy", "sats_in_view", "sats_used", "fix_type",
    "fix_time", "flags", "validity", "preference"]

def toJson (l : Location R) : Json :=
  obj
    [("position", l.position.toJson), ("speed", num l.speed), ("bearing", num l.bearing),
      ("altitude", num l.altitude), ("accuracy", num l.accuracy),
      ("sats_in_view", nat l.satsInView), ("sats_used", nat l.satsUsed),
      ("fix_type", int l.fixType), ("fix_time", nat l.fixTime), ("flags", l.presence.toJson),
      ("validity", l.validity.toJson), ("preference", l.preference.toJson)]

/-- Every field is required, and each is kept whatever the presence pattern says. -/
def ofJson? (j : Json) : Option (Location R) := do
  let f ← j.fields? fieldNames
  some
    { position := ← f.required? "position" Geo.Point.ofJson?
      speed := ← f.required? "speed" num?
      bearing := ← f.required? "bearing" num?
      altitude := ← f.required? "altitude" num?
      accuracy := ← f.required? "accuracy" num?
      satsInView := ← f.required? "sats_in_view" (unsigned? 32)
      satsUsed := ← f.required? "sats_used" (unsigned? 32)
      fixType := ← f.required? "fix_type" (signed? 32)
      fixTime := ← f.required? "fix_time" (unsigned? 64)
      presence := ← f.required? "flags" Presence.ofJson?
      validity := ← f.required? "validity" Validity.ofJson?
      preference := ← f.required? "preference" Preference.ofJson? }

end Location
end Whereabouts
