/-! Classes of roads. -/
namespace Whereabouts

inductive StreetType where
  | street0
  | street1City
  | street2City
  | street3City
  | street4City
  | highwayCity
  | street1Land
  | street2Land
  | street3Land
  | street4Land
  | streetNLanes
  | highwayLand
  | ramp
  | roundabout
  | service
  | livingStreet
  | ferry
  deriving Repr, DecidableEq, Inhabited

namespace StreetType

/-- All classes in their order. -/
def all : List StreetType :=
  [street0, street1City, street2City, street3City, street4City, highwayCity, street1Land,
    street2Land, street3Land, street4Land, streetNLanes, highwayLand, ramp, roundabout, service,
    livingStreet, ferry]

def name : StreetType → String
  | street0 => "street_0"
  | street1City => "street_1_city"
  | street2City => "street_2_city"
  | street3City => "street_3_city"
  | street4City => "street_4_city"
  | highwayCity => "highway_city"
  | street1Land => "street_1_land"
  | street2Land => "street_2_land"
  | street3Land => "street_3_land"
  | street4Land => "street_4_land"
  | streetNLanes => "street_n_lanes"
  | highwayLand => "highway_land"
  | ramp => "ramp"
  | roundabout => "roundabout"
  | service => "service"
  | livingStreet => "living_street"
  | ferry => "ferry"

/-- Place of a class in the order. -/
def index (t : StreetType) : Nat := all.idxOf t

instance : LE StreetType := ⟨fun a b => a.index ≤ b.index⟩

instance (a b : StreetType) : Decidable (a ≤ b) :=
  inferInstanceAs (Decidable (a.index ≤ b.index))

theorem mem_all (t : StreetType) : t ∈ all := by cases t <;> decide

theorem index_lt (t : StreetType) : t.index < 17 := by cases t <;> decide

end StreetType
end Whereabouts
