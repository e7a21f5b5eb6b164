import Whereabouts.Route.Form

/-! Vehicle profiles: how fast a vehicle travels on each class of road. -/
namespace Whereabouts

open Json

structure Profile (R : Type) where
  name : String
  /-- A class that is missing is driven at the posted limits. -/
  roads : SpeedTable R

namespace Profile

variable {R : Type}

def new (name : String) : Profile R := ⟨name, fun _ => none⟩

def insert (p : Profile R) (t : StreetType) (r : RoadSpeed R) : Profile R :=
  { p with roads := fun s => if s = t then some r else p.roads s }

/-- Set the speed on a class of road, with the lower of it and the posted limit to be driven. -/
def withRoad (p : Profile R) (t : StreetType) (speed : R) : Profile R :=
  p.insert t ⟨speed, .preferLower⟩

/-- The settings that there are, in the order of the classes. -/
def rows (p : Profile R) : List (StreetType × RoadSpeed R) :=
  StreetType.all.filterMap fun t => (p.roads t).map fun r => (t, r)

theorem mem_rows (p : Profile R) (t : StreetType) (r : RoadSpeed R) :
    (t, r) ∈ p.rows ↔ p.roads t = some r := by
  simp only [rows, List.mem_filterMap, Option.map_eq_some_iff, Prod.mk.injEq]
  constructor
  · rintro ⟨s, -, q, hq, rfl, rfl⟩; exact hq
  · intro h; exact ⟨t, t.mem_all, r, h, rfl, rfl⟩

/-- A passenger car. -/
def car [Arith R] : Profile R :=
  ([(.street0, 10.0), (.street1City, 10.0), (.street2City, 30.0), (.street3City, 40.0),
    (.street4City, 50.0), (.highwayCity, 80.0), (.street1Land, 60.0), (.street2Land, 65.0),
    (.street3Land, 70.0), (.street4Land, 80.0), (.streetNLanes, 120.0), (.highwayLand, 120.0),
    (.ramp, 40.0), (.roundabout, 10.0), (.service, 10.0), (.livingStreet, 7.0),
    (.ferry, 40.0)] : List (StreetType × R)).foldl (fun p row => p.withRoad row.1 row.2) (new "car")

variable [Written R]

def toJson (p : Profile R) : Json :=
  obj [("name", str p.name), ("roads", obj (p.rows.map fun (t, r) => (t.name, r.toJson)))]

/-- Settings by the name of their class. Of two for one class the later one counts. -/
def roadsOfJson? : Json → Option (SpeedTable R)
  | object members =>
    members.foldlM
      (fun table (name, j) => do
        let t ← StreetType.ofName? (← name)
        let r ← RoadSpeed.ofJson? j
        some fun s => if s = t then some r else table s)
      (fun _ => none)
  | _ => none

def ofJson? (j : Json) : Option (Profile R) := do
  let f ← j.fields? ["name", "roads"]
  some ⟨← f.required? "name" string?, ← f.optional? "roads" (fun _ => none) roadsOfJson?⟩

end Profile
end Whereabouts
