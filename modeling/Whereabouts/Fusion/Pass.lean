import Whereabouts.Change
import Whereabouts.Config.Fault
import Whereabouts.Fusion.Estimate
import Whereabouts.Fusion.Mean
import Whereabouts.Fusion.Provenance

/-! A fusion pass: the fused location is brought up to date with the locations of all sources. -/
namespace Whereabouts.Fusion

open Arith

structure Settings (R : Type) where
  /-- Changes of speed, bearing and altitude are announced too. -/
  notifyMotion : Bool := false
  /-- The difference of positions in degrees up to which they count as equal; none for exact
  comparison. -/
  changeEpsilon : Option R := none
  deriving Repr, DecidableEq

variable {R : Type} [Arith R]

def Settings.validate (s : Settings R) : Except ConfigFault Unit :=
  ConfigFault.changeEpsilon.require (s.changeEpsilon.all isNonneg)

/-- Take over the provenance. Without a contributor the location becomes invalid and nothing else
changes. -/
def inherit (p : Option Provenance) (fused : Location R) : Location R :=
  match p with
  | none => { fused with validity := .invalid }
  | some p =>
    let fused :=
      { fused with
        fixType := p.fixType
        fixTime := p.fixTime
        validity := p.validity
        preference := p.preference }
    match p.satellites with
    | none => fused
    | some (inView, used) => fused.setSatellites inView used

/-- Set the position together with its accuracy, which is dropped if there is none. -/
def place (estimate : Option (Geo.Point R × Option R)) (fused : Location R) : Location R :=
  match estimate with
  | none => fused
  | some (p, none) => (fused.setPosition p).clear .accuracy
  | some (p, some radius) => (fused.setPosition p).setAccuracy radius

/-- Apply a setter to a value if there is one. -/
def setIfSome {α : Type} (set : Location R → α → Location R) (value : Option α)
    (fused : Location R) : Location R :=
  match value with
  | none => fused
  | some v => set fused v

def samples (get? : Location R → Option R) (contributors : List (Location R)) :
    List (Sample R) :=
  contributors.filterMap fun l => (get? l).map fun v => ⟨v, l.weighingRadius⟩

/-- The fused location after a pass. An attribute without contributors keeps its value. -/
def merge (raw : List (Location R)) (fused : Location R) : Location R :=
  let w := Winners.among raw
  let sightings := (w.contributors .position raw).filterMap sighting?
  let speeds := samples Location.speed? (w.contributors .speed raw)
  let bearings := samples Location.bearing? (w.contributors .bearing raw)
  let altitudes := samples Location.altitude? (w.contributors .altitude raw)
  inherit (provenance? w raw) fused
    |> place (estimate? sightings)
    |> setIfSome Location.setSpeed (mean? speeds)
    |> setIfSome Location.setAltitude (mean? altitudes)
    |> setIfSome Location.setBearing (heading? bearings)

/-- One pass over all raw locations: the new fused location and what changed. -/
def pass (s : Settings R) (raw : List (Location R)) (fused : Location R) :
    Location R × Changes :=
  let after := merge raw fused
  (after, Changes.between s.changeEpsilon fused after)

def Settings.announced (s : Settings R) (c : Changes) : List Attribute := c.announced s.notifyMotion

end Whereabouts.Fusion
