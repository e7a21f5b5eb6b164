import Whereabouts.Config.Demo
import Whereabouts.Config.Profile
import Whereabouts.Json.Parser
import Whereabouts.Json.Printer

/-! The configuration of a vehicle. A text only needs to name what it changes. -/
namespace Whereabouts

open Arith Json

structure VehicleConfig (R : Type) where
  name : String
  /-- Period of the updates in milliseconds. -/
  interval : Nat
  /-- Messages that a provider may have waiting. -/
  channelCapacity : Nat
  fusion : Fusion.Settings R
  profile : Profile R
  /-- A simulated source is added when there are settings for it. -/
  demo : Option (Demo R)

namespace VehicleConfig

variable {R : Type} [Arith R]

def defaultInterval : Nat := 1000

def defaultChannelCapacity : Nat := 8

def default : VehicleConfig R where
  name := "vehicle"
  interval := defaultInterval
  channelCapacity := defaultChannelCapacity
  fusion := {}
  profile := Profile.car
  demo := none

def validate (c : VehicleConfig R) : Except ConfigFault Unit := do
  ConfigFault.interval.require (c.interval != 0)
  ConfigFault.channelCapacity.require (c.channelCapacity != 0)
  c.fusion.validate
  ConfigFault.roadSpeed.require (c.profile.rows.all fun row => isNonneg row.2.speed)
  match c.demo with
  | none => .ok ()
  | some d => d.validate

theorem validate_eq_ok_iff (c : VehicleConfig R) :
    c.validate = .ok () ↔
      (c.interval != 0) = true ∧ (c.channelCapacity != 0) = true ∧ c.fusion.validate = .ok () ∧
        (c.profile.rows.all fun row => isNonneg row.2.speed) = true ∧
        ∀ d ∈ c.demo, d.validate = .ok () := by
  rw [validate, Fusion.Settings.validate]
  cases c.demo <;> simp

variable [Written R]

def toJson (c : VehicleConfig R) : Json :=
  obj
    [("name", str c.name), ("interval_ms", nat c.interval),
      ("channel_capacity", nat c.channelCapacity), ("fusion", c.fusion.toJson),
      ("profile", c.profile.toJson), ("demo", orNull (c.demo.map Demo.toJson))]

def fieldNames : List String :=
  ["name", "interval_ms", "channel_capacity", "fusion", "profile", "demo"]

def ofJson? (j : Json) : Option (VehicleConfig R) := do
  let f ← j.fields? fieldNames
  let d : VehicleConfig R := default
  some
    { name := ← f.optional? "name" d.name string?
      interval := ← f.optional? "interval_ms" d.interval (unsigned? 64)
      channelCapacity := ← f.optional? "channel_capacity" d.channelCapacity (unsigned? 64)
      fusion := ← f.optional? "fusion" d.fusion Fusion.Settings.ofJson?
      profile := ← f.optional? "profile" d.profile Profile.ofJson?
      demo := ← f.optional? "demo" d.demo (nullable? Demo.ofJson?) }

/-- Why a configuration could not be loaded. -/
inductive LoadError where
  | missingFile (path : String)
  | notText (path : String)
  /-- Not JSON, or not of the shape of a configuration. -/
  | malformed
  | invalid (fault : ConfigFault)
  deriving Repr, DecidableEq

namespace LoadError

def unreadable (path cause : String) : String :=
  "Failed to read configuration " ++ path ++ ": " ++ cause

def message : LoadError → String
  | missingFile path => unreadable path "No such file or directory (os error 2)"
  | notText path => unreadable path "stream did not contain valid UTF-8"
  | malformed => "Malformed configuration"
  | invalid f => f.message

end LoadError

/-- A validated configuration from a JSON text. -/
def parse (text : String) : Except LoadError (VehicleConfig R) :=
  match (Json.parse? text).bind ofJson? with
  | none => .error .malformed
  | some c => (c.validate.mapError .invalid).map fun _ => c

/-- A validated configuration from what a file holds, if there is one. -/
def load (path : String) (contents : Option ByteArray) : Except LoadError (VehicleConfig R) :=
  match contents with
  | none => .error (.missingFile path)
  | some bytes =>
    match String.fromUTF8? bytes with
    | none => .error (.notText path)
    | some decoded => parse decoded

/-- The configuration as a JSON text on indented lines. -/
def text (c : VehicleConfig R) : String := c.toJson.pretty

end VehicleConfig
end Whereabouts
