import Whereabouts.Config.Vehicle
import Whereabouts.Source.Basic
import Whereabouts.Store
import Whereabouts.Calendar

/-! A vehicle: its sources, their latest locations, the fused location and the listeners to it. -/
namespace Whereabouts

structure Vehicle (R : Type) where
  config : VehicleConfig R
  store : Store R
  /-- Each source with its slot in the store. -/
  sources : List (Nat × Source R)
  fused : Location R
  /-- Text of the fused fix time. -/
  fixTimeText : Option String
  /-- Number of listeners. -/
  listeners : Nat
  route : Option (Route R)
  profile : Profile R

inductive VehicleFault (R : Type) where
  | channelFull (name : String) (capacity : Nat)
  | disconnected (name : String)
  | location (fault : Fault R)
  | config (fault : ConfigFault)
  deriving Repr, DecidableEq

namespace VehicleFault

def channelName (name : String) : String := "Provider channel '" ++ name ++ "'"

def message {R : Type} [Written R] : VehicleFault R → String
  | channelFull name n => channelName name ++ " is full (capacity " ++ natText n ++ ")"
  | disconnected name => channelName name ++ " is disconnected"
  | location f => "Location error: " ++ f.message
  | config f => "Configuration error: " ++ f.message

end VehicleFault

/-- The failure of a message to a provider, as its handle reports it. -/
def Provider.fault {R : Type} (p : Provider R) : SendFault → VehicleFault R
  | .full => .channelFull p.name p.channel.capacity
  | .disconnected => .disconnected p.name

/-- One call of a listener. -/
structure Announcement where
  listener : Nat
  subject : Attribute
  deriving Repr, DecidableEq

namespace Vehicle

variable {R : Type} [Arith R]

/-- Register a source and give it a slot. -/
def addSource (v : Vehicle R) (s : Source R) : Except (VehicleFault R) (Nat × Vehicle R) :=
  match v.store.register s.preference with
  | .error e => .error (.location e)
  | .ok (slot, store) => .ok (slot, { v with store := store, sources := v.sources ++ [(slot, s)] })

/-- A vehicle without a route, with a simulated source if its configuration has one. -/
def new (c : VehicleConfig R) : Except (VehicleFault R) (Vehicle R) := do
  c.validate.mapError .config
  let v : Vehicle R :=
    { config := c
      store := .empty
      sources := []
      fused := Location.blank .low
      fixTimeText := none
      listeners := 0
      route := none
      profile := c.profile }
  match c.demo with
  | none => .ok v
  | some d =>
    let s ← (Simulator.new (c.name ++ "/demo") d).mapError .config
    (v.addSource (.simulator s)).map (·.2)

/-- Register a platform provider; messages to it are sent by the number of its slot. -/
def addProvider (v : Vehicle R) (name : String) (kind : ProviderKind) :
    Except (VehicleFault R) (Nat × Vehicle R) :=
  v.addSource (.provider (Provider.new name kind v.config.channelCapacity))

/-- Queue a message for the provider in a slot; none if no provider is there. -/
def send? (v : Vehicle R) (slot : Nat) (m : ProviderMessage R) :
    Option (Except (VehicleFault R) (Vehicle R)) :=
  match v.sources[slot]? with
  | some (id, .provider p) =>
    some (((p.send m).mapError p.fault).map fun p =>
      { v with sources := v.sources.set slot (id, .provider p) })
  | _ => none

/-- Add a listener; listeners are numbered from zero. -/
def subscribe (v : Vehicle R) : Nat × Vehicle R :=
  (v.listeners, { v with listeners := v.listeners + 1 })

def setRoute (v : Vehicle R) (r : Option (Route R)) : Vehicle R := { v with route := r }

def setProfile (v : Vehicle R) (p : Profile R) : Vehicle R := { v with profile := p }

/-- Place the vehicle by hand. The answer tells whether a source accepted the position. -/
def setPosition (v : Vehicle R) (p : Geo.Point R) (now : Timestamp) : Bool × Vehicle R :=
  let placed := v.sources.map fun (slot, s) => (slot, s.setPosition p now)
  (placed.any fun x => x.2.1, { v with sources := placed.map fun (slot, x) => (slot, x.2) })

def context (v : Vehicle R) (now : Timestamp) : PollContext R :=
  ⟨now, v.route, some v.profile.roads⟩

/-- Write what a source told into its slot. A location that the store refuses is dropped. -/
def deliver (store : Store R) (slot : Nat) : Option (Location R) → Store R
  | none => store
  | some l =>
    match store.update slot l with
    | .ok s => s
    | .error _ => store

/-- Poll every source in order and store what it tells. -/
def pollAll (v : Vehicle R) (now : Timestamp) : Vehicle R :=
  let polled := v.sources.map fun (slot, s) => (slot, s.poll (v.context now))
  { v with
    store := polled.foldl (fun store (slot, told, _) => deliver store slot told) v.store
    sources := polled.map fun (slot, _, s) => (slot, s) }

/-- Announcements of changes: one attribute after the other, each to all listeners. -/
def announcements (v : Vehicle R) (c : Changes) : List Announcement :=
  (v.config.fusion.announced c).flatMap fun a => (List.range v.listeners).map fun i => ⟨i, a⟩

/-- Poll every source, fuse, and announce what changed. -/
def update (v : Vehicle R) (now : Timestamp) : Changes × List Announcement × Vehicle R :=
  let v := v.pollAll now
  let (fused, changes) := Fusion.pass v.config.fusion v.store.slots v.fused
  let text := if changes.has .fixTime then fused.fixTime.iso? else v.fixTimeText
  (changes, v.announcements changes, { v with fused := fused, fixTimeText := text })

/-- Update at the time that a clock shows. -/
def updateWith (v : Vehicle R) (c : Clock) : Changes × List Announcement × Vehicle R :=
  v.update c.now

end Vehicle
end Whereabouts
