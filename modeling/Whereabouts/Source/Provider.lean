import Whereabouts.Location.Sanitize
import Whereabouts.Reckoning.Settings
import Whereabouts.Source.Channel

/-! Positioning providers of the platform: their messages wait in a channel until the vehicle polls
the source, which keeps the location that they add up to. -/
namespace Whereabouts

inductive ProviderKind where
  | gps
  | network
  deriving Repr, DecidableEq

namespace ProviderKind

def preference : ProviderKind → Preference
  | gps => .high
  | network => .medium

/-- Receivers have clocks of their own, so their fixes get the time at which they arrive. -/
def restamps : ProviderKind → Bool
  | gps => true
  | network => false

end ProviderKind

/-- A fix as the platform reports it. -/
structure ProviderFix (R : Type) where
  position : Geo.Point R
  accuracy : Option R := none
  /-- In m/s. -/
  speed : Option R := none
  bearing : Option R := none
  altitude : Option R := none
  fixType : Int := 1
  time : Timestamp := 0
  deriving Repr, DecidableEq

inductive ProviderMessage (R : Type) where
  | fix (f : ProviderFix R)
  | satellites (inView used : Nat)
  | lost
  deriving Repr, DecidableEq

/-- A provider with its channel, the handles that send into it, and its current location. -/
structure Provider (R : Type) where
  name : String
  kind : ProviderKind
  channel : Channel (ProviderMessage R)
  handles : Nat
  current : Location R
  deriving Repr, DecidableEq

namespace Provider

variable {R : Type} [Arith R]

/-- A new provider with one handle. -/
def new (name : String) (kind : ProviderKind) (capacity : Nat) : Provider R where
  name := name
  kind := kind
  channel := ⟨capacity, [], true⟩
  handles := 1
  current := Location.blank kind.preference

def cloneHandle (p : Provider R) : Provider R := { p with handles := p.handles + 1 }

def dropHandle (p : Provider R) : Provider R := { p with handles := p.handles - 1 }

def dropSource (p : Provider R) : Provider R := { p with channel := p.channel.disconnect }

def send (p : Provider R) (m : ProviderMessage R) : Except SendFault (Provider R) :=
  (p.channel.send m).map fun c => { p with channel := c }

/-- Apply a setter to a value if there is one. -/
def supply {α : Type} (set : Location R → α → Location R) (value : Option α)
    (l : Location R) : Location R :=
  match value with
  | none => l
  | some v => set l v

/-- The location that a fix stands for. Satellite counts stay from before. -/
def located (kind : ProviderKind) (before : Location R) (now : Timestamp) (f : ProviderFix R) :
    Location R :=
  let l :=
    (Location.blank kind.preference).setPosition f.position
      |> supply Location.setAccuracy f.accuracy
      |> supply Location.setSpeed (f.speed.map (· * Reckoning.kmhPerMps))
      |> supply Location.setBearing f.bearing
      |> supply Location.setAltitude f.altitude
      |> supply (fun l s => l.setSatellites s.1 s.2) before.satellites?
  { l with
    fixType := f.fixType
    fixTime := if kind.restamps then now else f.time
    validity := .valid }

/-- The location after a message, or none if the message changes nothing. A fix with a fault is
ignored. -/
def after? (kind : ProviderKind) (now : Timestamp) (l : Location R) :
    ProviderMessage R → Option (Location R)
  | .fix f =>
    match (located kind l now f).sanitize with
    | (new, none) => some new
    | (_, some _) => none
  | .satellites inView used =>
    if l.satellites? = some (inView, used) then none else some (l.setSatellites inView used)
  | .lost =>
    if l.validity = .invalid then none else some { l with validity := .invalid, fixType := 0 }

/-- A poll under way. -/
structure Poll where
  now : Timestamp
  /-- A message has changed the location. -/
  changed : Bool := false
  deriving Repr, DecidableEq

/-- Take in the oldest message, if one waits. -/
def receive? (p : Provider R) (poll : Poll) : Option (Provider R × Poll) :=
  p.channel.receive?.map fun (m, channel) =>
    match after? p.kind poll.now p.current m with
    | some l => ({ p with channel := channel, current := l }, { poll with changed := true })
    | none => ({ p with channel := channel }, poll)

/-- What a poll tells at its end: the location, if it changed. -/
def told? (p : Provider R) (poll : Poll) : Option (Location R) :=
  if poll.changed then some p.current else none

/-- Take in messages, up to a number, as long as one waits. -/
def receiveUpTo : Nat → Provider R × Poll → Provider R × Poll
  | 0, x => x
  | n + 1, x =>
    match x.1.receive? x.2 with
    | none => x
    | some y => receiveUpTo n y

/-- Take in messages until none waits. When nobody sends meanwhile, no more come than wait at the
start. -/
def poll (p : Provider R) (now : Timestamp) : Option (Location R) × Provider R :=
  let (q, poll) := receiveUpTo p.channel.waiting.length (p, { now := now })
  (q.told? poll, q)

end Provider
end Whereabouts
