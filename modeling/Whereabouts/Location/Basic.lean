import Whereabouts.Geo.Point
import Whereabouts.Time
import Whereabouts.Location.Validity
import Whereabouts.Location.Presence

/-! A location: where the vehicle is at one time, how it moves, and how far that can be trusted. -/
namespace Whereabouts

open Arith

/-- Attributes are stored whether they are present or not. The presence pattern says which of them
the location supplies, and the getters with a question mark look at it. -/
structure Location (R : Type) where
  position : Geo.Point R
  /-- In km/h. -/
  speed : R
  /-- In degrees. -/
  bearing : R
  /-- In meters. -/
  altitude : R
  /-- Radius in meters around the position that the true one is unlikely to lie outside of. -/
  accuracy : R
  satsInView : Nat
  satsUsed : Nat
  /-- Zero without a fix, other values tell its quality. -/
  fixType : Int
  fixTime : Timestamp
  presence : Presence
  validity : Validity
  preference : Preference
  deriving Repr, DecidableEq

namespace Location

variable {R : Type}

/-- An invalid location without attributes, of a source with the given preference. -/
def blank [Arith R] (p : Preference) : Location R where
  position := ⟨0.0, 0.0⟩
  speed := 0.0
  bearing := 0.0
  altitude := 0.0
  accuracy := 0.0
  satsInView := 0
  satsUsed := 0
  fixType := 0
  fixTime := Timestamp.never
  presence := .none
  validity := .invalid
  preference := p

def has (l : Location R) (p : Presence) : Bool := l.presence.contains p

def position? (l : Location R) : Option (Geo.Point R) :=
  if l.has .position then some l.position else none

def speed? (l : Location R) : Option R := if l.has .speed then some l.speed else none

def bearing? (l : Location R) : Option R := if l.has .bearing then some l.bearing else none

def altitude? (l : Location R) : Option R := if l.has .altitude then some l.altitude else none

def accuracy? (l : Location R) : Option R := if l.has .accuracy then some l.accuracy else none

/-- Satellites in view and used. -/
def satellites? (l : Location R) : Option (Nat × Nat) :=
  if l.has .satellites then some (l.satsInView, l.satsUsed) else none

def setPosition (l : Location R) (p : Geo.Point R) : Location R :=
  { l with position := p, presence := l.presence.set .position }

def setSpeed (l : Location R) (kmh : R) : Location R :=
  { l with speed := kmh, presence := l.presence.set .speed }

def setBearing (l : Location R) (degrees : R) : Location R :=
  { l with bearing := degrees, presence := l.presence.set .bearing }

def setAltitude (l : Location R) (meters : R) : Location R :=
  { l with altitude := meters, presence := l.presence.set .altitude }

def setAccuracy (l : Location R) (radius : R) : Location R :=
  { l with accuracy := radius, presence := l.presence.set .accuracy }

def setSatellites (l : Location R) (inView used : Nat) : Location R :=
  { l with satsInView := inView, satsUsed := used, presence := l.presence.set .satellites }

@[simp] theorem position?_setPosition (l : Location R) (p : Geo.Point R) :
    (l.setPosition p).position? = some p := by
  simp [position?, has, setPosition]

@[simp] theorem speed?_setSpeed (l : Location R) (kmh : R) :
    (l.setSpeed kmh).speed? = some kmh := by
  simp [speed?, has, setSpeed]

@[simp] theorem bearing?_setBearing (l : Location R) (degrees : R) :
    (l.setBearing degrees).bearing? = some degrees := by
  simp [bearing?, has, setBearing]

@[simp] theorem altitude?_setAltitude (l : Location R) (meters : R) :
    (l.setAltitude meters).altitude? = some meters := by
  simp [altitude?, has, setAltitude]

@[simp] theorem accuracy?_setAccuracy (l : Location R) (radius : R) :
    (l.setAccuracy radius).accuracy? = some radius := by
  simp [accuracy?, has, setAccuracy]

@[simp] theorem satellites?_setSatellites (l : Location R) (inView used : Nat) :
    (l.setSatellites inView used).satellites? = some (inView, used) := by
  simp [satellites?, has, setSatellites]

/-- Drop attributes. Their stored values stay and are no longer supplied. -/
def clear (l : Location R) (p : Presence) : Location R :=
  { l with presence := l.presence.clear p }

/-- Age of the fix, if there ever was one. -/
def age? (l : Location R) (now : Timestamp) : Option Nat :=
  if l.fixTime = Timestamp.never then none else some (Timestamp.elapsed l.fixTime now)

def rank (l : Location R) : Rank := Rank.combine l.preference l.validity

/-- The smallest radius that a location is weighed with, so that weights stay finite. -/
def minRadius [Arith R] : R := 1.0

/-- The radius of a location that does not tell its accuracy. -/
def unknownRadius [Arith R] : R := 50.0

/-- The radius by which a location is weighed against others. -/
def weighingRadius [Arith R] (l : Location R) : R :=
  match l.accuracy? with
  | some r => raise minRadius r
  | none => unknownRadius

/-- All that the getters of a location tell. -/
structure Reading (R : Type) where
  position : Option (Geo.Point R)
  speed : Option R
  bearing : Option R
  altitude : Option R
  accuracy : Option R
  satellites : Option (Nat × Nat)
  fixType : Int
  fixTime : Timestamp
  validity : Validity
  preference : Preference
  deriving Repr, DecidableEq

def reading (l : Location R) : Reading R where
  position := l.position?
  speed := l.speed?
  bearing := l.bearing?
  altitude := l.altitude?
  accuracy := l.accuracy?
  satellites := l.satellites?
  fixType := l.fixType
  fixTime := l.fixTime
  validity := l.validity
  preference := l.preference

end Location
end Whereabouts
