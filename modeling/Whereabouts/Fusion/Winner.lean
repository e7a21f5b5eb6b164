import Whereabouts.Location.Basic

/-! Which locations may speak for an attribute: those of the highest rank among all that have it. -/
namespace Whereabouts.Fusion

/-- Attributes that are fused independently of each other. -/
inductive Group where
  | position
  | speed
  | bearing
  | altitude
  deriving Repr, DecidableEq

namespace Group

def all : List Group := [position, speed, bearing, altitude]

def presence : Group → Presence
  | position => .position
  | speed => .speed
  | bearing => .bearing
  | altitude => .altitude

end Group

/-- The highest rank seen and how often it was seen. -/
structure Winner where
  best : Rank := .invalid
  ties : Nat := 0
  deriving Repr, DecidableEq

namespace Winner

def observe (w : Winner) (r : Rank) : Winner :=
  if w.best < r then ⟨r, 1⟩
  else if r = w.best then { w with ties := w.ties + 1 }
  else w

/-- A location of rank `r` contributes. -/
def admits (w : Winner) (r : Rank) : Bool := r != .invalid && r == w.best

end Winner

structure Winners where
  position : Winner := {}
  speed : Winner := {}
  bearing : Winner := {}
  altitude : Winner := {}
  deriving Repr, DecidableEq

namespace Winners

variable {R : Type} [Arith R]

def of (w : Winners) : Group → Winner
  | .position => w.position
  | .speed => w.speed
  | .bearing => w.bearing
  | .altitude => w.altitude

/-- Count a location for each attribute that it supplies, unless it is invalid. -/
def observe (w : Winners) (l : Location R) : Winners :=
  if l.rank = .invalid then w
  else
    let seen (g : Group) : Winner :=
      if l.has g.presence then (w.of g).observe l.rank else w.of g
    ⟨seen .position, seen .speed, seen .bearing, seen .altitude⟩

def among (raw : List (Location R)) : Winners := raw.foldl observe {}

/-- A location contributes to a group. -/
def uses (w : Winners) (g : Group) (l : Location R) : Bool :=
  l.has g.presence && (w.of g).admits l.rank

/-- A location contributes to some group. -/
def usesAny (w : Winners) (l : Location R) : Bool := Group.all.any (w.uses · l)

def contributors (w : Winners) (g : Group) (raw : List (Location R)) : List (Location R) :=
  raw.filter (w.uses g)

end Winners
end Whereabouts.Fusion
