import Whereabouts.Location.Basic

/-! What changed between two locations, and the announcements that listeners get of it. -/
namespace Whereabouts

/-- Everything about a location whose change is recorded. -/
inductive Aspect where
  | validity
  | fixType
  | satsInView
  | satsUsed
  | position
  | speed
  | bearing
  | altitude
  | accuracy
  | fixTime
  deriving Repr, DecidableEq, Inhabited

namespace Aspect

def all : List Aspect :=
  [validity, fixType, satsInView, satsUsed, position, speed, bearing, altitude, accuracy, fixTime]

def index : Aspect → Nat
  | validity => 0
  | fixType => 1
  | satsInView => 2
  | satsUsed => 3
  | position => 4
  | speed => 5
  | bearing => 6
  | altitude => 7
  | accuracy => 8
  | fixTime => 9

def bit (a : Aspect) : BitVec 16 := BitVec.twoPow 16 a.index

def name : Aspect → String
  | validity => "validity"
  | fixType => "fix_type"
  | satsInView => "sats_in_view"
  | satsUsed => "sats_used"
  | position => "position"
  | speed => "speed"
  | bearing => "bearing"
  | altitude => "altitude"
  | accuracy => "accuracy"
  | fixTime => "fix_time"

variable {R : Type} [Arith R]

/-- Whether a location changed in one aspect. Positions that are both present may differ by a given
number of degrees in latitude and in longitude without having changed. -/
def differs (epsilon : Option R) (before after : Location R) : Aspect → Bool
  | validity => before.validity != after.validity
  | fixType => before.fixType != after.fixType
  | fixTime => before.fixTime != after.fixTime
  | satsInView => before.satellites?.map (·.1) != after.satellites?.map (·.1)
  | satsUsed => before.satellites?.map (·.2) != after.satellites?.map (·.2)
  | position =>
    match before.position?, after.position?, epsilon with
    | some p, some q, some e =>
      decide (e < Arith.abs (p.lat - q.lat)) || decide (e < Arith.abs (p.lng - q.lng))
    | some p, some q, none => p != q
    | none, none, _ => false
    | _, _, _ => true
  | speed => before.speed? != after.speed?
  | bearing => before.bearing? != after.bearing?
  | altitude => before.altitude? != after.altitude?
  | accuracy => before.accuracy? != after.accuracy?

end Aspect

/-- The aspects that listeners are told about. -/
inductive Attribute where
  | validity
  | fixType
  | satelliteCount
  | satellitesUsed
  | position
  | speed
  | bearing
  | altitude
  deriving Repr, DecidableEq, Inhabited

namespace Attribute

def core : List Attribute := [validity, fixType, satelliteCount, satellitesUsed, position]

def motion : List Attribute := [speed, bearing, altitude]

def all : List Attribute := core ++ motion

def aspect : Attribute → Aspect
  | validity => .validity
  | fixType => .fixType
  | satelliteCount => .satsInView
  | satellitesUsed => .satsUsed
  | position => .position
  | speed => .speed
  | bearing => .bearing
  | altitude => .altitude

/-- The name that listeners know an attribute by. -/
def name : Attribute → String
  | validity => "position_valid"
  | fixType => "position_fix_type"
  | satelliteCount => "position_qual"
  | satellitesUsed => "position_sats_used"
  | position => "position_coord_geo"
  | speed => "position_speed"
  | bearing => "position_direction"
  | altitude => "position_height"

end Attribute

/-- The changed aspects as bits, and the validity that the change led to. -/
structure Changes where
  bits : BitVec 16
  validity : Validity
  deriving Repr, DecidableEq

namespace Changes

/-- The most announcements that one set of changes can give. -/
def maxAnnouncements : Nat := 8

def none (v : Validity) : Changes := ⟨0#16, v⟩

/-- Record bits; bits that stand for no aspect are kept too. -/
def mark (c : Changes) (bits : BitVec 16) : Changes := { c with bits := c.bits ||| bits }

def markIf (c : Changes) (bits : BitVec 16) (changed : Bool) : Changes :=
  if changed then c.mark bits else c

def isEmpty (c : Changes) : Bool := c.bits == 0#16

def has (c : Changes) (a : Aspect) : Bool := c.bits &&& a.bit != 0#16

def contains (c : Changes) (a : Attribute) : Bool := c.has a.aspect

/-- Attributes to announce, in order. When the location has become invalid nothing but its
validity can be trusted, so nothing else is announced. -/
def announced (c : Changes) (motion : Bool) : List Attribute :=
  if c.validity = .invalid then [Attribute.validity].filter c.contains
  else (if motion then Attribute.all else Attribute.core).filter c.contains

def text (c : Changes) : String :=
  "[" ++ c.validity.name ++ "]"
    ++ if c.isEmpty then " unchanged"
      else String.join ((Aspect.all.filter c.has).map fun a => " " ++ a.name)

theorem length_announced_le (c : Changes) (motion : Bool) :
    (c.announced motion).length ≤ maxAnnouncements := by
  unfold announced
  split
  · exact Nat.le_trans (List.length_filter_le ..) (by decide)
  · cases motion <;> exact Nat.le_trans (List.length_filter_le ..) (by decide)

/-- The aspects in which two locations differ. -/
def between {R : Type} [Arith R] (epsilon : Option R) (before after : Location R) : Changes :=
  Aspect.all.foldl (fun c a => c.markIf a.bit (a.differs epsilon before after))
    (none after.validity)

end Changes
end Whereabouts
