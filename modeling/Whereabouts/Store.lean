import Whereabouts.Location.Sanitize

/-! The latest location of each source, in slots that keep the preference they were made with. -/
namespace Whereabouts

structure Store (R : Type) where
  slots : List (Location R)
  deriving Repr, DecidableEq

namespace Store

variable {R : Type} [Arith R]

/-- The largest number of slots. -/
def capacity : Nat := 16

def empty : Store R := ⟨[]⟩

def size (s : Store R) : Nat := s.slots.length

def get? (s : Store R) (slot : Nat) : Option (Location R) := s.slots[slot]?

/-- Add a slot with a blank location. Slots are numbered from zero. -/
def register (s : Store R) (p : Preference) : Except (Fault R) (Nat × Store R) :=
  if s.size < capacity then .ok (s.size, ⟨s.slots ++ [Location.blank p]⟩)
  else .error (.storeFull capacity)

/-- Change the location of a slot. What comes out is sanitized and gets the slot's preference, so
that no source can promote its data. -/
def edit (s : Store R) (slot : Nat) (f : Location R → Location R) :
    Except (Fault R) (Store R) :=
  match s.get? slot with
  | none => .error (.unknownSlot slot)
  | some current =>
    match (f current).sanitize with
    | (_, some e) => .error e
    | (l, none) => .ok ⟨s.slots.set slot { l with preference := current.preference }⟩

/-- Put a new location into a slot. -/
def update (s : Store R) (slot : Nat) (l : Location R) : Except (Fault R) (Store R) :=
  s.edit slot fun _ => l

end Store
end Whereabouts
