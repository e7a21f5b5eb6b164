import Whereabouts.Json.Value

/-! Reading typed values out of JSON values. -/
namespace Whereabouts.Json

def bool? : Json → Option Bool
  | bool b => some b
  | _ => none

def string? : Json → Option String
  | text s => s
  | _ => none

def array? : Json → Option (List Json)
  | array items => some items
  | _ => none

/-- An integer between two bounds, both included. -/
def intWithin? (low high : Int) : Json → Option Int
  | number n => n.int?.filter fun i => decide (low ≤ i ∧ i ≤ high)
  | _ => none

/-- An unsigned integer of the given width. -/
def unsigned? (width : Nat) (j : Json) : Option Nat :=
  (j.intWithin? 0 (Nat.pow 2 width - 1)).map Int.toNat

/-- A signed integer of the given width. -/
def signed? (width : Nat) (j : Json) : Option Int :=
  j.intWithin? (-Nat.pow 2 (width - 1)) (Nat.pow 2 (width - 1) - 1)

/-- Null reads as an absent value. -/
def nullable? {α : Type} (read : Json → Option α) : Json → Option (Option α)
  | null => some none
  | j => (read j).map some

/-- The name of an alternative: a string, or an object whose one member has that name and null. -/
def choice? : Json → Option String
  | text s => s
  | object [(name, null)] => name
  | _ => none

/-- The fields of a record by name, some of them missing. -/
abbrev Fields := String → Option Json

/-- A record with the given field names is an object in which none of them stands twice, or an
array of its fields in order, which may end early. -/
def fields? (names : List String) : Json → Option Fields
  | object members => do
    let keys ← members.mapM (·.1)
    if names.any fun n => 1 < keys.count n then none
    else some fun n => (members.find? (·.1 == some n)).map (·.2)
  | array items =>
    if items.length ≤ names.length then some fun n => items[names.idxOf n]? else none
  | _ => none

namespace Fields

def required? {α : Type} (f : Fields) (name : String) (read : Json → Option α) : Option α :=
  (f name).bind read

/-- A field that may be missing. -/
def optional? {α : Type} (f : Fields) (name : String) (fallback : α) (read : Json → Option α) :
    Option α :=
  match f name with
  | none => some fallback
  | some j => read j

end Fields
end Whereabouts.Json
