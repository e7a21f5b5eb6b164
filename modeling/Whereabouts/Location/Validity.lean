/-! How a location was obtained, and how far its source is trusted. -/
namespace Whereabouts

inductive Validity where
  | invalid
  | static
  | extrapolatedTime
  | extrapolatedSpatial
  | valid
  deriving Repr, DecidableEq, Inhabited

namespace Validity

def all : List Validity := [invalid, static, extrapolatedTime, extrapolatedSpatial, valid]

/-- A stable number for exchange, which is not the order of quality. -/
def code : Validity → Nat
  | invalid => 0
  | static => 1
  | extrapolatedTime => 2
  | extrapolatedSpatial => 3
  | valid => 4

def ofCode? (n : Nat) : Option Validity := all.find? (·.code == n)

theorem ofCode?_code (v : Validity) : ofCode? v.code = some v := by cases v <;> rfl

def name : Validity → String
  | invalid => "invalid"
  | static => "static"
  | extrapolatedTime => "extrapolated_time"
  | extrapolatedSpatial => "extrapolated_spatial"
  | valid => "valid"

/-- The order of quality: a static location is worth more than an extrapolated one. -/
def rank : Validity → Nat
  | invalid => 0
  | extrapolatedTime => 1
  | extrapolatedSpatial => 2
  | static => 3
  | valid => 4

instance : LE Validity := ⟨fun a b => a.rank ≤ b.rank⟩

instance (a b : Validity) : Decidable (a ≤ b) := inferInstanceAs (Decidable (a.rank ≤ b.rank))

instance : Max Validity := ⟨fun a b => if a ≤ b then b else a⟩

end Validity

inductive Preference where
  | low
  | medium
  | high
  deriving Repr, DecidableEq, Inhabited

namespace Preference

def all : List Preference := [low, medium, high]

def level : Preference → Int
  | low => 0
  | medium => 1
  | high => 2

def name : Preference → String
  | low => "low"
  | medium => "medium"
  | high => "high"

instance : LE Preference := ⟨fun a b => a.level ≤ b.level⟩

instance (a b : Preference) : Decidable (a ≤ b) := inferInstanceAs (Decidable (a.level ≤ b.level))

instance : Max Preference := ⟨fun a b => if a ≤ b then b else a⟩

end Preference

/-- Preference adjusted for validity, the measure by which sources outrank each other. Invalid data
lies below every level. -/
inductive Rank where
  | invalid
  | of (level : Int)
  deriving Repr, DecidableEq, Inhabited

namespace Rank

/-- Extrapolated data is worth less than what its source measures: one level less along a route,
two by time alone. -/
def combine (p : Preference) : Validity → Rank
  | .invalid => .invalid
  | .valid | .static => .of p.level
  | .extrapolatedSpatial => .of (p.level - 1)
  | .extrapolatedTime => .of (p.level - 2)

/-- The least 32-bit integer stands for invalid data. -/
def value : Rank → Int
  | invalid => Int32.minValue.toInt
  | of n => n

def text : Rank → String
  | invalid => "-inf"
  | of n => toString n

def below : Rank → Rank → Bool
  | invalid, of _ => true
  | of a, of b => a < b
  | _, invalid => false

instance : LT Rank := ⟨fun a b => a.below b⟩

instance (a b : Rank) : Decidable (a < b) := inferInstanceAs (Decidable (a.below b = true))

@[simp] theorem invalid_lt_of (n : Int) : invalid < of n := rfl

@[simp] theorem of_lt_of (m n : Int) : of m < of n ↔ m < n := by
  show decide (m < n) = true ↔ m < n
  simp

@[simp] theorem not_lt_invalid (a : Rank) : ¬ a < invalid := by
  cases a <;> simp [LT.lt, below]

end Rank
end Whereabouts
