import Whereabouts.Arith

/-! Instants in milliseconds since the Unix epoch, and the time between two of them. -/
namespace Whereabouts

abbrev Timestamp := Nat

namespace Timestamp

/-- The time of a location that never had a fix. -/
def never : Timestamp := 0

theorem ne_never_of_lt {earlier later : Timestamp} (h : earlier < later) : later ≠ never :=
  Nat.ne_of_gt (Nat.zero_lt_of_lt h)

/-- Milliseconds from one instant to a later one, zero if the clock went backwards. -/
def elapsed (earlier later : Timestamp) : Nat := later - earlier

end Timestamp

variable {R : Type} [Arith R]

def millisecondsPerDecisecond : R := 100.0

def decisecondsPerSecond : R := 10.0

/-- Elapsed time in fractional deciseconds. -/
def Timestamp.deciseconds (earlier later : Timestamp) : R :=
  Arith.ofNat (elapsed earlier later) / millisecondsPerDecisecond

/-- A source of time. Its 64-bit counter starts again at zero after the last instant. -/
structure Clock where
  now : Timestamp
  /-- The clock shows the time of day, and not a time set by hand. -/
  isWall : Bool
  deriving Repr, DecidableEq

namespace Clock

/-- A clock that stands still until it is moved. -/
def fixed (t : Timestamp) : Clock := ⟨t, false⟩

def set (c : Clock) (t : Timestamp) : Clock := { c with now := t }

def advance (c : Clock) (ms : Nat) : Clock := { c with now := (c.now + ms) % Nat.pow 2 64 }

end Clock
end Whereabouts
