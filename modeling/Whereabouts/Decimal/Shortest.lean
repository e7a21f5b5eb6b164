import Whereabouts.Arith.Binary64

/-! Decimals that stand for a binary64 magnitude: the shortest one that reads back to it, and the
nearest one with a given number of digits. All comparisons are exact, on naturals. -/
namespace Whereabouts

/-- The number `coefficient · 10 ^ exponent`. -/
structure Decimal where
  coefficient : Nat
  exponent : Int
  deriving Repr, DecidableEq

/-- Which of two equally close decimals is taken. -/
inductive Tie where
  | toEven
  | up
  deriving Repr, DecidableEq

namespace Decimal

/-- The same number without trailing zeros in its coefficient. -/
def trim (d : Decimal) : Decimal :=
  if h : d.coefficient ≠ 0 ∧ d.coefficient % 10 = 0 then
    trim ⟨d.coefficient / 10, d.exponent + 1⟩
  else d
termination_by d.coefficient
decreasing_by exact Nat.div_lt_self (Nat.pos_of_ne_zero h.1) (by decide)

end Decimal

namespace Dyadic

/-- A dyadic magnitude measured in steps of `10 ^ g`: it is `mantissa · scale / unit` steps. -/
structure Grid where
  scale : Nat
  unit : Nat

def grid (d : Dyadic) (g : Int) : Grid :=
  ⟨Nat.pow 2 d.exponent.toNat * Nat.pow 10 (-g).toNat,
    Nat.pow 2 (-d.exponent).toNat * Nat.pow 10 g.toNat⟩

/-- The magnitude is below `10 ^ k`. -/
def belowPower (d : Dyadic) (k : Int) : Bool :=
  let s := d.grid k
  d.mantissa * s.scale < s.unit

/-- The least power of ten above a non-zero magnitude. The binary logarithm gives a lower bound
for it that is at most two short. -/
def decimalScale (d : Dyadic) : Int :=
  let start := ((d.mantissa.log2 : Int) + d.exponent) * 1233 / 4096
  if d.belowPower start then start
  else if d.belowPower (start + 1) then start + 1
  else if d.belowPower (start + 2) then start + 2
  else start + 3

/-- `c` steps lie among the reals that round to the magnitude, ends included for even mantissas. -/
def readsBack (d : Dyadic) (s : Grid) (c : Nat) : Bool :=
  let low := (4 * d.mantissa - (if d.narrowBelow then 1 else 2)) * s.scale
  let high := (4 * d.mantissa + 2) * s.scale
  let at4 := 4 * s.unit * c
  if d.mantissa % 2 = 0 then low ≤ at4 && at4 ≤ high else low < at4 && at4 < high

/-- Of the magnitude's two neighbours on the grid, the one that reads back and is closest. -/
def neighbour? (tie : Tie) (d : Dyadic) (g : Int) : Option Decimal :=
  let s := d.grid g
  let below := d.mantissa * s.scale / s.unit
  match d.readsBack s below, d.readsBack s (below + 1) with
  | false, false => none
  | true, false => some ⟨below, g⟩
  | false, true => some ⟨below + 1, g⟩
  | true, true =>
    match compare (2 * d.mantissa * s.scale) ((2 * below + 1) * s.unit), tie with
    | .lt, _ => some ⟨below, g⟩
    | .gt, _ => some ⟨below + 1, g⟩
    | .eq, .up => some ⟨below + 1, g⟩
    | .eq, .toEven => some ⟨if below % 2 = 0 then below else below + 1, g⟩

/-- The magnitude itself as a decimal. -/
def exactDecimal (d : Dyadic) : Decimal :=
  ⟨d.mantissa * Nat.pow 2 d.exponent.toNat * Nat.pow 5 (-d.exponent).toNat, min d.exponent 0⟩

/-- The decimal with the fewest digits that reads back to a non-zero magnitude, and of those the
closest one. -/
def shortest (tie : Tie) (d : Dyadic) : Decimal :=
  let k := d.decimalScale
  ((List.range 17).findSome? fun n => d.neighbour? tie (k - (n + 1 : Nat))).getD d.exactDecimal
    |>.trim

example : (Dyadic.mk 7205759403792794 (-56)).shortest .toEven = ⟨1, -1⟩ := by decide +kernel
example : (Dyadic.mk 1 (-1074)).shortest .toEven = ⟨5, -324⟩ := by decide +kernel

/-- The nearest decimal with `n` significant digits; a tie goes to the even neighbour. -/
def significant (n : Nat) (d : Dyadic) : Decimal :=
  let g := d.decimalScale - n
  let s := d.grid g
  let below := d.mantissa * s.scale / s.unit
  let twice := 2 * (d.mantissa * s.scale % s.unit)
  let up := s.unit < twice || (twice == s.unit && below % 2 == 1)
  Decimal.trim ⟨if up then below + 1 else below, g⟩

example : (Dyadic.mk 12345 0).significant 4 = ⟨1234, 1⟩ := by decide +kernel
example : (Dyadic.mk 12355 0).significant 4 = ⟨1236, 1⟩ := by decide +kernel

end Dyadic
end Whereabouts
