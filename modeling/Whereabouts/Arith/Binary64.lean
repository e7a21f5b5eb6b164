import Whereabouts.Arith

/-! Binary64 numbers as exact dyadic fractions, and the arithmetic that runs on them. -/
namespace Whereabouts

/-- The magnitude `mantissa · 2 ^ exponent` of a finite binary64 number. -/
structure Dyadic where
  mantissa : Nat
  exponent : Int
  deriving Repr, DecidableEq

namespace Dyadic

/-- The lower neighbour is only half as far away as the upper one. -/
def narrowBelow (d : Dyadic) : Bool := d.mantissa == Nat.pow 2 52 && d.exponent > -1074

/-- Magnitude of a finite number; infinities and NaN have none. -/
def ofFloat? (x : Float) : Option Dyadic :=
  let bits : Nat := x.toBits.toNat
  let biased : Nat := bits / Nat.pow 2 52 % Nat.pow 2 11
  let fraction : Nat := bits % Nat.pow 2 52
  if biased = 2047 then none
  else if biased = 0 then some ⟨fraction, -1074⟩
  else some ⟨Nat.pow 2 52 + fraction, (biased : Int) - 1075⟩

def signBit (x : Float) : Bool := Nat.pow 2 63 ≤ x.toBits.toNat

/-- The number with a given sign and a magnitude that binary64 represents. -/
def toFloat (negative : Bool) (d : Dyadic) : Float :=
  let sign := if negative then Nat.pow 2 63 else 0
  let top := d.mantissa.log2
  let lead := (top : Int) + d.exponent
  let magnitude :=
    if d.mantissa = 0 then 0
    else if lead < -1022 then d.mantissa * Nat.pow 2 (d.exponent + 1074).toNat
    else (lead + 1022).toNat * Nat.pow 2 52 + d.mantissa * Nat.pow 2 (52 - top)
  Float.ofBits (UInt64.ofNat (sign + magnitude))

/-- Remainder of two magnitudes, computed exactly on their common exponent. -/
def remainder (a b : Dyadic) : Dyadic :=
  let e := min a.exponent b.exponent
  ⟨a.mantissa * Nat.pow 2 (a.exponent - e).toNat %
    (b.mantissa * Nat.pow 2 (b.exponent - e).toNat), e⟩

end Dyadic

namespace Binary64

def nan : Float := 0.0 / 0.0

def infinity : Float := 1.0 / 0.0

def fmod (x y : Float) : Float :=
  match Dyadic.ofFloat? x, Dyadic.ofFloat? y with
  | some a, some b => if b.mantissa = 0 then nan else (a.remainder b).toFloat (Dyadic.signBit x)
  | some _, none => if y.isNaN then nan else x
  | none, _ => nan

/-- Length of `(x, y)`, scaled by the larger side so that no square underflows. -/
def hypot (x y : Float) : Float :=
  let a := x.abs
  let b := y.abs
  let m := if a < b then b else a
  if a.isInf || b.isInf then infinity
  else if a + b == 0.0 then 0.0
  else m * ((a / m) * (a / m) + (b / m) * (b / m)).sqrt

instance : Arith Float where
  decLt := inferInstance
  decLe := inferInstance
  isFinite := Float.isFinite
  ofNat := Float.ofNat
  sqrt := Float.sqrt
  sin := Float.sin
  cos := Float.cos
  atan2 := Float.atan2
  fmod := fmod
  hypot := hypot

end Binary64
end Whereabouts
