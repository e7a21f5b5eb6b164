import Whereabouts.Decimal.Plain
import Whereabouts.Json.Value

/-! How the numbers of an arithmetic are written: in plain notation in messages, and as JSON
numerals in stored texts. -/
namespace Whereabouts

class Written (R : Type) where
  plain : R → String
  /-- What is not finite has no numeral. -/
  numeral? : R → Option Numeral
  /-- Refuses a numeral that is too large. -/
  ofNumeral? : Numeral → Option R

namespace Json

variable {R : Type} [Written R]

/-- A number that has no numeral is written as null. -/
def num (x : R) : Json := orNull ((Written.numeral? x).map number)

def num? : Json → Option R
  | number n => Written.ofNumeral? n
  | _ => none

end Json

namespace Decimal

/-- Numbers from `10 ^ -5` up to `10 ^ 16` are written with a point and at least one digit behind
it, others with one digit before the point and an exponent. -/
def numeral (negative : Bool) (d : Decimal) : Numeral :=
  let ds := digits d.coefficient
  let lead := (ds.length : Int) - 1 + d.exponent
  if -5 ≤ lead ∧ lead < 16 then
    match d.places with
    | (whole, []) => ⟨negative, spelled whole, [Digit.zero], none⟩
    | (whole, fraction) => ⟨negative, spelled whole, fraction, none⟩
  else ⟨negative, spelled (ds.take 1), ds.drop 1, some lead⟩

example : numeral true ⟨4, 1⟩ = ⟨true, 40, [0], none⟩ := by decide +kernel
example : numeral false ⟨1, -5⟩ = ⟨false, 0, [0, 0, 0, 0, 1], none⟩ := by decide +kernel
example : numeral false ⟨15, -7⟩ = ⟨false, 1, [5], some (-6)⟩ := by decide +kernel
example : numeral false ⟨1, 16⟩ = ⟨false, 1, [], some 16⟩ := by decide +kernel

end Decimal

namespace Binary64

/-- The shortest digits that read back; of two equally close ones the even one. -/
def numeral? (x : Float) : Option Numeral :=
  (Dyadic.ofFloat? x).map fun d =>
    if d.mantissa = 0 then ⟨Dyadic.signBit x, 0, [Digit.zero], none⟩
    else (d.shortest .toEven).numeral (Dyadic.signBit x)

def maxWord : Nat := Nat.pow 2 64 - 1

/-- Take digits into a 64-bit significand until one no longer fits, and count those left out. -/
def absorb (significand : Nat) : List Digit → Nat × Nat
  | [] => (significand, 0)
  | d :: ds =>
    if significand * 10 + d.val ≤ maxWord then absorb (significand * 10 + d.val) ds
    else (significand, ds.length + 1)

/-- The largest power of ten that is a finite number. -/
def maxPower : Nat := 308

def powerOfTen (n : Nat) : Float := Float.ofScientific 1 false n

/-- Scale by a power of ten with one rounded division, after as many by the largest power as a
very small number needs. -/
def scaleDown (x : Float) (power : Nat) : Float :=
  if _h : maxPower < power then
    if x == 0.0 then x else scaleDown (x / powerOfTen maxPower) (power - maxPower)
  else x / powerOfTen power
termination_by power
decreasing_by simp only [maxPower] at *; omega

/-- A significand times a power of ten; none if that is too large. -/
def scale? (significand : Nat) (power : Int) : Option Float :=
  let x := Float.ofNat significand
  if power < 0 then some (scaleDown x power.natAbs)
  else if x == 0.0 then some x
  else if (maxPower : Int) < power then none
  else
    let y := x * powerOfTen power.toNat
    if y.isInf then none else some y

/-- Numbers are read by scaling their first nineteen or twenty digits, so that a text of more than
fifteen digits may give a neighbour of the closest number. -/
def ofNumeral? (n : Numeral) : Option Float :=
  let (whole, left) := absorb 0 (digits n.whole)
  let (significand, unread) := absorb whole n.fraction
  let power := (left : Int) - (n.fraction.length - unread : Nat) + n.exponent.getD 0
  (scale? significand power).map fun x => if n.negative then -x else x

instance : Written Float where
  plain := plain
  numeral? := numeral?
  ofNumeral? := ofNumeral?

/-- The number closest to a numeral. -/
def nearest (n : Numeral) : Float :=
  let power := n.exponent.getD 0 - n.fraction.length
  let x := Float.ofScientific (spelled (digits n.whole ++ n.fraction)) (power < 0) power.natAbs
  if n.negative then -x else x

end Binary64
end Whereabouts
