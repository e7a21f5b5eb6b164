import Whereabouts.Decimal.Digits
import Whereabouts.Decimal.Shortest

/-! Numbers in plain notation: no exponent, and no point where no fraction follows. -/
namespace Whereabouts

namespace Decimal

/-- Digits before and after the point. -/
def places (d : Decimal) : List Digit × List Digit :=
  let ds := digits d.coefficient
  if 0 ≤ d.exponent then (ds ++ List.replicate d.exponent.toNat 0, [])
  else
    let behind := (-d.exponent).toNat
    if behind < ds.length then (ds.take (ds.length - behind), ds.drop (ds.length - behind))
    else ([0], List.replicate (behind - ds.length) 0 ++ ds)

def plain (d : Decimal) : String :=
  match d.places with
  | (whole, []) => digitText whole
  | (whole, fraction) => digitText whole ++ "." ++ digitText fraction

end Decimal

namespace Binary64

def special (x : Float) : String :=
  if x.isNaN then "NaN" else if Dyadic.signBit x then "-inf" else "inf"

def signText (x : Float) : String := if Dyadic.signBit x then "-" else ""

/-- The shortest digits that read back; of two equally close ones the greater. -/
def plain (x : Float) : String :=
  match Dyadic.ofFloat? x with
  | none => special x
  | some d => signText x ++ if d.mantissa = 0 then "0" else (d.shortest .up).plain

/-- Rounded to `n` significant digits; what lies within a billionth of zero is zero. -/
def rounded (n : Nat) (x : Float) : String :=
  match Dyadic.ofFloat? x with
  | none => special x
  | some d => if x.abs < 1e-9 then "0" else signText x ++ (d.significant n).plain

end Binary64
end Whereabouts
