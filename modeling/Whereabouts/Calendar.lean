import Whereabouts.Time
import Whereabouts.Decimal.Digits

/-! Instants in the Gregorian calendar, which is extended without limit into the past, and their
text in UTC. -/
namespace Whereabouts

structure Date where
  year : Nat
  month : Nat
  day : Nat
  deriving Repr, DecidableEq

namespace Calendar

def isLeap (year : Nat) : Bool := year % 4 == 0 && (year % 100 != 0 || year % 400 == 0)

def daysInMonth (year month : Nat) : Nat :=
  match month with
  | 2 => if isLeap year then 29 else 28
  | 4 | 6 | 9 | 11 => 30
  | _ => 31

/-- Days from 1 March of the year 0 to the Unix epoch. -/
def epochOffset : Nat := 719468

/-- Days in four hundred years. -/
def eraDays : Nat := 146097

/-- The date of a day after the epoch. Years are counted from March, so that a leap day is the
last of its year, and months from March have 153 days in every five. -/
def date (day : Nat) : Date :=
  let n := day + epochOffset
  let ofEra := n % eraDays
  let yearOfEra := (ofEra - ofEra / 1460 + ofEra / 36524 - ofEra / 146096) / 365
  let ofYear := ofEra - (365 * yearOfEra + yearOfEra / 4 - yearOfEra / 100)
  let fromMarch := (5 * ofYear + 2) / 153
  let month := if fromMarch < 10 then fromMarch + 3 else fromMarch - 9
  ⟨n / eraDays * 400 + yearOfEra + (if month ≤ 2 then 1 else 0), month,
    ofYear - (153 * fromMarch + 2) / 5 + 1⟩

example : date 0 = ⟨1970, 1, 1⟩ := by decide
example : date 11016 = ⟨2000, 2, 29⟩ := by decide

/-- First instant after the last year that the calendar shows, 262142. -/
def limit : Timestamp := 8210266876800000

end Calendar

/-- Digits of a number, filled up with zeros on the left. -/
def padded (width n : Nat) : String :=
  let ds := digits n
  digitText (List.replicate (width - ds.length) Digit.zero ++ ds)

/-- A fix time as `YYYY-MM-DDThh:mm:ssZ`, with a sign before years of more than four digits; none
without a fix or beyond the calendar. -/
def Timestamp.iso? (t : Timestamp) : Option String :=
  if t = never ∨ Calendar.limit ≤ t then none
  else
    let s := t / 1000
    let d := Calendar.date (s / 86400)
    let sign := if 9999 < d.year then "+" else ""
    some (sign ++ padded 4 d.year ++ "-" ++ padded 2 d.month ++ "-" ++ padded 2 d.day ++ "T"
      ++ padded 2 (s / 3600 % 24) ++ ":" ++ padded 2 (s / 60 % 60) ++ ":" ++ padded 2 (s % 60)
      ++ "Z")

end Whereabouts
