import Whereabouts.Decimal.Digits

/-! JSON values. A number keeps its digits, so that each reader decides what it stands for. -/
namespace Whereabouts

/-- A written number: sign, whole part, digits after the point, and power of ten. -/
structure Numeral where
  negative : Bool := false
  whole : Nat
  fraction : List Digit := []
  exponent : Option Int := none
  deriving Repr, DecidableEq

/-- A string or a member name is `none` if an escape in it is an unpaired surrogate: such a text
is well formed, but it spells no string. -/
inductive Json where
  | null
  | bool (value : Bool)
  | number (value : Numeral)
  | text (value : Option String)
  | array (items : List Json)
  | object (members : List (Option String × Json))
  deriving Repr, Inhabited

namespace Numeral

def ofNat (n : Nat) : Numeral := ⟨false, n, [], none⟩

def ofInt (i : Int) : Numeral := ⟨decide (i < 0), i.natAbs, [], none⟩

/-- The integer that a numeral is. A fraction, an exponent or a minus before zero makes it a
number of another kind. -/
def int? (n : Numeral) : Option Int :=
  if n.fraction ≠ [] ∨ n.exponent ≠ none ∨ (n.negative ∧ n.whole = 0) then none
  else some (if n.negative then -(n.whole : Int) else n.whole)

theorem int?_ofInt (i : Int) : (ofInt i).int? = some i := by
  have back : (if i < 0 then -(i.natAbs : Int) else i.natAbs) = i := by split <;> omega
  have nonzero : ¬(i < 0 ∧ i.natAbs = 0) := by omega
  simp only [ofInt, int?, ne_eq, not_true_eq_false, decide_eq_true_eq, false_or, nonzero, if_false,
    back]

end Numeral

namespace Json

def str (s : String) : Json := text (some s)

def nat (n : Nat) : Json := number (Numeral.ofNat n)

def int (i : Int) : Json := number (Numeral.ofInt i)

/-- An object with the given members in order. -/
def obj (members : List (String × Json)) : Json := object (members.map fun (k, v) => (some k, v))

/-- An absent value is written as null. -/
def orNull : Option Json → Json
  | none => null
  | some j => j

end Json
end Whereabouts
