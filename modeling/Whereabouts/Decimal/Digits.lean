/-! Decimal digits of a natural number, most significant first, and the number they spell. -/
namespace Whereabouts

abbrev Digit := Fin 10

def Digit.zero : Digit := ⟨0, by decide⟩

def digitChar (d : Digit) : Char := Char.ofNat (48 + d.val)

def digit? (c : Char) : Option Digit :=
  if h : 48 ≤ c.toNat ∧ c.toNat < 58 then some ⟨c.toNat - 48, by omega⟩ else none

theorem digit?_digitChar : ∀ d : Digit, digit? (digitChar d) = some d := by decide

def digits (n : Nat) : List Digit :=
  if h : n < 10 then [⟨n, h⟩] else digits (n / 10) ++ [⟨n % 10, Nat.mod_lt n (by decide)⟩]
termination_by n
decreasing_by omega

/-- The number that a row of digits spells. -/
def spelled (ds : List Digit) : Nat := ds.foldl (fun n d => 10 * n + d.val) 0

@[simp] theorem spelled_append_singleton (ds : List Digit) (d : Digit) :
    spelled (ds ++ [d]) = 10 * spelled ds + d.val := by
  simp [spelled]

@[simp] theorem spelled_digits (n : Nat) : spelled (digits n) = n := by
  induction n using Nat.strongRecOn with
  | _ n ih =>
    rw [digits]
    split
    · simp [spelled]
    · rw [spelled_append_singleton, ih (n / 10) (by omega)]
      simp only
      omega

theorem digits_ne_nil (n : Nat) : digits n ≠ [] := by
  rw [digits]; split <;> simp

def digitText (ds : List Digit) : String := String.ofList (ds.map digitChar)

def natText (n : Nat) : String := digitText (digits n)

end Whereabouts
