import Mathlib.Data.List.Nodup
import Whereabouts.Location.Form
import Whereabouts.Proofs.Json.Text

/-! Typed values read back from the JSON values that are written for them. -/
namespace Whereabouts

/-- A number has a numeral, and reads back from it. -/
def Written.ReadsBack {R : Type} [Written R] (x : R) : Prop :=
  ∃ n, Written.numeral? x = some n ∧ Written.ofNumeral? n = some x

namespace Json

variable {α : Type}

/-- A legible value from which a reader gets `x`. -/
structure Stands (read : Json → Option α) (j : Json) (x : α) : Prop where
  legible : Legible j
  read_eq : read j = some x

/-- What stands for a value still does so after it was printed on one line. -/
theorem Stands.compact {read : Json → Option α} {j : Json} {x : α} (h : Stands read j x) :
    (parse? j.compact).bind read = some x := by
  rw [parse?_compact h.legible]
  exact h.read_eq

theorem Stands.pretty {read : Json → Option α} {j : Json} {x : α} (h : Stands read j x) :
    (parse? j.pretty).bind read = some x := by
  rw [parse?_pretty h.legible]
  exact h.read_eq

lemma stands_str (s : String) : Stands string? (str s) s := ⟨.text s, rfl⟩

lemma stands_bool (b : Bool) : Stands bool? (bool b) b := ⟨.bool b, rfl⟩

lemma stands_num {R : Type} [Written R] {x : R} (h : Written.ReadsBack x) :
    Stands num? (num x) x := by
  obtain ⟨n, hn, hx⟩ := h
  have hnum : num x = number n := by simp [num, hn, orNull]
  rw [hnum]
  exact ⟨.number n, hx⟩

lemma intWithin?_number {low high i : Int} {n : Numeral} (hn : n.int? = some i)
    (h : low ≤ i ∧ i ≤ high) : (number n).intWithin? low high = some i := by
  simp [intWithin?, hn, Option.filter, h]

lemma stands_nat (width : Nat) {n : Nat} (h : n < Nat.pow 2 width) :
    Stands (unsigned? width) (nat n) n := by
  have hint : (Numeral.ofNat n).int? = some (n : Int) := by simp [Numeral.ofNat, Numeral.int?]
  refine ⟨.number _, ?_⟩
  rw [unsigned?, nat, intWithin?_number hint (by omega)]
  rfl

lemma stands_int (width : Nat) {i : Int}
    (h : -Nat.pow 2 (width - 1) ≤ i ∧ i ≤ Nat.pow 2 (width - 1) - 1) :
    Stands (signed? width) (int i) i :=
  ⟨.number _, intWithin?_number (Numeral.int?_ofInt i) h⟩

/-- A name tells an alternative from all others. -/
lemma stands_oneOf {all : List α} {name : α → String} {a : α}
    (h : all.find? (name · == name a) = some a) : Stands (oneOf? all name) (str (name a)) a :=
  ⟨.text _, h⟩

lemma stands_orNull {read : Json → Option α} {write : α → Json} (hnull : read null = none)
    {o : Option α} (h : ∀ x ∈ o, Stands read (write x) x) :
    Stands (nullable? read) (orNull (o.map write)) o := by
  cases o with
  | none => exact ⟨.null, rfl⟩
  | some x =>
    obtain ⟨hlegible, hread⟩ := h x rfl
    refine ⟨hlegible, ?_⟩
    change nullable? read (write x) = _
    unfold nullable?
    split
    case h_1 hw => rw [hw, hnull] at hread; cases hread
    case h_2 => rw [hread]; rfl

lemma legible_array {read : Json → Option α} {write : α → Json} {xs : List α}
    (h : ∀ x ∈ xs, Stands read (write x) x) : Legible (array (xs.map write)) :=
  .array (List.forall_mem_map.mpr fun x hx => (h x hx).legible)

lemma mapM_read {read : Json → Option α} {write : α → Json} {xs : List α}
    (h : ∀ x ∈ xs, Stands read (write x) x) : (xs.map write).mapM read = some xs := by
  induction xs with
  | nil => rfl
  | cons x xs ih =>
    obtain ⟨hx, hxs⟩ := List.forall_mem_cons.mp h
    simp [hx.read_eq, ih hxs]

lemma legible_obj {ms : List (String × Json)} (h : ∀ m ∈ ms, Legible m.2) : Legible (obj ms) :=
  .object (List.forall_mem_map.mpr fun _ _ => Option.some_ne_none _) (List.forall_mem_map.mpr h)

lemma mapM_name (ms : List (String × Json)) :
    (ms.map fun (k, v) => (some k, v)).mapM (·.1) = some (ms.map Prod.fst) := by
  induction ms with
  | nil => rfl
  | cons m ms ih => simp [ih]

lemma find?_name (ms : List (String × Json)) (n : String) :
    ((ms.map fun (k, v) => (some k, v)).find? (·.1 == some n)).map (·.2) = ms.lookup n := by
  induction ms with
  | nil => rfl
  | cons m ms ih =>
    obtain ⟨k, v⟩ := m
    by_cases hk : k = n
    · simp [hk]
    · have hk' : (n == k) = false := by simpa using Ne.symm hk
      simpa [hk, List.lookup_cons, hk'] using ih

namespace Fields

/-- The fields of a record that has been written, in this order. -/
def ofMembers (ms : List (String × Json)) : Fields := fun n => ms.lookup n

variable {ms : List (String × Json)} {name other : String} {j : Json} {fallback : α}
  {read : Json → Option α}

lemma ofMembers_cons :
    ofMembers ((other, j) :: ms) name = if name = other then some j else ofMembers ms name := by
  by_cases h : name = other
  · simp [ofMembers, h]
  · simp [ofMembers, List.lookup_cons, beq_false_of_ne h, h]

@[simp] lemma required?_cons :
    (ofMembers ((other, j) :: ms)).required? name read =
      if name = other then read j else (ofMembers ms).required? name read := by
  rw [required?, ofMembers_cons]
  split_ifs <;> rfl

@[simp] lemma optional?_cons :
    (ofMembers ((other, j) :: ms)).optional? name fallback read =
      if name = other then read j else (ofMembers ms).optional? name fallback read := by
  rw [optional?, ofMembers_cons]
  split_ifs <;> rfl

end Fields

lemma fields?_obj {ms : List (String × Json)} (h : (ms.map Prod.fst).Nodup) (names : List String) :
    (obj ms).fields? names = some (Fields.ofMembers ms) := by
  have hcount : (names.any fun n => decide (1 < (ms.map Prod.fst).count n)) = false := by
    rw [List.any_eq_false]
    intro n _
    have := List.nodup_iff_count_le_one.mp h n
    simpa using this
  simp only [obj, fields?, mapM_name, hcount, find?_name, Option.bind_eq_bind, Option.bind_some]
  rfl

/-- A record stands for what is read from its fields, which are found by their names. -/
lemma stands_obj {ms : List (String × Json)} {names : List String} {read : Fields → Option α}
    {x : α} (hnames : (ms.map Prod.fst).Nodup) (hlegible : ∀ m ∈ ms, Legible m.2)
    (h : read (Fields.ofMembers ms) = some x) :
    Stands (fun j => j.fields? names >>= read) (obj ms) x := by
  refine ⟨legible_obj hlegible, ?_⟩
  rw [fields?_obj hnames]
  exact h

end Json
end Whereabouts
