import Whereabouts.Change
import Mathlib.Tactic.Common

/-! What a set of changes records, and what is announced of it. -/
namespace Whereabouts

namespace Aspect

theorem mem_all (a : Aspect) : a ∈ all := by cases a <;> decide

lemma index_lt (a : Aspect) : a.index < 16 := by cases a <;> decide

lemma index_inj {a b : Aspect} : a.index = b.index ↔ a = b := by
  cases a <;> cases b <;> decide

end Aspect

namespace Changes

lemma has_eq_getLsbD (c : Changes) (a : Aspect) : c.has a = c.bits.getLsbD a.index := by
  unfold has Aspect.bit
  rw [BitVec.and_twoPow]
  cases h : c.bits.getLsbD a.index with
  | false => rfl
  | true => cases a <;> rfl

@[simp] lemma has_none (v : Validity) (a : Aspect) : (none v).has a = false := by
  simp [has_eq_getLsbD, none]

lemma getLsbD_markIf (c : Changes) (a : Aspect) (changed : Bool) (i : Nat) :
    (c.markIf a.bit changed).bits.getLsbD i =
      (c.bits.getLsbD i || (decide (a.index = i) && changed)) := by
  cases changed with
  | false => simp [markIf]
  | true => simp [markIf, mark, Aspect.bit, BitVec.getLsbD_twoPow, a.index_lt]

lemma getLsbD_foldl_markIf (changed : Aspect → Bool) (as : List Aspect) (c : Changes) (i : Nat) :
    (as.foldl (fun c a => c.markIf a.bit (changed a)) c).bits.getLsbD i = true ↔
      c.bits.getLsbD i = true ∨ ∃ a ∈ as, a.index = i ∧ changed a = true := by
  induction as generalizing c with
  | nil => simp
  | cons a as ih => simp [ih, getLsbD_markIf, or_assoc]

lemma validity_foldl_markIf (changed : Aspect → Bool) (as : List Aspect) (c : Changes) :
    (as.foldl (fun c a => c.markIf a.bit (changed a)) c).validity = c.validity := by
  induction as generalizing c with
  | nil => rfl
  | cons a as ih =>
    rw [List.foldl_cons, ih]
    cases changed a <;> rfl

variable {R : Type} [Arith R]

/-- A bit is set if it stands for an aspect that differs, and only then. -/
theorem getLsbD_between (ε : Option R) (before after : Location R) (i : Nat) :
    (between ε before after).bits.getLsbD i = true ↔
      ∃ a : Aspect, a.index = i ∧ a.differs ε before after = true := by
  rw [between, getLsbD_foldl_markIf]
  simp [none, Aspect.mem_all]

/-- Exactly the aspects that differ are recorded. -/
@[simp] theorem has_between (ε : Option R) (before after : Location R) (a : Aspect) :
    (between ε before after).has a = a.differs ε before after := by
  rw [Bool.eq_iff_iff, has_eq_getLsbD, getLsbD_between]
  simp [Aspect.index_inj]

@[simp] theorem validity_between (ε : Option R) (before after : Location R) :
    (between ε before after).validity = after.validity :=
  validity_foldl_markIf _ _ _

/-- Where no aspect differs, no bit is set. -/
theorem between_eq_none {ε : Option R} {before after : Location R}
    (h : ∀ a : Aspect, a.differs ε before after = false) :
    between ε before after = none after.validity := by
  unfold between
  generalize none after.validity = c
  induction Aspect.all generalizing c with
  | nil => rfl
  | cons a as ih => rw [List.foldl_cons, h a]; exact ih c

theorem isEmpty_between (ε : Option R) (before after : Location R) :
    (between ε before after).isEmpty = true ↔
      ∀ a : Aspect, a.differs ε before after = false := by
  constructor
  · intro h a
    have hbits : (between ε before after).bits = 0#16 := by simpa [isEmpty] using h
    rw [← has_between, has_eq_getLsbD, hbits]
    simp
  · intro h
    rw [between_eq_none h]
    rfl

/-- Every recorded change is announced while the location is not invalid. -/
theorem mem_announced {c : Changes} {a : Attribute} (hv : c.validity ≠ .invalid) :
    a ∈ c.announced true ↔ c.contains a = true := by
  have ha : a ∈ Attribute.all := by cases a <;> decide
  simp [announced, hv, ha]

/-- Of an invalid location the loss of validity is announced and nothing else. -/
theorem mem_announced_of_invalid {c : Changes} {a : Attribute} {motion : Bool}
    (hv : c.validity = .invalid) :
    a ∈ c.announced motion ↔ a = .validity ∧ c.contains .validity = true := by
  simp only [announced, hv, if_true, List.mem_filter, List.mem_singleton]
  constructor
  · rintro ⟨rfl, h⟩
    exact ⟨rfl, h⟩
  · rintro ⟨rfl, h⟩
    exact ⟨rfl, h⟩

@[simp] lemma announced_none (v : Validity) (motion : Bool) : (none v).announced motion = [] := by
  simp [announced, contains]

end Changes

variable {R : Type}

/-- The numbers that a location supplies. -/
def Location.numbers (l : Location R) : List R :=
  l.position?.toList.flatMap (fun p => [p.lat, p.lng]) ++ l.speed?.toList ++ l.bearing?.toList
    ++ l.altitude?.toList ++ l.accuracy?.toList

lemma bne_self_of_mem {α : Type} [BEq α] {o : Option α} (h : ∀ x ∈ o, (x == x) = true) :
    (o != o) = false := by
  cases o with
  | none => rfl
  | some x =>
    have hx := h x rfl
    simp [bne, hx]

lemma rel_of_bne_eq_false {α : Type} [BEq α] {r : α → α → Prop}
    (h : ∀ x y, (x == y) = true → r x y) {o o' : Option α} (ho : (o != o') = false) :
    Option.Rel r o o' := by
  cases o with
  | none =>
    cases o' with
    | none => exact .none
    | some y => cases ho
  | some x =>
    cases o' with
    | none => cases ho
    | some y => exact .some (h x y (by simpa [bne] using ho))

/-- A location does not differ from itself if its numbers equal themselves and are within the
tolerance of themselves. -/
theorem Aspect.differs_self [Arith R] {ε : Option R} {l : Location R}
    (hl : ∀ x ∈ l.numbers, (x == x) = true)
    (hε : ∀ e ∈ ε, ∀ x ∈ l.numbers, ¬ e < Arith.abs (x - x)) (a : Aspect) :
    a.differs ε l l = false := by
  have hmem {o : Option R} (ho : ∀ x ∈ o, x ∈ l.numbers) : (o != o) = false :=
    bne_self_of_mem fun x hx => hl x (ho x hx)
  cases a with
  | validity | fixType | satsInView | satsUsed | fixTime => simp [differs]
  | speed | bearing | altitude | accuracy => exact hmem (by simp +contextual [Location.numbers])
  | position =>
    cases hp : l.position? with
    | none => simp [differs, hp]
    | some p =>
      have hlat : p.lat ∈ l.numbers := by simp [Location.numbers, hp]
      have hlng : p.lng ∈ l.numbers := by simp [Location.numbers, hp]
      cases ε with
      | none => simp [differs, hp, bne, Geo.Point.beq_eq, hl _ hlat, hl _ hlng]
      | some e => simp [differs, hp, hε e rfl _ hlat, hε e rfl _ hlng]

end Whereabouts
