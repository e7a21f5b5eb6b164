import Whereabouts.Location.Sanitize
import Mathlib.Tactic.Common

/-! What the getters of a location tell after it was written to, and after it was sanitized. -/
namespace Whereabouts

open Arith

variable {R : Type}

/-- Adding attributes does not add others. -/
lemma Presence.contains_set_of_disjoint {q r : Presence} (h : r.clear q = r) (p : Presence) :
    (p.set q).contains r = p.contains r := by
  rw [contains_set, h]

namespace Location

@[simp] lemma reading_setPosition (l : Location R) (p : Geo.Point R) :
    (l.setPosition p).reading = { l.reading with position := some p } := by
  simp (disch := decide) only [reading, position?, speed?, bearing?, altitude?, accuracy?,
    satellites?, has, setPosition, Presence.contains_set_of_disjoint, Presence.contains_set_self,
    if_true]
  rfl

@[simp] lemma reading_setSpeed (l : Location R) (kmh : R) :
    (l.setSpeed kmh).reading = { l.reading with speed := some kmh } := by
  simp (disch := decide) only [reading, position?, speed?, bearing?, altitude?, accuracy?,
    satellites?, has, setSpeed, Presence.contains_set_of_disjoint, Presence.contains_set_self,
    if_true]
  rfl

@[simp] lemma reading_setBearing (l : Location R) (degrees : R) :
    (l.setBearing degrees).reading = { l.reading with bearing := some degrees } := by
  simp (disch := decide) only [reading, position?, speed?, bearing?, altitude?, accuracy?,
    satellites?, has, setBearing, Presence.contains_set_of_disjoint, Presence.contains_set_self,
    if_true]
  rfl

@[simp] lemma reading_setAltitude (l : Location R) (meters : R) :
    (l.setAltitude meters).reading = { l.reading with altitude := some meters } := by
  simp (disch := decide) only [reading, position?, speed?, bearing?, altitude?, accuracy?,
    satellites?, has, setAltitude, Presence.contains_set_of_disjoint, Presence.contains_set_self,
    if_true]
  rfl

@[simp] lemma reading_setAccuracy (l : Location R) (radius : R) :
    (l.setAccuracy radius).reading = { l.reading with accuracy := some radius } := by
  simp (disch := decide) only [reading, position?, speed?, bearing?, altitude?, accuracy?,
    satellites?, has, setAccuracy, Presence.contains_set_of_disjoint, Presence.contains_set_self,
    if_true]
  rfl

@[simp] lemma reading_setSatellites (l : Location R) (inView used : Nat) :
    (l.setSatellites inView used).reading =
      { l.reading with satellites := some (inView, used) } := by
  simp (disch := decide) only [reading, position?, speed?, bearing?, altitude?, accuracy?,
    satellites?, has, setSatellites, Presence.contains_set_of_disjoint, Presence.contains_set_self,
    if_true]
  rfl

variable [Arith R]

lemma reading_blank (p : Preference) :
    (blank p : Location R).reading =
      { position := none, speed := none, bearing := none, altitude := none, accuracy := none,
        satellites := none, fixType := 0, fixTime := Timestamp.never, validity := .invalid,
        preference := p } := by
  have hnone (q : Presence) (hq : Presence.none.contains q = false) :
      (blank p : Location R).has q = false := hq
  simp (disch := decide) [reading, position?, speed?, bearing?, altitude?, accuracy?, satellites?,
    hnone]
  exact ⟨rfl, rfl, rfl, rfl⟩

/-- Every attribute that is told can be stored. -/
def Reading.isSound (r : Reading R) : Bool :=
  r.position.all Geo.Point.isValid && r.accuracy.all isNonneg && r.speed.all isFinite
    && r.bearing.all isFinite && r.altitude.all isFinite

/-- A radius below the smallest one is raised to it. -/
def raisedRadius (radius : R) : R := if radius < minRadius then minRadius else radius

lemma ite_some_eq_none {α : Type} {present ok : Bool} {fault : α} {rest : Option α} :
    (if present && !ok then some fault else rest) = none ↔
      (present = true → ok = true) ∧ rest = none := by
  cases present <;> cases ok <;> simp

lemma all_ite_some {α : Type} {present : Bool} {value : α} {ok : α → Bool} :
    (if present = true then some value else none).all ok = true ↔
      (present = true → ok value = true) := by
  cases present <;> simp

lemma placeFault?_eq_none {l : Location R} :
    l.placeFault? = none ↔
      l.position?.all Geo.Point.isValid = true ∧ l.accuracy?.all isNonneg = true := by
  simp only [placeFault?, position?, accuracy?, ite_some_eq_none, all_ite_some, and_true]

lemma motionFault?_eq_none {l : Location R} :
    l.motionFault? = none ↔
      l.speed?.all isFinite = true ∧ l.bearing?.all isFinite = true ∧
        l.altitude?.all isFinite = true := by
  simp only [motionFault?, speed?, bearing?, altitude?, ite_some_eq_none, all_ite_some, and_true]

lemma sanitize_of_placeFault? {l : Location R} (h : l.placeFault? = none) :
    l.sanitize = (l.floored, l.motionFault?) := by
  rw [sanitize, h]

/-- A location has no fault exactly when all that it tells can be stored. -/
theorem snd_sanitize_eq_none {l : Location R} :
    l.sanitize.2 = none ↔ l.reading.isSound = true := by
  have hsound : l.reading.isSound = true ↔ l.placeFault? = none ∧ l.motionFault? = none := by
    rw [placeFault?_eq_none, motionFault?_eq_none]
    simp only [Reading.isSound, reading, Bool.and_eq_true, and_assoc]
  rw [hsound]
  cases h : l.placeFault? with
  | none => simp [sanitize_of_placeFault? h]
  | some e => simp [sanitize, h]

lemma reading_floored (l : Location R) :
    l.floored.reading = { l.reading with accuracy := l.reading.accuracy.map raisedRadius } := by
  have hraised : (l.reading.accuracy.map raisedRadius) =
      if l.has .accuracy then some (raisedRadius l.accuracy) else none := by
    change (l.accuracy?).map raisedRadius = _
    rw [accuracy?]
    split_ifs <;> rfl
  rw [hraised, floored, raisedRadius]
  cases hhas : l.has .accuracy with
  | false => simp [reading, accuracy?, hhas]
  | true =>
    by_cases hlt : l.accuracy < minRadius
    · simp only [hlt, decide_true, Bool.and_true, if_true]
      have hhas' : ({ l with accuracy := minRadius } : Location R).has .accuracy = true := hhas
      simp only [reading, accuracy?, hhas', if_true]
      rfl
    · simp [hlt, reading, accuracy?, hhas]

lemma presence_floored (l : Location R) : l.floored.presence = l.presence := by
  unfold floored
  split_ifs <;> rfl

/-- Sanitizing raises the accuracy and changes nothing else that is told. -/
theorem reading_sanitize {l : Location R} (h : l.sanitize.2 = none) :
    l.sanitize.1.reading =
      { l.reading with accuracy := l.reading.accuracy.map raisedRadius } := by
  cases hplace : l.placeFault? with
  | none => rw [sanitize_of_placeFault? hplace, reading_floored]
  | some e => simp [sanitize, hplace] at h

/-- Sanitizing finds nothing to change and no fault. -/
def Storable (l : Location R) : Prop := l.sanitize = (l, none)

lemma storable_iff {l : Location R} :
    l.Storable ↔ l.placeFault? = none ∧ l.motionFault? = none ∧ l.floored = l := by
  unfold Storable sanitize
  cases l.placeFault? with
  | none => simp [and_comm]
  | some e => simp

lemma storable_blank (p : Preference) : (blank p : Location R).Storable := by
  have hnone (q : Presence) (hq : Presence.none.contains q = false) :
      (blank p : Location R).has q = false := hq
  rw [storable_iff]
  simp (disch := decide) [placeFault?, motionFault?, floored, hnone]

/-- Satellite counts do not matter. -/
lemma Storable.setSatellites {l : Location R} (h : l.Storable) (inView used : Nat) :
    (l.setSatellites inView used).Storable := by
  have hkeep {q : Presence} (hq : q.clear .satellites = q) :
      (l.setSatellites inView used).has q = l.has q :=
    Presence.contains_set_of_disjoint hq _
  have hfloored : (l.setSatellites inView used).floored =
      l.floored.setSatellites inView used := by
    rw [floored, floored, hkeep (by decide)]
    change (if l.has .accuracy && decide (l.accuracy < minRadius) then _ else _) = _
    split_ifs <;> rfl
  rw [storable_iff] at h ⊢
  refine ⟨?_, ?_, hfloored.trans (congrArg (·.setSatellites inView used) h.2.2)⟩
  · rw [← h.1, placeFault?, placeFault?, hkeep (by decide), hkeep (by decide)]
    rfl
  · rw [← h.2.1, motionFault?, motionFault?, hkeep (by decide), hkeep (by decide),
      hkeep (by decide)]
    rfl

lemma Storable.setFix {l : Location R} (h : l.Storable) (v : Validity) (fixType : Int) :
    ({ l with validity := v, fixType := fixType } : Location R).Storable := by
  have hfloored : ({ l with validity := v, fixType := fixType } : Location R).floored =
      { l.floored with validity := v, fixType := fixType } := by
    unfold floored
    change (if l.has .accuracy && decide (l.accuracy < minRadius) then _ else _) = _
    split_ifs <;> rfl
  rw [storable_iff] at h ⊢
  refine ⟨h.1, h.2.1, hfloored.trans ?_⟩
  rw [h.2.2]

/-- What sanitizing leaves can be stored, since the smallest radius is one and is not raised. -/
lemma storable_sanitize (hmin : isNonneg (minRadius : R) = true)
    (hraise : ¬ (minRadius : R) < minRadius) {l : Location R} (h : l.sanitize.2 = none) :
    l.sanitize.1.Storable := by
  cases hplace : l.placeFault? with
  | some e => simp [sanitize, hplace] at h
  | none =>
    rw [sanitize_of_placeFault? hplace] at h ⊢
    change l.floored.Storable
    have hmotion : l.motionFault? = none := h
    cases hlow : l.has .accuracy && decide (l.accuracy < minRadius) with
    | false =>
      have hsame : l.floored = l := by rw [floored, hlow]; rfl
      rw [hsame, storable_iff]
      exact ⟨hplace, hmotion, hsame⟩
    | true =>
      have hraised : l.floored = { l with accuracy := minRadius } := by rw [floored, hlow]; rfl
      rw [hraised, storable_iff]
      refine ⟨?_, hmotion, ?_⟩
      · rw [placeFault?_eq_none] at hplace ⊢
        exact ⟨hplace.1, all_ite_some.mpr fun _ => hmin⟩
      · simp [floored, hraise]

end Location
end Whereabouts
