import Mathlib.Data.List.Forall2
import Mathlib.Tactic.IntervalCases
import Whereabouts.Proofs.Location.Reading
import Whereabouts.Store

/-! Locations that tell the same. Their stored values may differ behind attributes that are absent,
and nothing that is done with a location brings such a value to light. -/
namespace Whereabouts

open Arith

variable {R : Type}

namespace Presence

lemma contains_clear_of_disjoint {q r : Presence} (h : r.clear q = r) (p : Presence) :
    (p.clear q).contains r = p.contains r := by
  rw [Bool.eq_iff_iff]
  refine ⟨fun hr => ?_, fun hr => contains_clear_of_contains hr h⟩
  rw [contains_iff] at hr ⊢
  intro i hi
  have := hr i hi
  simp only [clear, BitVec.getLsbD_and, Bool.and_eq_true] at this
  exact this.1

lemma contains_clear_self {q : Presence} (h : q ≠ none) (p : Presence) :
    (p.clear q).contains q = false := by
  rw [Bool.eq_false_iff]
  intro hq
  rw [contains_iff] at hq
  refine h (congrArg mk (BitVec.eq_of_getLsbD_eq fun i _ => ?_))
  cases hi : q.bits.getLsbD i with
  | false => simp
  | true =>
    have := hq i hi
    simp [clear, hi] at this

/-- The bits that stand for no attribute. -/
def spare (p : Presence) : BitVec 8 := p.bits &&& ~~~all.bits

lemma spare_set {q : Presence} (h : all.contains q = true) (p : Presence) :
    (p.set q).spare = p.spare := by
  rw [contains_iff] at h
  refine BitVec.eq_of_getLsbD_eq fun i hi => ?_
  simp only [spare, set, BitVec.getLsbD_and, BitVec.getLsbD_or, BitVec.getLsbD_not, hi,
    decide_true, Bool.true_and]
  cases hq : q.bits.getLsbD i with
  | false => rw [Bool.or_false]
  | true => simp only [h i hq, Bool.not_true, Bool.and_false]

lemma spare_clear {q : Presence} (h : all.contains q = true) (p : Presence) :
    (p.clear q).spare = p.spare := by
  rw [contains_iff] at h
  refine BitVec.eq_of_getLsbD_eq fun i hi => ?_
  simp only [spare, clear, BitVec.getLsbD_and, BitVec.getLsbD_not, hi, decide_true, Bool.true_and]
  cases hq : q.bits.getLsbD i with
  | false => rw [Bool.not_false, Bool.and_true]
  | true => simp only [h i hq, Bool.not_true, Bool.and_false]

/-- A pattern is its attributes and its spare bits. -/
lemma eq_of_contains {p q : Presence}
    (h : ∀ a ∈ [position, speed, bearing, altitude, accuracy, satellites],
      p.contains a = q.contains a)
    (hspare : p.spare = q.spare) : p = q := by
  have hbit {i : Nat} (hi : i < 8) (r : Presence) :
      r.contains ⟨BitVec.twoPow 8 i⟩ = r.bits.getLsbD i := by
    rw [Bool.eq_iff_iff, contains_iff]
    simp [BitVec.getLsbD_twoPow, hi]
  refine congrArg mk (BitVec.eq_of_getLsbD_eq fun i hi => ?_)
  by_cases hall : all.bits.getLsbD i = true
  · rw [← hbit hi, ← hbit hi]
    apply h
    interval_cases i <;> revert hall <;> decide
  · have := congrArg (·.getLsbD i) hspare
    simpa only [spare, BitVec.getLsbD_and, BitVec.getLsbD_not, hi, hall, decide_true,
      Bool.not_false, Bool.and_true, Bool.true_and] using this

end Presence

namespace Location

@[simp] lemma reading_clear_bearing (l : Location R) :
    (l.clear .bearing).reading = { l.reading with bearing := none } := by
  simp (disch := decide) only [reading, position?, speed?, bearing?, altitude?, accuracy?,
    satellites?, has, clear, Presence.contains_clear_of_disjoint, Presence.contains_clear_self]
  rfl

@[simp] lemma reading_clear_accuracy (l : Location R) :
    (l.clear .accuracy).reading = { l.reading with accuracy := none } := by
  simp (disch := decide) only [reading, position?, speed?, bearing?, altitude?, accuracy?,
    satellites?, has, clear, Presence.contains_clear_of_disjoint, Presence.contains_clear_self]
  rfl

/-- The first value of an attribute that is present and not sound, or another fault. -/
lemma ite_fault {α β : Type} (ok : α → Bool) (fault : α → β) {present : Bool} {value : α}
    {rest : Option β} :
    (if present && !ok value then some (fault value) else rest) =
      (((if present then some value else none).filter fun v => !ok v).map fault).or rest := by
  cases present <;> cases hok : ok value <;> simp [Option.filter, hok]

lemma placeFault?_eq_getters [Arith R] (l : Location R) :
    l.placeFault? =
      ((l.position?.filter fun p => !p.isValid).map .invalidPosition).or
        ((l.accuracy?.filter fun r => !isNonneg r).map .invalidAccuracy) := by
  unfold placeFault?
  rw [ite_fault Geo.Point.isValid Fault.invalidPosition, ite_fault isNonneg Fault.invalidAccuracy,
    Option.or_none]
  rfl

lemma motionFault?_eq_getters [Arith R] (l : Location R) :
    l.motionFault? =
      ((l.speed?.filter fun v => !isFinite v).map fun _ => .invalidSpeed).or
        (((l.bearing?.filter fun v => !isFinite v).map fun _ => .invalidBearing).or
          ((l.altitude?.filter fun v => !isFinite v).map fun _ => .invalidAltitude)) := by
  unfold motionFault?
  rw [ite_fault isFinite fun _ => Fault.invalidSpeed,
    ite_fault isFinite fun _ => Fault.invalidBearing,
    ite_fault isFinite fun _ => Fault.invalidAltitude, Option.or_none]
  rfl

/-- The getters tell the same of both: which attributes are present, their values, and the rest. -/
structure Agrees (l m : Location R) : Prop where
  reading_eq : l.reading = m.reading
  presence_eq : l.presence = m.presence

namespace Agrees

variable {l m : Location R}

lemma has_eq (h : l.Agrees m) (p : Presence) : l.has p = m.has p :=
  congrArg (·.contains p) h.presence_eq

lemma position?_eq (h : l.Agrees m) : l.position? = m.position? :=
  congrArg Reading.position h.reading_eq

lemma speed?_eq (h : l.Agrees m) : l.speed? = m.speed? := congrArg Reading.speed h.reading_eq

lemma bearing?_eq (h : l.Agrees m) : l.bearing? = m.bearing? :=
  congrArg Reading.bearing h.reading_eq

lemma altitude?_eq (h : l.Agrees m) : l.altitude? = m.altitude? :=
  congrArg Reading.altitude h.reading_eq

lemma accuracy?_eq (h : l.Agrees m) : l.accuracy? = m.accuracy? :=
  congrArg Reading.accuracy h.reading_eq

lemma satellites?_eq (h : l.Agrees m) : l.satellites? = m.satellites? :=
  congrArg Reading.satellites h.reading_eq

lemma fixType_eq (h : l.Agrees m) : l.fixType = m.fixType := congrArg Reading.fixType h.reading_eq

lemma fixTime_eq (h : l.Agrees m) : l.fixTime = m.fixTime := congrArg Reading.fixTime h.reading_eq

lemma validity_eq (h : l.Agrees m) : l.validity = m.validity :=
  congrArg Reading.validity h.reading_eq

lemma preference_eq (h : l.Agrees m) : l.preference = m.preference :=
  congrArg Reading.preference h.reading_eq

lemma rank_eq (h : l.Agrees m) : l.rank = m.rank := by
  rw [rank, rank, h.preference_eq, h.validity_eq]

lemma weighingRadius_eq [Arith R] (h : l.Agrees m) : l.weighingRadius = m.weighingRadius := by
  rw [weighingRadius, weighingRadius, h.accuracy?_eq]

lemma presence_set (h : l.Agrees m) (p : Presence) : l.presence.set p = m.presence.set p := by
  rw [h.presence_eq]

lemma presence_clear (h : l.Agrees m) (p : Presence) :
    l.presence.clear p = m.presence.clear p := by
  rw [h.presence_eq]

lemma setPosition (h : l.Agrees m) (p : Geo.Point R) : (l.setPosition p).Agrees (m.setPosition p) :=
  ⟨by simp only [reading_setPosition, h.reading_eq], h.presence_set _⟩

lemma setSpeed (h : l.Agrees m) (kmh : R) : (l.setSpeed kmh).Agrees (m.setSpeed kmh) :=
  ⟨by simp only [reading_setSpeed, h.reading_eq], h.presence_set _⟩

lemma setBearing (h : l.Agrees m) (degrees : R) :
    (l.setBearing degrees).Agrees (m.setBearing degrees) :=
  ⟨by simp only [reading_setBearing, h.reading_eq], h.presence_set _⟩

lemma setAltitude (h : l.Agrees m) (meters : R) :
    (l.setAltitude meters).Agrees (m.setAltitude meters) :=
  ⟨by simp only [reading_setAltitude, h.reading_eq], h.presence_set _⟩

lemma setAccuracy (h : l.Agrees m) (radius : R) :
    (l.setAccuracy radius).Agrees (m.setAccuracy radius) :=
  ⟨by simp only [reading_setAccuracy, h.reading_eq], h.presence_set _⟩

lemma setSatellites (h : l.Agrees m) (inView used : Nat) :
    (l.setSatellites inView used).Agrees (m.setSatellites inView used) :=
  ⟨by simp only [reading_setSatellites, h.reading_eq], h.presence_set _⟩

lemma clearBearing (h : l.Agrees m) : (l.clear .bearing).Agrees (m.clear .bearing) :=
  ⟨by simp only [reading_clear_bearing, h.reading_eq], h.presence_clear _⟩

lemma clearAccuracy (h : l.Agrees m) : (l.clear .accuracy).Agrees (m.clear .accuracy) :=
  ⟨by simp only [reading_clear_accuracy, h.reading_eq], h.presence_clear _⟩

lemma setFixType (h : l.Agrees m) (n : Int) :
    ({ l with fixType := n } : Location R).Agrees { m with fixType := n } :=
  ⟨congrArg (fun r : Reading R => { r with fixType := n }) h.reading_eq, h.presence_eq⟩

lemma setFixTime (h : l.Agrees m) (t : Timestamp) :
    ({ l with fixTime := t } : Location R).Agrees { m with fixTime := t } :=
  ⟨congrArg (fun r : Reading R => { r with fixTime := t }) h.reading_eq, h.presence_eq⟩

lemma setValidity (h : l.Agrees m) (v : Validity) :
    ({ l with validity := v } : Location R).Agrees { m with validity := v } :=
  ⟨congrArg (fun r : Reading R => { r with validity := v }) h.reading_eq, h.presence_eq⟩

lemma setPreference (h : l.Agrees m) (p : Preference) :
    ({ l with preference := p } : Location R).Agrees { m with preference := p } :=
  ⟨congrArg (fun r : Reading R => { r with preference := p }) h.reading_eq, h.presence_eq⟩

variable [Arith R]

lemma floored (h : l.Agrees m) : l.floored.Agrees m.floored := by
  refine ⟨?_, ?_⟩
  · simp only [reading_floored, h.reading_eq]
  · rw [presence_floored, presence_floored, h.presence_eq]

lemma placeFault?_eq (h : l.Agrees m) : l.placeFault? = m.placeFault? := by
  rw [placeFault?_eq_getters, placeFault?_eq_getters, h.position?_eq, h.accuracy?_eq]

lemma motionFault?_eq (h : l.Agrees m) : l.motionFault? = m.motionFault? := by
  rw [motionFault?_eq_getters, motionFault?_eq_getters, h.speed?_eq, h.bearing?_eq, h.altitude?_eq]

theorem sanitize (h : l.Agrees m) :
    l.sanitize.1.Agrees m.sanitize.1 ∧ l.sanitize.2 = m.sanitize.2 := by
  unfold Location.sanitize
  rw [h.placeFault?_eq, h.motionFault?_eq]
  cases m.placeFault? with
  | none => exact ⟨h.floored, rfl⟩
  | some e => exact ⟨h, rfl⟩

end Agrees
end Location
end Whereabouts
