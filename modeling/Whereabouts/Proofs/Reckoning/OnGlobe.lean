import Whereabouts.Proofs.Reckoning.InPlace

/-! Moves along routes on the globe. What has to be known of the arithmetic is collected in
`Confined`; then every move ends near the globe, and what it writes besides the position can be
stored. -/
namespace Whereabouts

open Arith

variable {R : Type} [Arith R]

/-- All that is told but the position can be stored. -/
structure Location.Reading.SoundElsewhere (r : Location.Reading R) : Prop where
  accuracy : r.accuracy.all isNonneg = true
  speed : r.speed.all isFinite = true
  bearing : r.bearing.all isFinite = true
  altitude : r.altitude.all isFinite = true

lemma Location.sanitize_eq_none_of_soundElsewhere {l : Location R}
    (h : l.reading.SoundElsewhere) :
    l.sanitize.2 = none ↔ ∀ p, l.position? = some p → p.isValid = true := by
  have hposition : l.reading.position = l.position? := rfl
  rw [snd_sanitize_eq_none]
  simp [Reading.isSound, hposition, h.accuracy, h.speed, h.bearing, h.altitude,
    Option.all_eq_true]

namespace Reckoning

/-- A point where a walk on the globe may start: a valid one, or a projection onto a segment between
two of them. -/
def OnSegment (p : Geo.Point R) : Prop :=
  p.isValid = true ∨ ∃ q a b : Geo.Point R, a.isValid = true ∧ b.isValid = true ∧
    p = (q.project a b).point

/-- An arithmetic in which legs on the globe stay near it and have bearings, for as long as `Left`
is known of the time that is left. -/
structure Confined (Near : Geo.Point R → Prop) (Left : R → Prop) : Prop where
  isFinite_zero : isFinite (0.0 : R) = true
  isNonneg_of_isPositive : ∀ x : R, isPositive x = true → isNonneg x = true
  of_isValid : ∀ p : Geo.Point R, p.isValid = true → Near p
  of_pos : ∀ time, (0.0 : R) < time → Left time
  spend : ∀ left time, Left left → ¬ left < time → Left (left - time)
  leg : ∀ (start goal : Geo.Point R) (left speed : R), OnSegment start → goal.isValid = true →
    Left left → left < legTime (start.distance goal) speed →
      Near (start.towards goal (left / legTime (start.distance goal) speed)) ∧
        isFinite (start.bearing goal) = true

variable {r : Route R} (hr : r.OnGlobe)

include hr

lemma onSegment_of_snap? {p : Option (Geo.Point R)} {c : Cursor R} (hc : snap? r p = some c) :
    OnSegment c.point := by
  obtain ⟨s, hs, -, -, hpoint⟩ := exists_mem_of_snap? hc
  obtain ⟨hstart, hstop⟩ := isValid_of_mem_stretches hr hs
  rcases hpoint with hpoint | ⟨q, hpoint⟩
  · exact .inl (hpoint ▸ hstart)
  · exact .inr ⟨q, s.start, s.stop, hstart, hstop, hpoint⟩

/-- A move along a route on the globe ends near it, from wherever it starts. -/
theorem Confined.advance {Near : Geo.Point R → Prop} {Left : R → Prop} (h : Confined Near Left)
    {s : Settings R} (hs : s.validate = .ok ()) {table : Option (SpeedTable R)} {now : Timestamp}
    {l after : Location R} {outcome : Outcome}
    (hadvance : advance s (some r) table now l = .ok (outcome, after)) :
    after = l ∨ (∀ p, after.position? = some p → Near p) ∧
      (l.reading.SoundElsewhere → after.reading.SoundElsewhere) := by
  have hfix : l.fixTime ≠ Timestamp.never := by
    intro hfix
    simp [Reckoning.advance, advanceBy, hfix] at hadvance
  cases hc : snap? r l.position? with
  | none => simp [Reckoning.advance, advanceBy, hfix, hc] at hadvance
  | some c =>
    have hradius : isNonneg s.accuracy = true :=
      h.isNonneg_of_isPositive _ (s.validate_eq_ok_iff.mp hs).2.1
    rcases advanceBy_cases Geo.Point.distance h.spend s table now h.of_pos hfix hc with
      ⟨-, hstays⟩ | ⟨-, stop, hstop, harrive⟩
    · left
      cases hadvance.symm.trans hstays
      rfl
    · right
      cases hstop with
      | @onLeg item road start goal left hroad hwalkable hle hstart hgoal hleft hlt =>
        have hroad := List.mem_of_getElem? hroad
        have hstart : OnSegment start := by
          rcases hstart with rfl | ⟨i, hi, hmem⟩
          · exact onSegment_of_snap? hr hc
          · exact .inl (hr i hi _ hmem)
        obtain ⟨hnear, hbearing⟩ := h.leg start goal left _ hstart (hr road hroad _ hgoal) hleft hlt
        cases hadvance.symm.trans harrive
        have hreading := reading_arrive_onLeg s now l item (s.speedOn table road) start goal
          (left / legTime (start.distance goal) (s.speedOn table road))
        refine ⟨fun p hp => ?_, fun hl => ?_⟩
        · cases hp.symm.trans (congrArg Location.Reading.position hreading)
          exact hnear
        · have hspeed := isFinite_of_isPositive (s.isPositive_speedOn hs table road)
          exact (congrArg Location.Reading.SoundElsewhere hreading).mpr
            ⟨hradius, hspeed, hbearing, hl.altitude⟩
      | @atEnd point hpoint =>
        cases hadvance.symm.trans harrive
        have hreading := reading_arrive_atEnd s now l point
        refine ⟨fun p hp => ?_, fun hl => ?_⟩
        · cases hp.symm.trans (congrArg Location.Reading.position hreading)
          exact h.of_isValid _ (isValid_destination hr hpoint)
        · exact (congrArg Location.Reading.SoundElsewhere hreading).mpr
            ⟨hradius, h.isFinite_zero, rfl, hl.altitude⟩

end Reckoning
end Whereabouts
