import Whereabouts.Proofs.Change
import Whereabouts.Proofs.Vehicle.Slots

/-! The text of the fix time. It is written anew only when a pass records that the fused fix time
changed, and still it is the text of the fused fix time after any calls. -/
namespace Whereabouts.Vehicle

variable {R : Type}

/-- The text is that of the fused fix time. -/
def Coherent (v : Vehicle R) : Prop := v.fixTimeText = v.fused.fixTime.iso?

lemma Coherent.of_idles {v w : Vehicle R} (hv : v.Coherent) (h : v.Idles w) : w.Coherent := by
  rw [Coherent, h.text_eq, h.fused_eq]
  exact hv

variable [Arith R]

/-- A pass that does not record a new fix time leaves the old one. -/
lemma fixTime_eq_of_not_has {s : Fusion.Settings R} {raw : List (Location R)} {fused : Location R}
    (h : (Fusion.pass s raw fused).2.has .fixTime = false) :
    (Fusion.pass s raw fused).1.fixTime = fused.fixTime := by
  have hsame : (Aspect.fixTime.differs s.changeEpsilon fused (Fusion.merge raw fused)) = false :=
    (Changes.has_between _ _ _ _).symm.trans h
  exact (bne_eq_false_iff_eq.mp hsame).symm

lemma Coherent.update {v : Vehicle R} (h : v.Coherent) (now : Timestamp) :
    (v.update now).2.2.Coherent := by
  cases hhas : (v.update now).1.has .fixTime with
  | true => exact if_pos hhas
  | false =>
    have htext : (v.update now).2.2.fixTimeText = v.fixTimeText :=
      if_neg (Bool.eq_false_iff.mp hhas)
    have htime : (v.update now).2.2.fused.fixTime = v.fused.fixTime := fixTime_eq_of_not_has hhas
    rw [Coherent, htext, htime]
    exact h

lemma Coherent.call {v : Vehicle R} (h : v.Coherent) (c : Call R) : (v.call c).2.Coherent := by
  rcases v.call_cases c with ⟨-, hidles⟩ | ⟨now, hupdate⟩
  · exact h.of_idles hidles
  · rw [hupdate]
    exact h.update now

lemma Coherent.run {v : Vehicle R} (h : v.Coherent) (cs : List (Call R)) : (v.run cs).Coherent := by
  induction cs generalizing v with
  | nil => exact h
  | cons c cs ih => exact ih (h.call c)

lemma coherent_new {c : VehicleConfig R} {v : Vehicle R} (hv : Vehicle.new c = .ok v) :
    v.Coherent := by
  rcases eq_bare_of_new hv with rfl | ⟨s, hs⟩
  · rfl
  · exact Coherent.of_idles (v := bare c) rfl (idles_of_addSource hs)

/-- From its construction on, whatever is called, a vehicle shows the text of its fused fix time:
none without a fix or beyond the calendar. -/
theorem fixTimeText_run {c : VehicleConfig R} {v : Vehicle R} (hv : Vehicle.new c = .ok v)
    (cs : List (Call R)) : (v.run cs).fixTimeText = (v.run cs).fused.fixTime.iso? :=
  (coherent_new hv).run cs

/-- A fix beyond the calendar, then one with an earlier time, which is lost again. -/
theorem fixTimeText_run_back_in_time :
    let v : Vehicle Float := bare VehicleConfig.default
    let fix (time : Timestamp) : ProviderMessage Float :=
      .fix { position := ⟨48.0, 11.0⟩, time := time }
    let w := v.run [.addProvider "cells" .network, .send 0 (fix Calendar.limit), .update 1000,
      .send 0 (fix 1000), .update 2000, .send 0 .lost, .update 3000]
    Vehicle.new VehicleConfig.default = .ok v ∧ w.fixTimeText = w.fused.fixTime.iso? ∧
      w.fused.fixTime = 1000 ∧ w.fused.validity = .invalid := by
  intro v fix w
  have hv : Vehicle.new VehicleConfig.default = .ok v := by
    have hvalid : (VehicleConfig.default : VehicleConfig Float).validate = .ok () := by decide
    simp only [Vehicle.new, hvalid]
    rfl
  exact ⟨hv, fixTimeText_run hv _, by decide +kernel, by decide +kernel⟩

end Whereabouts.Vehicle
