import Whereabouts.Proofs.Reckoning.Speed
import Whereabouts.Proofs.Vehicle.Slots

/-! Settings that pass their checks once pass all later ones, and are driven at a speed. -/
namespace Whereabouts

open Arith

variable {R : Type} [Arith R]

/-- A simulated source whose reckoning checks its settings again. -/
def Simulator.newChecked (name : String) (d : Demo R) : Except ConfigFault (Simulator R) := do
  let s ← Simulator.new name d
  s.settings.validate
  return s

lemma Simulator.settings_of_new {name : String} {d : Demo R} {s : Simulator R}
    (h : Simulator.new name d = .ok s) : s.settings = d.reckoning ∧ d.validate = .ok () := by
  unfold Simulator.new at h
  cases hvalid : d.validate with
  | error e => rw [hvalid] at h; cases h
  | ok _ => rw [hvalid] at h; cases h; exact ⟨rfl, rfl⟩

lemma Simulator.exists_new (name : String) {d : Demo R} (h : d.validate = .ok ()) :
    ∃ s, Simulator.new name d = .ok s := by
  unfold Simulator.new
  rw [h]
  exact ⟨_, rfl⟩

lemma Simulator.newChecked_eq (name : String) (d : Demo R) :
    Simulator.newChecked name d = Simulator.new name d := by
  unfold Simulator.newChecked
  cases hs : Simulator.new name d with
  | error e => rfl
  | ok s =>
    obtain ⟨hsettings, hvalid⟩ := settings_of_new hs
    have hreckoning : s.settings.validate = .ok () :=
      hsettings ▸ (d.validate_eq_ok_iff.mp hvalid).2.2
    change (s.settings.validate >>= fun _ => pure s) = .ok s
    rw [hreckoning]
    rfl

namespace Vehicle

/-- A vehicle whose parts each check their settings again when they are made: its fusion, its
simulated source, and the reckoning of that source. -/
def newChecked (c : VehicleConfig R) : Except (VehicleFault R) (Vehicle R) := do
  c.validate.mapError .config
  c.fusion.validate.mapError .config
  match c.demo with
  | none => .ok (bare c)
  | some d =>
    let s ← (Simulator.newChecked (c.name ++ "/demo") d).mapError .config
    ((bare c).addSource (.simulator s)).map (·.2)

/-- The checks that are made again decide nothing. -/
theorem newChecked_eq (c : VehicleConfig R) : newChecked c = new c := by
  unfold newChecked new
  cases hvalid : c.validate with
  | error e => rfl
  | ok _ =>
    -- What the parts check again, the first check has checked.
    have hfusion := (c.validate_eq_ok_iff.mp hvalid).2.2.1
    rw [hfusion]
    simp only [Simulator.newChecked_eq]
    rfl

lemma addSource_bare (c : VehicleConfig R) (s : Source R) :
    ∃ v, ((bare c).addSource s).map (·.2) = .ok v ∧ v.sources = [(0, s)] :=
  ⟨_, rfl, rfl⟩

/-- A configuration that passes its checks makes a vehicle, and the settings that its simulated
source drives with pass theirs. -/
lemma exists_new {c : VehicleConfig R} (h : c.validate = .ok ()) :
    ∃ v, new c = .ok v ∧
      ∀ slot s, (slot, Source.simulator s) ∈ v.sources → s.settings.validate = .ok () := by
  have hdemo := (c.validate_eq_ok_iff.mp h).2.2.2.2
  unfold new
  rw [h]
  cases hd : c.demo with
  | none => exact ⟨_, rfl, nofun⟩
  | some d =>
    have hvalid : d.validate = .ok () := hdemo d hd
    obtain ⟨s, hs⟩ := Simulator.exists_new (c.name ++ "/demo") hvalid
    obtain ⟨v, hv, hsources⟩ := addSource_bare c (.simulator s)
    refine ⟨v, ?_, fun slot t ht => ?_⟩
    · simp only [hs]
      exact hv
    · rw [hsources, List.mem_singleton] at ht
      cases ht
      rw [(Simulator.settings_of_new hs).1]
      exact (d.validate_eq_ok_iff.mp hvalid).2.2

/-- A configuration that passes its checks also passes all that are made again while a vehicle is
built from it, so there is such a vehicle. Under settings that pass their checks, on every item and
with every table of speeds, there is just one speed to travel at; it is finite and above zero. -/
theorem travels_at_usable_speed :
    (∀ c : VehicleConfig R, c.validate = .ok () →
      c.fusion.validate = .ok () ∧
      (∀ d ∈ c.demo, d.validate = .ok () ∧ d.reckoning.validate = .ok ()) ∧
      ∃ v, newChecked c = .ok v ∧ new c = .ok v ∧
        ∀ slot s, (slot, Source.simulator s) ∈ v.sources → s.settings.validate = .ok ()) ∧
    ∀ s : Reckoning.Settings R, s.validate = .ok () →
      ∀ (table : Option (SpeedTable R)) (i : Route.Item R),
        isFinite (s.speedOn table i) = true ∧ (0.0 : R) < s.speedOn table i ∧
          ∀ v, s.Travels table i v ↔ v = s.speedOn table i := by
  refine ⟨fun c hc => ?_, fun s hs table i => ?_⟩
  · obtain ⟨-, -, hfusion, -, hdemo⟩ := c.validate_eq_ok_iff.mp hc
    obtain ⟨v, hv, hsources⟩ := exists_new hc
    refine ⟨hfusion, fun d hd => ?_, v, (newChecked_eq c).trans hv, hv, hsources⟩
    exact ⟨hdemo d hd, (d.validate_eq_ok_iff.mp (hdemo d hd)).2.2⟩
  · exact ⟨isFinite_of_isPositive (s.isPositive_speedOn hs table i), s.lt_speedOn hs table i,
      fun v => Reckoning.Settings.travels_iff⟩

/-- Neither a speed below zero nor a limit that is not a number is driven. -/
theorem travels_at_usable_speed_nan :
    let d : Demo Float := ⟨0.0, 3.0, some ⟨48.0, 11.0⟩⟩
    let c : VehicleConfig Float := { VehicleConfig.default with demo := some d }
    let table : SpeedTable Float := fun _ => some ⟨-30.0, .enforce⟩
    let road : Route.Item Float := ⟨.street, some .street0, some Binary64.nan, []⟩
    c.validate = .ok () ∧ (∃ v, newChecked c = .ok v ∧ new c = .ok v) ∧
      d.reckoning.validate = .ok () ∧ d.reckoning.Travels (some table) road 5.0 := by
  intro d c table road
  have hc : c.validate = .ok () := by decide +kernel
  obtain ⟨hconfig, hspeed⟩ := travels_at_usable_speed (R := Float)
  obtain ⟨-, hdemo, v, hchecked, hv, -⟩ := hconfig c hc
  have hsettings := (hdemo d rfl).2
  have hoffroad : 5.0 = d.reckoning.speedOn (some table) road := by decide +kernel
  exact ⟨hc, ⟨v, hchecked, hv⟩, hsettings, ((hspeed _ hsettings _ _).2.2 _).mpr hoffroad⟩

end Vehicle
end Whereabouts
