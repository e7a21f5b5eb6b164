import Whereabouts.Proofs.Provider.Report

/-! The current location of a provider can be stored as it is. -/
namespace Whereabouts.Provider

open Arith

variable {R : Type} [Arith R]

/-- A location that a slot of the preference of the kind keeps as it is. -/
structure Steady (kind : ProviderKind) (l : Location R) : Prop where
  storable : l.Storable
  preference_eq : l.preference = kind.preference

lemma steady_blank (kind : ProviderKind) :
    Steady kind (Location.blank kind.preference : Location R) :=
  ⟨Location.storable_blank _, rfl⟩

lemma preference_sanitize (l : Location R) : l.sanitize.1.preference = l.preference := by
  unfold Location.sanitize Location.floored
  cases l.placeFault? with
  | some e => rfl
  | none => simp only; split_ifs <;> rfl

namespace Steady

variable {kind : ProviderKind} (hmin : isNonneg (Location.minRadius : R) = true)
  (hraise : ¬ (Location.minRadius : R) < Location.minRadius)

include hmin hraise

/-- No message makes the location one that cannot be stored. -/
lemma take {l : Location R} (h : Steady kind l) (m : Intake R) : Steady kind (take kind l m) := by
  obtain ⟨now, m⟩ := m
  cases m with
  | fix f =>
    cases hf : f.isSound with
    | true =>
      have hfault := (snd_sanitize_located kind l now f).mpr hf
      have hpreference : (located kind l now f).preference = kind.preference :=
        congrArg Location.Reading.preference (reading_located kind l now f)
      rw [take_sound kind now l hf]
      exact ⟨Location.storable_sanitize hmin hraise hfault,
        (preference_sanitize _).trans hpreference⟩
    | false =>
      rw [take_unsound kind now l hf]
      exact h
  | satellites inView used =>
    simp only [Provider.take, after?]
    split_ifs
    · exact h
    · exact ⟨h.storable.setSatellites inView used, h.preference_eq⟩
  | lost =>
    simp only [Provider.take, after?]
    split_ifs
    · exact h
    · exact ⟨h.storable.setFix .invalid 0, h.preference_eq⟩

lemma poll {p : Provider R} (h : Steady p.kind p.current) (now : Timestamp) :
    Steady p.kind (p.poll now).2.current := by
  rw [snd_poll]
  exact List.foldlRecOn _ _ h fun l hl m _ => hl.take hmin hraise m

end Steady

end Whereabouts.Provider
