import Whereabouts.Store
import Whereabouts.Fusion.Pass
import Whereabouts.Proofs.Binary64.Positive
import Whereabouts.Proofs.Location.Reading

/-! A store after any calls: its slots are numbered in the order of their registration, keep the
preference that they were registered with, and hold locations that sanitizing leaves as they are. -/
namespace Whereabouts

open Arith

namespace Location

variable {R : Type} [Arith R]

lemma floored_setPreference (l : Location R) (p : Preference) :
    ({ l with preference := p } : Location R).floored = { l.floored with preference := p } := by
  unfold floored
  change (if l.has .accuracy && decide (l.accuracy < minRadius) then _ else _) = _
  split_ifs <;> rfl

lemma Storable.setPreference {l : Location R} (h : l.Storable) (p : Preference) :
    ({ l with preference := p } : Location R).Storable := by
  rw [storable_iff] at h ⊢
  refine ⟨h.1, h.2.1, (floored_setPreference l p).trans ?_⟩
  rw [h.2.2]

/-- What a stored location tells: numbers that are finite, and a position on the globe. -/
lemma Storable.sound {l : Location R} (h : l.Storable) :
    (∀ p, l.position? = some p → p.isValid = true) ∧
      (∀ r, l.accuracy? = some r → isNonneg r = true) ∧
      (∀ v, l.speed? = some v → isFinite v = true) ∧
      (∀ v, l.bearing? = some v → isFinite v = true) ∧
      ∀ v, l.altitude? = some v → isFinite v = true := by
  have hsound : l.reading.isSound = true := snd_sanitize_eq_none.mp (congrArg Prod.snd h)
  simp only [Reading.isSound, Bool.and_eq_true, Option.all_eq_true, and_assoc] at hsound
  exact hsound

/-- Whatever the accuracy is, the floor holds. -/
lemma one_le_weighingRadius (l : Location Float) : 1.0 ≤ l.weighingRadius := by
  unfold weighingRadius
  cases l.accuracy? with
  | none => decide
  | some r =>
    change (1.0 : Float) ≤ if (1.0 : Float) < r then r else 1.0
    split_ifs with hlt
    · exact Binary64.le_of_lt hlt
    · decide

lemma isFinite_weighingRadius {l : Location Float}
    (h : ∀ r, l.accuracy? = some r → isNonneg r = true) : l.weighingRadius.isFinite = true := by
  unfold weighingRadius
  cases hr : l.accuracy? with
  | none => decide
  | some r =>
    change (if (1.0 : Float) < r then r else 1.0).isFinite = true
    split_ifs
    · exact isFinite_of_isNonneg (h r hr)
    · decide

end Location

namespace Store

variable {R : Type} [Arith R]

inductive Call (R : Type) where
  | register (p : Preference)
  | update (slot : Nat) (l : Location R)
  | edit (slot : Nat) (f : Location R → Location R)

/-- The preference that a call asks to register. -/
def Call.registers? : Call R → Option Preference
  | .register p => some p
  | .update .. | .edit .. => none

/-- The store after a call, and the slot that it handed out with its preference. A call that fails
leaves the store as it is. -/
def call (s : Store R) : Call R → Store R × Option (Nat × Preference)
  | .register p =>
    match s.register p with
    | .ok (slot, s') => (s', some (slot, p))
    | .error _ => (s, none)
  | .update slot l => ((s.update slot l).toOption.getD s, none)
  | .edit slot f => ((s.edit slot f).toOption.getD s, none)

/-- The store after calls, and the slots that they handed out. -/
def run (s : Store R) : List (Call R) → Store R × List (Nat × Preference)
  | [] => (s, [])
  | c :: cs =>
    let after := s.call c
    let rest := after.1.run cs
    (rest.1, after.2.toList ++ rest.2)

/-- The slots are those of the preferences `registered`, and can be stored. -/
structure Holds (registered : List Preference) (s : Store R) : Prop where
  preferences : s.slots.map Location.preference = registered
  storable : ∀ l ∈ s.slots, l.Storable
  bounded : s.size ≤ capacity

lemma holds_empty : (empty : Store R).Holds [] :=
  ⟨rfl, nofun, Nat.zero_le _⟩

lemma Holds.size_eq {registered : List Preference} {s : Store R} (h : s.Holds registered) :
    s.size = registered.length := by
  rw [← h.preferences, List.length_map]
  rfl

lemma Holds.register {registered : List Preference} {s : Store R} (h : s.Holds registered)
    (hroom : s.size < capacity) (p : Preference) :
    (⟨s.slots ++ [Location.blank p]⟩ : Store R).Holds (registered ++ [p]) := by
  refine ⟨?_, ?_, ?_⟩
  · rw [List.map_append, h.preferences]
    rfl
  · simp only [List.forall_mem_append, List.forall_mem_singleton]
    exact ⟨h.storable, Location.storable_blank p⟩
  · change (s.slots ++ [_]).length ≤ capacity
    rw [List.length_append]
    exact hroom

section

variable (hmin : isNonneg (Location.minRadius : R) = true)
  (hraise : ¬ (Location.minRadius : R) < Location.minRadius)

include hmin hraise

lemma Holds.edit {registered : List Preference} {s s' : Store R} (h : s.Holds registered)
    {slot : Nat} {f : Location R → Location R} (hs' : s.edit slot f = .ok s') :
    s'.Holds registered := by
  unfold Store.edit at hs'
  split at hs'
  · cases hs'
  case h_2 current hcurrent =>
    obtain ⟨hslot, hget⟩ := List.getElem?_eq_some_iff.mp hcurrent
    split at hs'
    · cases hs'
    case h_2 l hl =>
      obtain rfl := Except.ok.inj hs'
      refine ⟨?_, ?_, by simpa [size] using h.bounded⟩
      · -- the slot keeps its preference
        have hmap : slot < (s.slots.map Location.preference).length := by simpa using hslot
        rw [← h.preferences, List.map_set]
        conv_rhs => rw [← List.set_getElem_self hmap]
        simp [← hget]
      · intro m hm
        rcases List.mem_or_eq_of_mem_set hm with hm | rfl
        · exact h.storable m hm
        · have hstored := Location.storable_sanitize hmin hraise (congrArg Prod.snd hl)
          rw [hl] at hstored
          exact hstored.setPreference _

/-- One call: what it hands out is the next slot, while there is room, and only for a
registration. -/
lemma Holds.call {registered : List Preference} {s : Store R} (h : s.Holds registered)
    (c : Call R) :
    let handed := if registered.length < capacity then
      c.registers?.map (registered.length, ·) else none
    (s.call c).2 = handed ∧ (s.call c).1.Holds (registered ++ (handed.map Prod.snd).toList) := by
  have hedit (slot : Nat) (f : Location R → Location R) :
      ((s.edit slot f).toOption.getD s).Holds registered := by
    cases hs : s.edit slot f with
    | error e => exact h
    | ok s' => exact h.edit hmin hraise hs
  cases c with
  | register p =>
    simp only [Call.registers?, Option.map_some, Store.call, Store.register, h.size_eq]
    split_ifs with hroom
    · exact ⟨rfl, h.register (h.size_eq ▸ hroom) p⟩
    · exact ⟨rfl, by simpa using h⟩
  | update slot l => simpa [Call.registers?, Store.call, update] using hedit slot _
  | edit slot f => simpa [Call.registers?, Store.call] using hedit slot f

lemma Holds.run {registered : List Preference} {s : Store R} (h : s.Holds registered)
    (cs : List (Call R)) :
    (s.run cs).1.Holds (registered ++ (s.run cs).2.map Prod.snd) ∧
      (s.run cs).2.map Prod.fst = List.range' registered.length (s.run cs).2.length ∧
      registered ++ (s.run cs).2.map Prod.snd =
        (registered ++ cs.filterMap Call.registers?).take capacity := by
  induction cs generalizing s registered with
  | nil =>
    refine ⟨by simpa [Store.run] using h, rfl, ?_⟩
    have hle : registered.length ≤ capacity := h.size_eq ▸ h.bounded
    simpa [Store.run] using (List.take_of_length_le hle).symm
  | cons c cs ih =>
    obtain ⟨hhanded, hcall⟩ := h.call hmin hraise c
    obtain ⟨hholds, hslots, htake⟩ := ih hcall
    simp only [Store.run, hhanded]
    cases hc : c.registers? with
    | none =>
      simp only [hc, Option.map_none, ite_self, Option.toList_none, List.append_nil,
        List.nil_append, List.filterMap_cons_none hc] at hholds hslots htake ⊢
      exact ⟨hholds, hslots, htake⟩
    | some p =>
      rw [List.filterMap_cons_some hc]
      by_cases hroom : registered.length < capacity
      · simp only [hc, hroom, if_true, Option.map_some, Option.toList_some, List.map_cons,
          List.singleton_append, List.append_assoc, List.length_cons, List.length_append,
          List.length_nil, List.range'_succ] at hholds hslots htake ⊢
        exact ⟨hholds, congrArg _ hslots, htake⟩
      · -- a full store stays as it is
        have hfull : registered.length = capacity :=
          Nat.le_antisymm (h.size_eq ▸ h.bounded) (Nat.le_of_not_lt hroom)
        simp only [hc, hroom, if_false, Option.map_none, Option.toList_none, List.append_nil,
          List.nil_append] at hholds hslots htake ⊢
        refine ⟨hholds, hslots, ?_⟩
        rw [htake, List.take_left' hfull, List.take_left' hfull]

end

/-- A location whose numbers are all in range, and which cannot be weighed with a radius that is
infinite or below one. -/
structure Sound (l : Location Float) : Prop where
  sanitize_eq : l.sanitize = (l, none)
  position : ∀ p, l.position? = some p → p.lat.isFinite = true ∧ p.lng.isFinite = true ∧
    (-90.0 ≤ p.lat ∧ p.lat ≤ 90.0) ∧ (-180.0 ≤ p.lng ∧ p.lng ≤ 180.0)
  speed : ∀ v, l.speed? = some v → v.isFinite = true
  bearing : ∀ v, l.bearing? = some v → v.isFinite = true
  altitude : ∀ v, l.altitude? = some v → v.isFinite = true
  radius_finite : l.weighingRadius.isFinite = true
  one_le_radius : 1.0 ≤ l.weighingRadius

lemma sound_of_storable {l : Location Float} (h : l.Storable) : Sound l := by
  obtain ⟨hposition, haccuracy, hspeed, hbearing, haltitude⟩ := h.sound
  refine ⟨h, fun p hp => ?_, hspeed, hbearing, haltitude,
    Location.isFinite_weighingRadius haccuracy, l.one_le_weighingRadius⟩
  have hvalid := hposition p hp
  simp only [Geo.Point.isValid, Bool.and_eq_true, decide_eq_true_eq, and_assoc] at hvalid ⊢
  exact hvalid

/-- After any calls on a new store, the slots that were handed out are numbered from zero and are
the slots of the store, at most sixteen. Each has the preference that it was registered with, and
these are the first sixteen that were asked for. Each holds a sound location, so the engine weighs
what it takes from a store with inverses and squares of radii that are above zero. -/
theorem run_keeps_slots_sound (cs : List (Call Float)) :
    let slots := ((empty : Store Float).run cs).1.slots
    let handed := ((empty : Store Float).run cs).2
    handed.map Prod.fst = List.range slots.length ∧ slots.length ≤ 16 ∧
      handed.map Prod.snd = slots.map Location.preference ∧
      handed.map Prod.snd = (cs.filterMap Call.registers?).take 16 ∧
      (∀ l ∈ slots, Sound l) ∧
      ∀ g : Fusion.Group,
        (∀ get? : Location Float → Option Float,
          ∀ x ∈ Fusion.samples get? ((Fusion.Winners.among slots).contributors g slots),
            0.0 < x.weight) ∧
        ∀ x ∈ ((Fusion.Winners.among slots).contributors g slots).filterMap Fusion.sighting?,
          0.0 < x.radius * x.radius := by
  intro slots handed
  obtain ⟨hholds, hslots, htake⟩ := (holds_empty (R := Float)).run (by decide) (by decide) cs
  have hpreferences : slots.map Location.preference = handed.map Prod.snd := hholds.preferences
  have hsound : ∀ l ∈ slots, Sound l := fun l hl => sound_of_storable (hholds.storable l hl)
  have hlength : handed.length = slots.length := by
    simpa using congrArg List.length hpreferences.symm
  refine ⟨?_, hholds.bounded, hpreferences.symm, htake, hsound, fun g => ⟨?_, ?_⟩⟩
  · rw [← hlength, List.range_eq_range']
    exact hslots
  · intro get? x hx
    obtain ⟨l, hl, hx⟩ := List.mem_filterMap.mp hx
    obtain ⟨v, -, rfl⟩ := Option.map_eq_some_iff.mp hx
    have h := hsound l (List.mem_filter.mp hl).1
    exact Binary64.inverse_pos h.radius_finite h.one_le_radius
  · intro x hx
    obtain ⟨l, hl, hx⟩ := List.mem_filterMap.mp hx
    obtain ⟨p, -, rfl⟩ := Option.map_eq_some_iff.mp hx
    have h := hsound l (List.mem_filter.mp hl).1
    exact Binary64.square_pos h.radius_finite h.one_le_radius

end Store
end Whereabouts
