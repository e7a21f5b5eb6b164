import Mathlib.Data.List.Basic
import Mathlib.Tactic.Common
import Whereabouts.Reckoning.Settings

/-! The speed to travel at: where it comes from, and that it can be driven. -/
namespace Whereabouts

open Arith

variable {R : Type} [Arith R]

/-- The speed is named and can be driven. -/
def Usable (named : Option R) (x : R) : Prop := named = some x ∧ isPositive x = true

lemma usable_eq_some_iff {named : Option R} {x : R} : usable named = some x ↔ Usable named x := by
  rw [usable, Option.filter_eq_some_iff, Usable]

lemma usable_eq_none_iff {named : Option R} : usable named = none ↔ ∀ x, ¬ Usable named x := by
  simp only [← usable_eq_some_iff, Option.eq_none_iff_forall_ne_some, ne_eq]

/-- What the speed of a profile and a posted limit give together. -/
inductive RoadSpeed.Gives (road : RoadSpeed R) (posted : Option R) : R → Prop
  | ignore (policy_eq : road.policy = .ignore) (own : isPositive road.speed = true) :
    Gives road posted road.speed
  | enforce {m : R} (policy_eq : road.policy = .enforce) (limit : Usable posted m) :
    Gives road posted m
  | limitLower {m : R} (policy_eq : road.policy = .preferLower)
    (own : isPositive road.speed = true) (limit : Usable posted m) (lower : m < road.speed) :
    Gives road posted m
  | ownLower {m : R} (policy_eq : road.policy = .preferLower)
    (own : isPositive road.speed = true) (limit : Usable posted m) (lower : ¬ m < road.speed) :
    Gives road posted road.speed
  | onlyOwn (own : isPositive road.speed = true) (limit : ∀ m, ¬ Usable posted m) :
    Gives road posted road.speed
  | onlyLimit {m : R} (own : ¬ isPositive road.speed = true) (limit : Usable posted m) :
    Gives road posted m

namespace RoadSpeed

variable {road : RoadSpeed R} {posted : Option R} {p m x : R}

lemma usable_speed (h : isPositive road.speed = true) :
    usable (some road.speed) = some road.speed :=
  usable_eq_some_iff.mpr ⟨rfl, h⟩

lemma usable_speed_eq_none (h : ¬ isPositive road.speed = true) :
    usable (some road.speed) = none :=
  Option.filter_eq_none_iff.mpr fun _ hx => Option.some.inj hx ▸ h

lemma resolve_of_own_none (h : usable (some road.speed) = none) :
    road.resolve posted = usable posted := by
  cases hpolicy : road.policy <;> cases hlimit : usable posted <;>
    simp [resolve, hpolicy, h, hlimit]

lemma resolve_of_limit_none (h : usable posted = none) :
    road.resolve posted = usable (some road.speed) := by
  cases hpolicy : road.policy <;> cases hown : usable (some road.speed) <;>
    simp [resolve, hpolicy, h, hown]

lemma resolve_of_both (hown : usable (some road.speed) = some p) (hlimit : usable posted = some m) :
    road.resolve posted = some
      (match road.policy with
      | .ignore => p
      | .enforce => m
      | .preferLower => lesser p m) := by
  cases hpolicy : road.policy <;> simp [resolve, hpolicy, hown, hlimit]

lemma gives_of_resolve (h : road.resolve posted = some x) : road.Gives posted x := by
  -- The policy only matters if both speeds can be driven.
  by_cases hown : isPositive road.speed = true
  · cases hlimit : usable posted with
    | none =>
      rw [resolve_of_limit_none hlimit, usable_speed hown] at h
      cases h
      exact .onlyOwn hown (usable_eq_none_iff.mp hlimit)
    | some m =>
      have hm := usable_eq_some_iff.mp hlimit
      rw [resolve_of_both (usable_speed hown) hlimit] at h
      cases h
      cases hpolicy : road.policy with
      | ignore => exact .ignore hpolicy hown
      | enforce => exact .enforce hpolicy hm
      | preferLower =>
        dsimp only [lesser]
        split_ifs with hlower
        · exact .limitLower hpolicy hown hm hlower
        · exact .ownLower hpolicy hown hm hlower
  · rw [resolve_of_own_none (usable_speed_eq_none hown), usable_eq_some_iff] at h
    exact .onlyLimit hown h

lemma resolve_of_gives (h : road.Gives posted x) : road.resolve posted = some x := by
  cases h with
  | ignore hpolicy hown =>
    cases hlimit : usable posted with
    | none => rw [resolve_of_limit_none hlimit, usable_speed hown]
    | some m => rw [resolve_of_both (usable_speed hown) hlimit, hpolicy]
  | enforce hpolicy hlimit =>
    rw [← usable_eq_some_iff] at hlimit
    cases hown : usable (some road.speed) with
    | none => rw [resolve_of_own_none hown, hlimit]
    | some p => rw [resolve_of_both hown hlimit, hpolicy]
  | limitLower hpolicy hown hlimit hlower =>
    rw [resolve_of_both (usable_speed hown) (usable_eq_some_iff.mpr hlimit), hpolicy]
    exact congrArg some (if_pos hlower)
  | ownLower hpolicy hown hlimit hlower =>
    rw [resolve_of_both (usable_speed hown) (usable_eq_some_iff.mpr hlimit), hpolicy]
    exact congrArg some (if_neg hlower)
  | onlyOwn hown hlimit =>
    rw [resolve_of_limit_none (usable_eq_none_iff.mpr hlimit), usable_speed hown]
  | onlyLimit hown hlimit =>
    rw [resolve_of_own_none (usable_speed_eq_none hown), usable_eq_some_iff.mpr hlimit]

theorem resolve_eq_some_iff : road.resolve posted = some x ↔ road.Gives posted x :=
  ⟨gives_of_resolve, resolve_of_gives⟩

lemma Gives.isPositive (h : road.Gives posted x) : isPositive x = true := by
  cases h with
  | ignore _ hown | ownLower _ hown _ _ | onlyOwn hown _ => exact hown
  | enforce _ hlimit | limitLower _ _ hlimit _ | onlyLimit _ hlimit => exact hlimit.2

end RoadSpeed

namespace Reckoning

/-- What a table says about the class of an item. -/
def roadSpeed? (table : Option (SpeedTable R)) (i : Route.Item R) : Option (RoadSpeed R) :=
  i.streetType.bind fun t => table.bind fun lookup => lookup t

namespace Settings

/-- No fixed speed is to be driven. -/
def Free (s : Settings R) : Prop := ∀ v, s.fixedSpeed = some v → ¬ (0.0 : R) < v

/-- Where the speed on an item comes from. -/
inductive Travels (s : Settings R) (table : Option (SpeedTable R)) (i : Route.Item R) : R → Prop
  | fixed {v : R} (fixed_eq : s.fixedSpeed = some v) (pos : (0.0 : R) < v) : Travels s table i v
  | road {road : RoadSpeed R} {v : R} (free : s.Free) (road_eq : roadSpeed? table i = some road)
    (gives : road.Gives i.maxSpeed v) : Travels s table i v
  | posted {v : R} (free : s.Free) (road_eq : roadSpeed? table i = none)
    (limit : Usable i.maxSpeed v) : Travels s table i v
  | roadOff {road : RoadSpeed R} (free : s.Free) (road_eq : roadSpeed? table i = some road)
    (gives : ∀ v, ¬ road.Gives i.maxSpeed v) : Travels s table i s.offroadSpeed
  | postedOff (free : s.Free) (road_eq : roadSpeed? table i = none)
    (limit : ∀ v, ¬ Usable i.maxSpeed v) : Travels s table i s.offroadSpeed

variable {s : Settings R} {table : Option (SpeedTable R)} {i : Route.Item R} {v : R}

lemma speedOn_of_fixed (h : s.fixedSpeed = some v) (hpos : (0.0 : R) < v) :
    s.speedOn table i = v := by
  have hsome : (s.fixedSpeed.filter fun v => decide ((0.0 : R) < v)) = some v :=
    Option.filter_eq_some_iff.mpr ⟨h, decide_eq_true hpos⟩
  rw [speedOn, hsome]

lemma speedOn_of_free (h : s.Free) :
    s.speedOn table i =
      ((match roadSpeed? table i with
        | some road => road.resolve i.maxSpeed
        | none => usable i.maxSpeed).getD s.offroadSpeed) := by
  have hnone : (s.fixedSpeed.filter fun v => decide ((0.0 : R) < v)) = none :=
    Option.filter_eq_none_iff.mpr fun v hv hpos => h v hv (of_decide_eq_true hpos)
  rw [speedOn, hnone]
  rfl

lemma travels_speedOn (s : Settings R) (table : Option (SpeedTable R)) (i : Route.Item R) :
    s.Travels table i (s.speedOn table i) := by
  by_cases hfree : s.Free
  · rw [speedOn_of_free hfree]
    cases hroad : roadSpeed? table i with
    | some road =>
      dsimp only
      cases hspeed : road.resolve i.maxSpeed with
      | some v => exact .road hfree hroad (RoadSpeed.resolve_eq_some_iff.mp hspeed)
      | none =>
        refine .roadOff hfree hroad fun v hv => ?_
        cases hspeed.symm.trans (RoadSpeed.resolve_eq_some_iff.mpr hv)
    | none =>
      dsimp only
      cases hspeed : usable i.maxSpeed with
      | some v => exact .posted hfree hroad (usable_eq_some_iff.mp hspeed)
      | none => exact .postedOff hfree hroad (usable_eq_none_iff.mp hspeed)
  · obtain ⟨v, hv, hpos⟩ : ∃ v, s.fixedSpeed = some v ∧ (0.0 : R) < v := by
      simpa [Free] using hfree
    rw [speedOn_of_fixed hv hpos]
    exact .fixed hv hpos

lemma Travels.eq_speedOn (h : s.Travels table i v) : v = s.speedOn table i := by
  cases h with
  | fixed hfixed hpos => exact (speedOn_of_fixed hfixed hpos).symm
  | road hfree hroad hgives =>
    rw [speedOn_of_free hfree, hroad]
    simp only [RoadSpeed.resolve_eq_some_iff.mpr hgives, Option.getD_some]
  | posted hfree hroad hlimit =>
    rw [speedOn_of_free hfree, hroad]
    simp only [usable_eq_some_iff.mpr hlimit, Option.getD_some]
  | @roadOff road hfree hroad hgives =>
    have hnone : road.resolve i.maxSpeed = none :=
      Option.eq_none_iff_forall_ne_some.mpr fun v hv =>
        hgives v (RoadSpeed.resolve_eq_some_iff.mp hv)
    rw [speedOn_of_free hfree, hroad]
    simp only [hnone, Option.getD_none]
  | postedOff hfree hroad hlimit =>
    rw [speedOn_of_free hfree, hroad]
    simp only [usable_eq_none_iff.mpr hlimit, Option.getD_none]

theorem travels_iff : s.Travels table i v ↔ v = s.speedOn table i :=
  ⟨Travels.eq_speedOn, fun h => h ▸ travels_speedOn s table i⟩

lemma Travels.isPositive (hs : s.validate = .ok ()) (h : s.Travels table i v) :
    isPositive v = true := by
  obtain ⟨hfixed, -, hoffroad⟩ := (validate_eq_ok_iff s).mp hs
  cases h with
  | fixed hv hpos =>
    rw [hv] at hfixed
    exact isPositive_of_lt (isFinite_of_isNonneg hfixed) hpos
  | road _ _ hgives => exact hgives.isPositive
  | posted _ _ hlimit => exact hlimit.2
  | roadOff | postedOff => exact hoffroad

/-- Under checked settings there is a speed everywhere that can be driven. -/
theorem isPositive_speedOn (hs : s.validate = .ok ()) (table : Option (SpeedTable R))
    (i : Route.Item R) : isPositive (s.speedOn table i) = true :=
  (travels_speedOn s table i).isPositive hs

lemma lt_speedOn (hs : s.validate = .ok ()) (table : Option (SpeedTable R)) (i : Route.Item R) :
    (0.0 : R) < s.speedOn table i :=
  lt_of_isPositive (isPositive_speedOn hs table i)

end Settings
end Reckoning
end Whereabouts
