import Whereabouts.Proofs.Hidden
import Whereabouts.Proofs.Reckoning.Rounded
import Whereabouts.Proofs.Source.Simulator

/-! Positions that are set by hand. Nobody checks them before the store does, and by then the
simulated source has taken them over. -/
namespace Whereabouts

variable {R : Type}

section

variable [Arith R]

/-- A store takes a location without a fault for each of its slots, and no other. -/
lemma Store.exists_update_iff {s : Store R} {slot : Nat} {l : Location R} :
    (∃ t, s.update slot l = .ok t) ↔ slot < s.size ∧ l.sanitize.2 = none := by
  have hsize : slot < s.size ↔ (s.get? slot).isSome = true := by simp [size, get?]
  rw [update_eq, hsize]
  cases s.get? slot with
  | none => simp
  | some current => cases l.sanitize.2 <;> simp

/-- A location with an invalid position has a fault. -/
lemma Location.sanitize_ne_none {l : Location R} {p : Geo.Point R} (hl : l.position? = some p)
    (hp : p.isValid = false) : l.sanitize.2 ≠ none := by
  rw [Ne, snd_sanitize_eq_none]
  simp [Reading.isSound, reading, hl, hp]

end

namespace Simulator

open Reckoning (Confined stamp reading_stamp)

/-- The point that is set by hand. -/
def Event.point? : Event R → Option (Geo.Point R)
  | .poll .. => none
  | .place p _ => some p

/-- The points that are set by hand, in order. -/
def placements (es : List (Event R)) : List (Geo.Point R) := es.filterMap Event.point?

lemma position?_setPosition (s : Simulator R) (p : Geo.Point R) (now : Timestamp) :
    (s.setPosition p now).current.position? = some p :=
  (position?_stamp s.settings now _).trans (s.current.position?_setPosition p)

variable [Arith R]

/-- A route that is polled with is one on the globe. -/
def Event.OnGlobe : Event R → Prop
  | .poll route _ _ => ∀ r, route = some r → r.OnGlobe
  | .place .. => True

section

variable (s : Simulator R) (route : Option (Route R)) (table : Option (SpeedTable R))
  (now : Timestamp)

/-- A poll tells a position that was set, tells nothing and keeps all but the time, or drives. -/
lemma poll_cases :
    (∃ l, (l = s.current ∨ l = s.fixed now) ∧
      s.poll route table now = (some l, { s with current := l, placed := false })) ∨
    (∃ ready time, s.poll route table now =
      (none, { s with routeReady := ready, current := { s.current with fixTime := time } })) ∨
    ∃ outcome l, Reckoning.advance s.settings route table now s.current = .ok (outcome, l) ∧
      s.poll route table now = (some l, { s with current := l }) := by
  rcases Bool.eq_false_or_eq_true s.placed with hplaced | hplaced
  · left
    by_cases hnever : s.current.fixTime = Timestamp.never
    · exact ⟨s.fixed now, .inr rfl, by simp [poll, hplaced, hnever]⟩
    · exact ⟨s.current, .inl rfl, by simp [poll, hplaced, hnever]⟩
  · right
    cases route with
    | none => exact .inl ⟨false, s.current.fixTime, poll_none table now hplaced⟩
    | some r =>
      rcases Bool.eq_false_or_eq_true s.routeReady with hready | hready
      · rcases poll_of_routeReady table now hplaced hready r with h | h
        · exact .inr h
        · exact .inl ⟨s.routeReady, s.current.fixTime, h⟩
      · exact .inl ⟨true, now, poll_of_not_routeReady table now hplaced hready r⟩

/-- What a poll tells is where the source is then. -/
lemma eq_of_told {l : Location R} (h : (s.poll route table now).1 = some l) :
    l = (s.poll route table now).2.current := by
  rcases s.poll_cases route table now with ⟨l', -, hl⟩ | ⟨_, _, hl⟩ | ⟨_, l', -, hl⟩
  · rw [hl] at h ⊢
    exact (Option.some.inj h).symm
  · rw [hl] at h
    cases h
  · rw [hl] at h ⊢
    exact (Option.some.inj h).symm

lemma told_setPosition (p : Geo.Point R) (placedAt : Timestamp) :
    ∃ l, ((s.setPosition p placedAt).poll route table now).1 = some l ∧ l.position? = some p := by
  have hplaced : (s.setPosition p placedAt).placed = true := rfl
  obtain ⟨l, hl⟩ : ∃ l, ((s.setPosition p placedAt).poll route table now).1 = some l :=
    ⟨_, by simp [poll, hplaced]; rfl⟩
  refine ⟨l, hl, ?_⟩
  rw [eq_of_told _ _ _ _ hl, position?_poll_of_placed hplaced, s.position?_setPosition]

end

/-- A position that is set by hand is told as it is, and if it is invalid, no store takes it. -/
theorem invalid_placement_is_told (s : Simulator R) {p : Geo.Point R} (hp : p.isValid = false)
    (now now' : Timestamp) (route : Option (Route R)) (table : Option (SpeedTable R)) :
    let t := s.setPosition p now
    t.current.position? = some p ∧
      ∃ l, (t.poll route table now').1 = some l ∧ l.position? = some p ∧
        ∀ (store : Store R) (slot : Nat), ¬ ∃ store', store.update slot l = .ok store' := by
  intro t
  obtain ⟨l, hl, hposition⟩ := s.told_setPosition route table now' p now
  refine ⟨s.position?_setPosition p now, l, hl, hposition, fun store slot => ?_⟩
  rw [Store.exists_update_iff]
  exact fun h => l.sanitize_ne_none hposition hp h.2

/-- A demo that waits at the start of its route is set to a latitude that is not a number. -/
theorem invalid_placement_is_told_nan :
    let r : Route Float := ⟨[⟨.street, none, none, [⟨0.0, 0.0⟩, ⟨0.0, 0.1⟩]⟩]⟩
    let p : Geo.Point Float := ⟨Binary64.nan, 0.0⟩
    ∃ s₀ : Simulator Float, Simulator.new "demo" ⟨36.0, 3.0, some ⟨0.0, 0.0⟩⟩ = .ok s₀ ∧
      r.OnGlobe ∧
      let s := s₀.run [.poll none none 1000, .poll (some r) none 2000, .place p 3000]
      p.isValid = false ∧ s.current.position? = some p ∧
        ∃ l, (s.poll (some r) none 4000).1 = some l ∧
          ∀ (store : Store Float) (slot : Nat), ¬ ∃ store', store.update slot l = .ok store' := by
  intro r p
  have hr : r.OnGlobe := by decide +kernel
  have hp : p.isValid = false := by decide +kernel
  refine ⟨_, rfl, hr, ?_⟩
  intro s
  obtain ⟨hposition, l, hl, -, hrefused⟩ := invalid_placement_is_told
    (run _ [.poll none none 1000, .poll (some r) none 2000]) hp 3000 4000 (some r) none
  exact ⟨hp, hposition, l, hl, hrefused⟩

/-- The settings have been checked, all that the source tells but its position can be stored, and
the position is near the globe unless it was set by hand last. -/
structure Sane (Near : Geo.Point R → Prop) (s : Simulator R) (placed : List (Geo.Point R)) :
    Prop where
  settings : s.settings.validate = .ok ()
  sound : s.current.reading.SoundElsewhere
  position : ∀ p, s.current.position? = some p → Near p ∨ placed.getLast? = some p

section

variable {Near : Geo.Point R → Prop} {Left : R → Prop} (h : Confined Near Left) {s : Simulator R}
  {placed : List (Geo.Point R)}

include h

lemma soundElsewhere_stamp {l : Location R} (hl : l.reading.SoundElsewhere)
    (hs : s.settings.validate = .ok ()) (now : Timestamp) :
    (stamp s.settings now l).reading.SoundElsewhere := by
  rw [reading_stamp]
  have hradius := h.isNonneg_of_isPositive _ (s.settings.validate_eq_ok_iff.mp hs).2.1
  exact ⟨hradius, hl.speed, hl.bearing, hl.altitude⟩

lemma Sane.poll (hs : s.Sane Near placed) {route : Option (Route R)}
    (hroute : ∀ r, route = some r → r.OnGlobe) (table : Option (SpeedTable R)) (now : Timestamp) :
    (s.poll route table now).2.Sane Near placed := by
  rcases s.poll_cases route table now with
    ⟨l, rfl | rfl, hl⟩ | ⟨ready, time, hl⟩ | ⟨outcome, l, hadvance, hl⟩ <;> rw [hl]
  · exact ⟨hs.settings, hs.sound, hs.position⟩
  · refine ⟨hs.settings, soundElsewhere_stamp h hs.sound hs.settings now, fun p hp => ?_⟩
    exact hs.position p ((position?_stamp s.settings now s.current).symm.trans hp)
  · exact ⟨hs.settings, ⟨hs.sound.accuracy, hs.sound.speed, hs.sound.bearing, hs.sound.altitude⟩,
      hs.position⟩
  · cases route with
    | none =>
      unfold Reckoning.advance Reckoning.advanceBy at hadvance
      split_ifs at hadvance
    | some r =>
      rcases h.advance (hroute r rfl) hs.settings hadvance with rfl | ⟨hnear, hsound⟩
      · exact ⟨hs.settings, hs.sound, hs.position⟩
      · exact ⟨hs.settings, hsound hs.sound, fun p hp => .inl (hnear p hp)⟩

lemma Sane.place (hs : s.Sane Near placed) (p : Geo.Point R) (now : Timestamp) :
    (s.setPosition p now).Sane Near (placed ++ [p]) := by
  have hsound : (s.current.setPosition p).reading.SoundElsewhere := by
    rw [Location.reading_setPosition]
    exact ⟨hs.sound.accuracy, hs.sound.speed, hs.sound.bearing, hs.sound.altitude⟩
  refine ⟨hs.settings, soundElsewhere_stamp h hsound hs.settings now, fun q hq => .inr ?_⟩
  rw [List.getLast?_concat, ← s.position?_setPosition p now, hq]

lemma Sane.run (hs : s.Sane Near placed) {es : List (Event R)} (hes : ∀ e ∈ es, e.OnGlobe) :
    (s.run es).Sane Near (placed ++ placements es) := by
  induction es generalizing s placed with
  | nil => exact (List.append_nil placed).symm ▸ hs
  | cons e es ih =>
    obtain ⟨he, hrest⟩ := List.forall_mem_cons.mp hes
    cases e with
    | poll route table now => exact ih (hs.poll h he table now) hrest
    | place p now => simpa [placements, Event.point?] using! ih (hs.place h p now) hrest

lemma sane_new {name : String} {d : Demo R} (hs : Simulator.new name d = .ok s) :
    s.Sane Near [] := by
  cases hvalid : d.validate with
  | error e =>
    rw [Simulator.new, hvalid] at hs
    cases hs
  | ok _ =>
    obtain ⟨-, hstart, hsettings⟩ := d.validate_eq_ok_iff.mp hvalid
    rw [Simulator.new, hvalid] at hs
    obtain rfl := Except.ok.inj hs
    have hblank := Location.reading_blank (R := R) preference
    cases hd : d.start with
    | none =>
      refine ⟨hsettings, hblank ▸ ⟨rfl, rfl, rfl, rfl⟩, fun p hp => ?_⟩
      cases hp.symm.trans (congrArg Location.Reading.position hblank)
    | some p =>
      have hreading := (Location.blank preference : Location R).reading_setPosition p
      rw [hblank] at hreading
      refine ⟨hsettings, hreading ▸ ⟨rfl, rfl, rfl, rfl⟩, fun q hq => .inl (h.of_isValid q ?_)⟩
      obtain rfl := Option.some.inj (hq.symm.trans (congrArg Location.Reading.position hreading))
      simpa [hd] using hstart

/-- A store takes what a poll tells exactly if its position is valid. -/
lemma Sane.exists_update_iff (hs : s.Sane Near placed) {route : Option (Route R)}
    (hroute : ∀ r, route = some r → r.OnGlobe) {table : Option (SpeedTable R)} {now : Timestamp}
    {l : Location R} (hl : (s.poll route table now).1 = some l) {store : Store R} {slot : Nat} :
    (∃ store', store.update slot l = .ok store') ↔
      slot < store.size ∧ ∀ p, l.position? = some p → p.isValid = true := by
  have hsound := (hs.poll h hroute table now).sound
  rw [← eq_of_told _ _ _ _ hl] at hsound
  rw [Store.exists_update_iff, Location.sanitize_eq_none_of_soundElsewhere hsound]

/-- A position that is set by hand is told as it is, and a store takes it exactly if it is valid. -/
lemma Sane.told_of_setPosition (hs : s.Sane Near placed) (p : Geo.Point R)
    (placedAt : Timestamp) (route : Option (Route R)) (table : Option (SpeedTable R))
    (now : Timestamp) :
    ∃ l, ((s.setPosition p placedAt).poll route table now).1 = some l ∧ l.position? = some p ∧
      ∀ (store : Store R) (slot : Nat),
        (∃ store', store.update slot l = .ok store') ↔ slot < store.size ∧ p.isValid = true := by
  obtain ⟨l, hl, hposition⟩ := s.told_setPosition route table now p placedAt
  refine ⟨l, hl, hposition, fun store slot => ?_⟩
  -- A poll that tells a position that was set does not look at the route.
  have hnone : ((s.setPosition p placedAt).poll none table now).1 = some l := by
    have hplaced : (s.setPosition p placedAt).placed = true := rfl
    rw [← hl]
    simp [Simulator.poll, hplaced]
  rw [(hs.place h p placedAt).exists_update_iff h (by simp) hnone]
  simp [hposition]

end

end Simulator

namespace Binary64

/-- The closest number of the unit interval on both sides of zero. -/
def toUnit (x : Float) : Float := if x < -1.0 then -1.0 else if 1.0 < x then 1.0 else x

lemma toUnit_mem {x : Float} (hx : x.isNaN = false) : -1.0 ≤ toUnit x ∧ toUnit x ≤ 1.0 := by
  unfold toUnit
  split_ifs with hlow hhigh
  · exact ⟨by decide, by decide⟩
  · exact ⟨by decide, by decide⟩
  · exact ⟨le_of_not_lt hx (by decide) hlow, le_of_not_lt (by decide) hx hhigh⟩

/-- Functions that have their values for what is measured on a meridian close to the north pole. -/
def Elementary.nearPole : Elementary where
  sin x := if x.isFinite then toUnit x else nan
  cos x :=
    if x.isFinite then
      if x < 0.0 then 0.605963548269863
      else if x < 1.0 then 1.0
      else if x < 1.5707963267948968 then 6.123233995736766e-17
      else -1.6081226496766364e-16
    else nan
  atan2 y x := if y.isNaN || x.isNaN then nan else if x < 0.0 then Arith.pi else toUnit y

lemma Elementary.strict_nearPole : nearPole.Strict where
  sin_mem x hx := by
    simp only [nearPole, hx, if_true]
    exact toUnit_mem (not_isNaN_of_isFinite hx)
  cos_mem x hx := by
    simp only [nearPole, hx, if_true]
    split_ifs <;> exact ⟨by decide, by decide⟩
  sin_of_infinite x hx := by
    simp only [nearPole, hx, Bool.false_eq_true, if_false]
    rfl
  cos_of_infinite x hx := by
    simp only [nearPole, hx, Bool.false_eq_true, if_false]
    rfl
  atan2_mem y x hy hx := by
    simp only [nearPole, hx, hy, Bool.or_self, Bool.false_eq_true, if_false]
    split_ifs
    · exact ⟨by decide, by decide⟩
    · obtain ⟨hlow, hhigh⟩ := toUnit_mem hy
      exact ⟨le_of_le_of_le (by decide) hlow, le_of_le_of_le hhigh (by decide)⟩
  atan2_of_nan y x h := by
    have hnan : (y.isNaN || x.isNaN) = true := Bool.or_eq_true_iff.mpr h
    simp only [nearPole, hnan, if_true]
    rfl

end Binary64

namespace Simulator

open Binary64 (Elementary)

/-- Only a position that was set by hand last leaves the globe, up to the roundings of the position
and of its projection. It is told as it was set, and of all that is told a store refuses exactly the
positions that are not valid. -/
theorem invalid_by_hand_or_rounding (m : Elementary) (hm : m.Strict) {name : String}
    {d : Demo Float} {s₀ : Simulator Float} :
    let _ := m.arith
    Simulator.new name d = .ok s₀ → ∀ es : List (Event Float), (∀ e ∈ es, e.OnGlobe) →
      let s := s₀.run es
      (∀ p, s.current.position? = some p →
        p.NearGlobe (2 ^ (-40 : ℤ)) ∨ (placements es).getLast? = some p) ∧
      (∀ p placedAt, let t := s.setPosition p placedAt
        t.current.position? = some p ∧ ∀ route table now,
          ∃ l, (t.poll route table now).1 = some l ∧ l.position? = some p ∧
            ∀ (store : Store Float) (slot : Nat), (∃ store', store.update slot l = .ok store') ↔
              slot < store.size ∧ p.isValid = true) ∧
      ∀ route table now l, (∀ r, route = some r → r.OnGlobe) →
        (s.poll route table now).1 = some l → ∀ (store : Store Float) (slot : Nat),
          (∃ store', store.update slot l = .ok store') ↔
            slot < store.size ∧ ∀ p, l.position? = some p → p.isValid = true := by
  intro arith hs₀ es hes s
  have hconfined := Reckoning.confined_nearGlobe hm
  have hsane := (sane_new hconfined hs₀).run hconfined hes
  refine ⟨hsane.position, fun p placedAt => ⟨s.position?_setPosition p placedAt, ?_⟩, ?_⟩
  · exact hsane.told_of_setPosition hconfined p placedAt
  · exact fun route table now l hroute hl store slot =>
      hsane.exists_update_iff hconfined hroute hl

/-- Nothing is set by hand, and the foot of the pole on a meridian through it is rounded to a
latitude beyond it. It is told, and refused. -/
theorem invalid_by_hand_or_rounding_near_pole :
    let _ := Elementary.nearPole.arith
    let r : Route Float := ⟨[⟨.street, none, none, [⟨-52.70179, 0.0⟩, ⟨90.0, 0.0⟩]⟩]⟩
    Elementary.nearPole.Strict ∧ r.OnGlobe ∧ ∃ s₀ : Simulator Float,
      Simulator.new "demo" ⟨1e-9, 3.0, some ⟨90.0, 0.0⟩⟩ = .ok s₀ ∧
      let s := s₀.run [.poll none none 1000, .poll (some r) none 2000]
      ∃ l, (s.poll (some r) none 3000).1 = some l ∧
        l.position? = some ⟨90.00000000000001, 0.0⟩ ∧
        ∀ (store : Store Float) (slot : Nat), ¬ ∃ store', store.update slot l = .ok store' := by
  intro _ r
  have hr : r.OnGlobe := by decide +kernel
  let s₀ : Simulator Float := ⟨"demo", ⟨some 1e-9, 3.0, 5.0⟩,
    (Location.blank preference).setPosition ⟨90.0, 0.0⟩, false, true⟩
  have hnew : Simulator.new "demo" ⟨1e-9, 3.0, some ⟨90.0, 0.0⟩⟩ = .ok s₀ := by decide +kernel
  let es : List (Event Float) := [.poll none none 1000, .poll (some r) none 2000]
  have hes : ∀ e ∈ es, e.OnGlobe := by simpa [es, Event.OnGlobe] using hr
  have htold : ((s₀.run es).poll (some r) none 3000).1.map Location.position? =
      some (some ⟨90.00000000000001, 0.0⟩) := by decide +kernel
  obtain ⟨l, hl, hposition⟩ := Option.map_eq_some_iff.mp htold
  refine ⟨Elementary.strict_nearPole, hr, s₀, hnew, l, hl, hposition, fun store slot => ?_⟩
  obtain ⟨-, -, haccepted⟩ :=
    invalid_by_hand_or_rounding Elementary.nearPole Elementary.strict_nearPole hnew es hes
  rw [haccepted (some r) none 3000 l (by simpa using hr) hl store slot]
  rintro ⟨-, hvalid⟩
  have hinvalid : (⟨90.00000000000001, 0.0⟩ : Geo.Point Float).isValid = false := by decide +kernel
  cases hinvalid.symm.trans (hvalid _ hposition)

end Simulator
end Whereabouts
