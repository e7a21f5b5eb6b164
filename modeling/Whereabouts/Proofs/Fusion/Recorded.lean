import Mathlib.Data.Option.Basic
import Mathlib.Tactic.IntervalCases
import Whereabouts.Proofs.Binary64
import Whereabouts.Proofs.Change
import Whereabouts.Proofs.Fusion.Merge

/-! What a pass records of what it changes. A bit is set for each aspect in which the fused location
differs from itself before the pass, and no other bit. Where none is set, the location tells what it
told before, its preference apart, which no bit stands for. -/
namespace Whereabouts

variable {R : Type}

namespace Aspect

def Value (R : Type) : Aspect → Type
  | .validity => Validity
  | .fixType => Int
  | .satsInView | .satsUsed => Option Nat
  | .position => Option (Geo.Point R)
  | .speed | .bearing | .altitude | .accuracy => Option R
  | .fixTime => Timestamp

instance [BEq R] : (a : Aspect) → BEq (a.Value R)
  | .validity => inferInstanceAs (BEq Validity)
  | .fixType => inferInstanceAs (BEq Int)
  | .satsInView | .satsUsed => inferInstanceAs (BEq (Option Nat))
  | .position => inferInstanceAs (BEq (Option (Geo.Point R)))
  | .speed | .bearing | .altitude | .accuracy => inferInstanceAs (BEq (Option R))
  | .fixTime => inferInstanceAs (BEq Nat)

end Aspect

def Location.aspect (l : Location R) : (a : Aspect) → a.Value R
  | .validity => l.validity
  | .fixType => l.fixType
  | .satsInView => l.satellites?.map (·.1)
  | .satsUsed => l.satellites?.map (·.2)
  | .position => l.position?
  | .speed => l.speed?
  | .bearing => l.bearing?
  | .altitude => l.altitude?
  | .accuracy => l.accuracy?
  | .fixTime => l.fixTime

/-- Without a tolerance an aspect differs when what is told in it compares different. -/
lemma Aspect.differs_none [Arith R] (a : Aspect) (before after : Location R) :
    a.differs none before after = (before.aspect a != after.aspect a) := by
  cases a with
  | position =>
    change _ = (before.position? != after.position?)
    unfold differs
    generalize before.position? = p
    generalize after.position? = q
    cases p <;> cases q <;> rfl
  | _ => rfl

/-- All that is told of both compares equal, numbers by `same`. -/
structure Location.Reading.Like (same : R → R → Prop) (r t : Reading R) : Prop where
  position : Option.Rel (fun p q => same p.lat q.lat ∧ same p.lng q.lng) r.position t.position
  speed : Option.Rel same r.speed t.speed
  bearing : Option.Rel same r.bearing t.bearing
  altitude : Option.Rel same r.altitude t.altitude
  accuracy : Option.Rel same r.accuracy t.accuracy
  satellites : r.satellites = t.satellites
  fixType : r.fixType = t.fixType
  fixTime : r.fixTime = t.fixTime
  validity : r.validity = t.validity
  preference : r.preference = t.preference

variable [Arith R] {same : R → R → Prop}

/-- Where no aspect differs, all that is told compares equal but the preference. -/
theorem Location.like_of_not_differs (hbeq : ∀ x y : R, (x == y) = true → same x y)
    {before after : Location R} (h : ∀ a : Aspect, a.differs none before after = false) :
    before.reading.Like same { after.reading with preference := before.preference } := by
  have hpoint (p q : Geo.Point R) (hpq : (p == q) = true) :
      same p.lat q.lat ∧ same p.lng q.lng := by
    rw [Geo.Point.beq_eq, Bool.and_eq_true] at hpq
    exact ⟨hbeq _ _ hpq.1, hbeq _ _ hpq.2⟩
  have hposition : (before.position? != after.position?) = false :=
    (Aspect.position.differs_none before after).symm.trans (h .position)
  exact
    { position := rel_of_bne_eq_false hpoint hposition
      speed := rel_of_bne_eq_false hbeq (h .speed)
      bearing := rel_of_bne_eq_false hbeq (h .bearing)
      altitude := rel_of_bne_eq_false hbeq (h .altitude)
      accuracy := rel_of_bne_eq_false hbeq (h .accuracy)
      satellites := by
        have hinView := bne_eq_false_iff_eq.mp (h .satsInView)
        have hused := bne_eq_false_iff_eq.mp (h .satsUsed)
        change before.satellites? = after.satellites?
        generalize before.satellites? = x at hinView hused ⊢
        generalize after.satellites? = y at hinView hused ⊢
        cases x <;> cases y <;> simp_all [Prod.ext_iff]
      fixType := bne_eq_false_iff_eq.mp (h .fixType)
      fixTime := bne_eq_false_iff_eq.mp (h .fixTime)
      validity := bne_eq_false_iff_eq.mp (h .validity)
      preference := rfl }

namespace Fusion

/-- Such a location has the same attributes as before. -/
lemma presence_merge_of_like {raw : List (Location R)} {fused : Location R} {p : Preference}
    (h : fused.reading.Like same { (merge raw fused).reading with preference := p }) :
    (merge raw fused).presence = fused.presence := by
  have hpresent {α : Type} {b b' : Bool} {x x' : α}
      (h : (if b then some x else none).isSome = (if b' then some x' else none).isSome) :
      b' = b := by
    cases b <;> cases b' <;> simp_all
  have hrel {α : Type} {r : α → α → Prop} {o o' : Option α} (h : Option.Rel r o o') :
      o.isSome = o'.isSome := by
    cases h <;> rfl
  refine Presence.eq_of_contains ?_ (spare_merge raw fused)
  simp only [List.forall_mem_cons]
  exact ⟨hpresent (hrel h.position), hpresent (hrel h.speed), hpresent (hrel h.bearing),
    hpresent (hrel h.altitude), hpresent (hrel h.accuracy),
    hpresent (congrArg Option.isSome h.satellites), by simp⟩

/-- Without a tolerance a pass sets the bit of each aspect in which what the fused location tells
compares different before and after it, and no other bit. It sets none exactly if nothing compares
different, and then all getters tell what they told, the preference apart. -/
theorem pass_records_differences {s : Settings Float} (hε : s.changeEpsilon = none)
    (raw : List (Location Float)) (fused : Location Float) :
    let (after, changes) := pass s raw fused
    (∀ i, changes.bits.getLsbD i = true ↔
      ∃ a : Aspect, a.index = i ∧ (fused.aspect a != after.aspect a) = true) ∧
    (changes.isEmpty = true ↔ ∀ a, (fused.aspect a != after.aspect a) = false) ∧
    (changes.isEmpty = true →
      fused.reading.Like Binary64.Alike { after.reading with preference := fused.preference } ∧
        after.presence = fused.presence) := by
  simp only [pass, hε, ← Aspect.differs_none]
  refine ⟨Changes.getLsbD_between none fused _, Changes.isEmpty_between none fused _,
    fun hempty => ?_⟩
  have hlike : fused.reading.Like Binary64.Alike
      { (merge raw fused).reading with preference := fused.preference } :=
    Location.like_of_not_differs (fun _ _ => Binary64.alike_of_beq)
      ((Changes.isEmpty_between none fused _).mp hempty)
  exact ⟨hlike, presence_merge_of_like hlike⟩

/-- A first fix, and the same fix once more. -/
theorem pass_records_differences_first_fix :
    let s : Settings Float := {}
    let fix : Location Float :=
      { ((Location.blank .high).setPosition ⟨48.0, 11.0⟩).setSatellites 9 7 with
        validity := .valid
        fixTime := 1000 }
    let fused : Location Float := Location.blank .low
    s.changeEpsilon = none ∧ (pass s [fix] fused).2.bits.getLsbD Aspect.position.index = true ∧
      (pass s [fix] fused).2.isEmpty = false ∧ (pass s [fix] fix).2.isEmpty = true ∧
      (pass s [fix] fix).1.presence = fix.presence := by
  intro s fix fused
  have hε : s.changeEpsilon = none := rfl
  obtain ⟨hbits, hempty, -⟩ := pass_records_differences hε [fix] fused
  obtain ⟨-, hagain, hlike⟩ := pass_records_differences hε [fix] fix
  have hnone : (pass s [fix] fix).2.isEmpty = true := hagain.mpr fun a => by cases a <;> decide
  refine ⟨hε, (hbits _).mpr ⟨.position, rfl, by decide⟩, ?_, hnone, (hlike hnone).2⟩
  rw [Bool.eq_false_iff]
  intro h
  exact absurd (hempty.mp h .position) (by decide)

/-- The preference has no bit: of two sources with the same fix the second one takes over unseen. -/
theorem preference_goes_unrecorded :
    let fix (p : Preference) : Location Float :=
      { (Location.blank p).setPosition ⟨48.0, 11.0⟩ with validity := .valid }
    let fused := fix .high
    let (after, changes) := pass {} [fix .medium] fused
    (∀ x ∈ fused.numbers, x.isNaN = false) ∧ changes.isEmpty = true ∧
      after.preference ≠ fused.preference := by
  decide

end Fusion
end Whereabouts
