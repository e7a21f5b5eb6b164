import Whereabouts.Fusion.Pass
import Whereabouts.Proofs.Binary64
import Whereabouts.Proofs.Change

/-! A pass writes to the fused location without reading it. Everything that it writes is gathered in
a patch, and a patch written twice is a patch written once. -/
namespace Whereabouts.Fusion

/-- What is written to a location: fields keep their value or get a new one, and attributes are
dropped and then added. -/
structure Patch (R : Type) where
  position : Option (Geo.Point R) := none
  speed : Option R := none
  bearing : Option R := none
  altitude : Option R := none
  accuracy : Option R := none
  satsInView : Option Nat := none
  satsUsed : Option Nat := none
  fixType : Option Int := none
  fixTime : Option Timestamp := none
  validity : Option Validity := none
  preference : Option Preference := none
  dropped : Presence := .none
  added : Presence := .none

variable {R : Type}

namespace Patch

def apply (p : Patch R) (l : Location R) : Location R where
  position := p.position.getD l.position
  speed := p.speed.getD l.speed
  bearing := p.bearing.getD l.bearing
  altitude := p.altitude.getD l.altitude
  accuracy := p.accuracy.getD l.accuracy
  satsInView := p.satsInView.getD l.satsInView
  satsUsed := p.satsUsed.getD l.satsUsed
  fixType := p.fixType.getD l.fixType
  fixTime := p.fixTime.getD l.fixTime
  presence := (l.presence.clear p.dropped).set p.added
  validity := p.validity.getD l.validity
  preference := p.preference.getD l.preference

/-- Both patches as one, where the second one counts. -/
def andThen (p q : Patch R) : Patch R where
  position := q.position <|> p.position
  speed := q.speed <|> p.speed
  bearing := q.bearing <|> p.bearing
  altitude := q.altitude <|> p.altitude
  accuracy := q.accuracy <|> p.accuracy
  satsInView := q.satsInView <|> p.satsInView
  satsUsed := q.satsUsed <|> p.satsUsed
  fixType := q.fixType <|> p.fixType
  fixTime := q.fixTime <|> p.fixTime
  validity := q.validity <|> p.validity
  preference := q.preference <|> p.preference
  dropped := p.dropped.set q.dropped
  added := (p.added.clear q.dropped).set q.added

lemma getD_orElse {α : Type} (o o' : Option α) (a : α) :
    (o <|> o').getD a = o.getD (o'.getD a) := by
  cases o <;> rfl

lemma getD_getD {α : Type} (o : Option α) (a : α) : o.getD (o.getD a) = o.getD a := by
  cases o <;> rfl

theorem apply_andThen (p q : Patch R) (l : Location R) :
    (p.andThen q).apply l = q.apply (p.apply l) := by
  simp only [apply, andThen, getD_orElse, Presence.set_clear_set_clear]

/-- Writing the same again changes nothing. -/
theorem apply_apply (p : Patch R) (l : Location R) : p.apply (p.apply l) = p.apply l := by
  simp only [apply, getD_getD, Presence.set_clear_self]

end Patch

/-- A step that writes the same whatever it finds. -/
def IsPatch (f : Location R → Location R) : Prop := ∃ p : Patch R, ∀ l, f l = p.apply l

namespace IsPatch

theorem idempotent {f : Location R → Location R} (h : IsPatch f) (l : Location R) :
    f (f l) = f l := by
  obtain ⟨p, hp⟩ := h
  rw [hp, hp, Patch.apply_apply]

theorem comp {f g : Location R → Location R} (hg : IsPatch g) (hf : IsPatch f) :
    IsPatch fun l => g (f l) := by
  obtain ⟨p, hp⟩ := hf
  obtain ⟨q, hq⟩ := hg
  refine ⟨p.andThen q, fun l => ?_⟩
  rw [Patch.apply_andThen, ← hp, ← hq]

theorem id : IsPatch fun l : Location R => l := ⟨{}, fun l => by simp [Patch.apply]⟩

theorem setPosition (p : Geo.Point R) : IsPatch (·.setPosition p) :=
  ⟨{ position := some p, added := .position }, fun l => by
    simp [Patch.apply, Location.setPosition]⟩

theorem setSpeed (v : R) : IsPatch (·.setSpeed v) :=
  ⟨{ speed := some v, added := .speed }, fun l => by simp [Patch.apply, Location.setSpeed]⟩

theorem setBearing (v : R) : IsPatch (·.setBearing v) :=
  ⟨{ bearing := some v, added := .bearing }, fun l => by simp [Patch.apply, Location.setBearing]⟩

theorem setAltitude (v : R) : IsPatch (·.setAltitude v) :=
  ⟨{ altitude := some v, added := .altitude }, fun l => by
    simp [Patch.apply, Location.setAltitude]⟩

theorem setAccuracy (r : R) : IsPatch (·.setAccuracy r) :=
  ⟨{ accuracy := some r, added := .accuracy }, fun l => by
    simp [Patch.apply, Location.setAccuracy]⟩

theorem setSatellites (n m : Nat) : IsPatch fun l : Location R => l.setSatellites n m :=
  ⟨{ satsInView := some n, satsUsed := some m, added := .satellites }, fun l => by
    simp [Patch.apply, Location.setSatellites]⟩

theorem clear (q : Presence) : IsPatch fun l : Location R => l.clear q :=
  ⟨{ dropped := q }, fun l => by simp [Patch.apply, Location.clear]⟩

theorem setIfSome {α : Type} {set : Location R → α → Location R}
    (h : ∀ v, IsPatch fun l => set l v) (value : Option α) :
    IsPatch (Fusion.setIfSome set value) := by
  cases value with
  | none => exact id
  | some v => exact h v

theorem place (e : Option (Geo.Point R × Option R)) : IsPatch (Fusion.place e) := by
  match e with
  | none => exact id
  | some (p, none) => exact (clear .accuracy).comp (setPosition p)
  | some (p, some r) => exact (setAccuracy r).comp (setPosition p)

theorem inherit (p : Option Provenance) : IsPatch (R := R) (Fusion.inherit p) := by
  match p with
  | none => exact ⟨{ validity := some .invalid }, fun l => by simp [Patch.apply, Fusion.inherit]⟩
  | some ⟨fixType, fixTime, validity, preference, satellites⟩ =>
    have hmeta : IsPatch fun l : Location R =>
        { l with
          fixType := fixType
          fixTime := fixTime
          validity := validity
          preference := preference } :=
      ⟨{ fixType := fixType, fixTime := fixTime, validity := validity, preference := preference },
        fun l => by simp [Patch.apply]⟩
    match satellites with
    | none => exact hmeta
    | some (n, m) => exact (setSatellites n m).comp hmeta

variable [Arith R]

/-- What a pass writes depends on the raw locations alone. -/
theorem merge (raw : List (Location R)) : IsPatch (Fusion.merge raw) :=
  (setIfSome setBearing _).comp <| (setIfSome setAltitude _).comp <|
    (setIfSome setSpeed _).comp <| (place _).comp (inherit _)

end IsPatch

/-- A pass over the same raw locations again leaves the fused location as it is. Nothing is recorded
or announced then, provided that the location supplies no NaN, which differs from itself. -/
theorem pass_pass (s : Settings Float) (raw : List (Location Float)) (fused : Location Float) :
    let after := (pass s raw fused).1
    (pass s raw after).1 = after ∧
      (s.validate = .ok () → (∀ x ∈ after.numbers, x.isNaN = false) →
        (pass s raw after).2.isEmpty = true ∧ s.announced (pass s raw after).2 = []) := by
  intro after
  have hagain : merge raw after = after := (IsPatch.merge raw).idempotent fused
  refine ⟨hagain, fun hs hnan => ?_⟩
  have htolerance : ∀ e ∈ s.changeEpsilon, Arith.isNonneg e = true := by
    rw [Settings.validate, ConfigFault.require_eq_ok_iff] at hs
    intro e he
    rw [Option.mem_def.mp he] at hs
    exact hs
  have hsame (a : Aspect) : a.differs s.changeEpsilon after after = false :=
    Aspect.differs_self (fun x hx => Binary64.beq_self (hnan x hx))
      (fun e he x hx => Binary64.not_lt_abs_sub_self (hnan x hx) (htolerance e he)) a
  have hnone : (pass s raw after).2 = Changes.none after.validity := by
    rw [pass, hagain]
    exact Changes.between_eq_none hsame
  rw [hnone]
  exact ⟨rfl, Changes.announced_none _ _⟩

/-- A first fix is announced; the same fix once more is not. -/
theorem pass_pass_first_fix :
    let s : Settings Float := { changeEpsilon := some 1e-7 }
    let fix : Location Float :=
      { (Location.blank .low).setPosition ⟨48.0, 11.0⟩ with validity := .valid }
    let after := (pass s [fix] (Location.blank .low)).1
    s.announced (pass s [fix] (Location.blank .low)).2 = [.validity, .position] ∧
      s.announced (pass s [fix] after).2 = [] := by
  intro s fix after
  have hnan : ∀ x ∈ after.numbers, x.isNaN = false := by decide
  exact ⟨by decide, ((pass_pass s [fix] (Location.blank .low)).2 (by decide) hnan).2⟩

end Whereabouts.Fusion
