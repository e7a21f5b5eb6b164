import Whereabouts.Proofs.Binary64
import Whereabouts.Proofs.Change
import Whereabouts.Proofs.Fusion.Pass
import Whereabouts.Proofs.Vehicle.Run
import Mathlib.Data.Option.Basic
import Mathlib.Logic.Function.Basic

/-! Listeners that copy what they are told about, and nothing else, keep up with the fused
location. -/
namespace Whereabouts

variable {R : Type}

namespace Attribute

def Value (R : Type) : Attribute → Type
  | .validity => Validity
  | .fixType => Int
  | .satelliteCount | .satellitesUsed => Option Nat
  | .position => Option (Geo.Point R)
  | .speed | .bearing | .altitude => Option R

/-- Two values are the same when `same` holds of their numbers. -/
def Same (same : R → R → Prop) : (a : Attribute) → a.Value R → a.Value R → Prop
  | .validity => @Eq Validity
  | .fixType => @Eq Int
  | .satelliteCount | .satellitesUsed => @Eq (Option Nat)
  | .position => Option.Rel fun p q => same p.lat q.lat ∧ same p.lng q.lng
  | .speed | .bearing | .altitude => Option.Rel same

lemma rel_equivalence {α : Type} {r : α → α → Prop} (h : Equivalence r) :
    Equivalence (Option.Rel r) where
  refl
    | none => .none
    | some x => .some (h.refl x)
  symm
    | .none => .none
    | .some hxy => .some (h.symm hxy)
  trans
    | .none, .none => .none
    | .some hxy, .some hyz => .some (h.trans hxy hyz)

lemma same_equivalence {same : R → R → Prop} (h : Equivalence same) (a : Attribute) :
    Equivalence (a.Same same) := by
  cases a with
  | validity | fixType | satelliteCount | satellitesUsed => exact eq_equivalence
  | speed | bearing | altitude => exact rel_equivalence h
  | position =>
    refine rel_equivalence ⟨?_, ?_, ?_⟩
    · intro p
      exact ⟨h.refl p.lat, h.refl p.lng⟩
    · intro p q hpq
      exact ⟨h.symm hpq.1, h.symm hpq.2⟩
    · intro p q r hpq hqr
      exact ⟨h.trans hpq.1 hqr.1, h.trans hpq.2 hqr.2⟩

end Attribute

def Location.tell (l : Location R) : (a : Attribute) → a.Value R
  | .validity => l.validity
  | .fixType => l.fixType
  | .satelliteCount => l.satellites?.map (·.1)
  | .satellitesUsed => l.satellites?.map (·.2)
  | .position => l.position?
  | .speed => l.speed?
  | .bearing => l.bearing?
  | .altitude => l.altitude?

lemma Location.tell_setValidity (l : Location R) (v : Validity) {a : Attribute}
    (ha : a ≠ .validity) : ({ l with validity := v } : Location R).tell a = l.tell a := by
  cases a with
  | validity => exact absurd rfl ha
  | _ => rfl

/-- A value for each attribute. -/
abbrev Mirror (R : Type) := (a : Attribute) → a.Value R

namespace Mirror

/-- Copy one attribute after the other from a location. -/
def hear (m : Mirror R) (l : Location R) (as : List Attribute) : Mirror R :=
  as.foldl (fun m a => Function.update m a (l.tell a)) m

def Shows (same : R → R → Prop) (m : Mirror R) (l : Location R) : Prop :=
  ∀ a : Attribute, a.Same same (m a) (l.tell a)

lemma hear_apply (m : Mirror R) (l : Location R) (as : List Attribute) (a : Attribute) :
    m.hear l as a = if a ∈ as then l.tell a else m a := by
  unfold hear
  induction as generalizing m with
  | nil => rfl
  | cons b as ih =>
    rw [List.foldl_cons, ih]
    by_cases hb : a = b
    · subst hb
      simp
    · simp [hb]

lemma shows_tell {same : R → R → Prop} (hsame : Equivalence same) (l : Location R) :
    Shows same l.tell l :=
  fun a => (Attribute.same_equivalence hsame a).refl _

end Mirror

variable [Arith R] {same : R → R → Prop}

lemma Attribute.same_of_not_differs (hbeq : ∀ x y : R, (x == y) = true → same x y)
    {before after : Location R} {a : Attribute}
    (ha : a.aspect.differs none before after = false) :
    a.Same same (before.tell a) (after.tell a) := by
  cases a with
  | validity | fixType | satelliteCount | satellitesUsed =>
    simpa [Aspect.differs, Same, Location.tell, aspect] using ha
  | speed | bearing | altitude => exact rel_of_bne_eq_false hbeq ha
  | position =>
    change Option.Rel _ before.position? after.position?
    cases hp : before.position? with
    | none =>
      cases hq : after.position? with
      | none => exact .none
      | some q => simp [Aspect.differs, aspect, hp, hq] at ha
    | some p =>
      cases hq : after.position? with
      | none => simp [Aspect.differs, aspect, hp, hq] at ha
      | some q =>
        have hpq : (p == q) = true := by simpa [Aspect.differs, aspect, hp, hq, bne] using ha
        rw [Geo.Point.beq_eq, Bool.and_eq_true] at hpq
        exact .some ⟨hbeq _ _ hpq.1, hbeq _ _ hpq.2⟩

/-- What is not announced did not change, or the location has become invalid and nothing but its
validity changed. -/
theorem Mirror.Shows.pass (hsame : Equivalence same)
    (hbeq : ∀ x y : R, (x == y) = true → same x y) {s : Fusion.Settings R}
    (hm : s.notifyMotion = true) (hε : s.changeEpsilon = none) {m : Mirror R}
    {fused : Location R} (h : m.Shows same fused) (raw : List (Location R)) :
    (m.hear (Fusion.pass s raw fused).1 (s.announced (Fusion.pass s raw fused).2)).Shows same
      (Fusion.pass s raw fused).1 := by
  intro a
  rw [hear_apply, Fusion.pass, Fusion.Settings.announced, hm, hε]
  generalize hafter : Fusion.merge raw fused = after
  have hkeep (ha : a.aspect.differs none fused after = false) :
      a.Same same (m a) (after.tell a) :=
    (Attribute.same_equivalence hsame a).trans (h a) (Attribute.same_of_not_differs hbeq ha)
  split_ifs with hmem
  · exact shows_tell hsame after a
  by_cases hv : after.validity = .invalid
  · by_cases ha : a = .validity
    · subst ha
      refine hkeep ?_
      simpa [Changes.mem_announced_of_invalid, hv, Changes.contains] using hmem
    · rw [← hafter, Fusion.merge_eq_of_invalid (hafter ▸ hv), Location.tell_setValidity _ _ ha]
      exact h a
  · refine hkeep ?_
    simpa [Changes.mem_announced, hv, Changes.contains] using hmem

/-- A pass, and what a listener to it holds afterwards. -/
def Fusion.listen (s : Fusion.Settings R) (x : Location R × Mirror R) (raw : List (Location R)) :
    Location R × Mirror R :=
  let (after, changes) := Fusion.pass s raw x.1
  (after, x.2.hear after (s.announced changes))

/-- A call, and what a listener to the vehicle holds afterwards. -/
def Vehicle.follow (i : Nat) (x : Vehicle R × Mirror R) (c : Vehicle.Call R) :
    Vehicle R × Mirror R :=
  let (announced, v) := x.1.call c
  (v, x.2.hear v.fused (Vehicle.heard i announced))

section

variable (hsame : Equivalence same) (hbeq : ∀ x y : R, (x == y) = true → same x y)
  {s : Fusion.Settings R} (hm : s.notifyMotion = true) (hε : s.changeEpsilon = none)

include hsame hbeq hm hε

lemma Fusion.shows_listen (raws : List (List (Location R))) {x : Location R × Mirror R}
    (h : x.2.Shows same x.1) :
    (raws.foldl (Fusion.listen s) x).2.Shows same (raws.foldl (Fusion.listen s) x).1 := by
  induction raws generalizing x with
  | nil => exact h
  | cons raw raws ih => exact ih (h.pass hsame hbeq hm hε raw)

namespace Vehicle

lemma shows_call {v : Vehicle R} (hv : v.config.fusion = s) {i : Nat} (hi : i < v.listeners)
    {m : Mirror R} (h : m.Shows same v.fused) (c : Call R) :
    (follow i (v, m) c).2.Shows same (follow i (v, m) c).1.fused := by
  rcases v.call_cases c with ⟨hquiet, hrests⟩ | ⟨now, hcall⟩
  · simp only [follow, hquiet, hrests.fused_eq]
    exact h
  · subst hv
    obtain ⟨hheard, hfused⟩ := v.update_eq now
    simp only [follow, hcall, hheard, hfused, heard_announcements hi]
    exact h.pass hsame hbeq hm hε _

lemma shows_follow (cs : List (Call R)) {v : Vehicle R} (hv : v.config.fusion = s) {i : Nat}
    (hi : i < v.listeners) {m : Mirror R} (h : m.Shows same v.fused) :
    (cs.foldl (follow i) (v, m)).2.Shows same (cs.foldl (follow i) (v, m)).1.fused := by
  induction cs generalizing v m with
  | nil => exact h
  | cons c cs ih =>
    have hcontinues := v.continues_call c
    exact ih (hcontinues.config_eq ▸ hv) (Nat.lt_of_lt_of_le hi hcontinues.listeners_le)
      (shows_call hsame hbeq hm hε hv hi h c)

end Vehicle

end

/-- With motion announced and positions compared exactly, a listener that starts with a copy of the
fused location holds what that location tells, up to the sign of zero, after any passes and after
any calls on a vehicle. When a pass leads to an invalid location, only its validity is announced;
nothing else has changed then. -/
theorem listener_keeps_up {s : Fusion.Settings Float} (hm : s.notifyMotion = true)
    (hε : s.changeEpsilon = none) :
    (∀ (raws : List (List (Location Float))) (fused : Location Float),
      let x := raws.foldl (Fusion.listen s) (fused, fused.tell)
      x.2.Shows Binary64.Alike x.1) ∧
    (∀ (v : Vehicle Float) (cs : List (Vehicle.Call Float)), v.config.fusion = s →
      let x := cs.foldl (Vehicle.follow v.subscribe.1) (v.subscribe.2, v.fused.tell)
      x.2.Shows Binary64.Alike x.1.fused) ∧
    (∀ (raw : List (Location Float)) (fused : Location Float),
      (Fusion.pass s raw fused).1.validity = .invalid →
      (Fusion.pass s raw fused).1 = { fused with validity := .invalid }) := by
  have hsame := Binary64.alike_equivalence
  have hbeq (x y : Float) (h : (x == y) = true) : Binary64.Alike x y := Binary64.alike_of_beq h
  refine ⟨?_, ?_, ?_⟩
  · intro raws fused
    exact Fusion.shows_listen hsame hbeq hm hε raws (Mirror.shows_tell hsame fused)
  · intro v cs hv
    exact Vehicle.shows_follow hsame hbeq hm hε cs (v := v.subscribe.2) hv (Nat.lt_succ_self _)
      (Mirror.shows_tell hsame v.fused)
  · intro raw fused h
    exact Fusion.merge_eq_of_invalid h

/-- A vehicle gets a fix and loses it. -/
theorem listener_keeps_up_lost_fix :
    let s : Fusion.Settings Float := { notifyMotion := true }
    let v : Vehicle Float :=
      { config := { VehicleConfig.default with fusion := s }
        store := .empty
        sources := []
        fused := Location.blank .low
        fixTimeText := none
        listeners := 0
        route := none
        profile := Profile.car }
    let x := [Vehicle.Call.addProvider "gps" .gps, .send 0 (.fix { position := ⟨48.0, 11.0⟩ }),
      .update 1000, .send 0 .lost, .update 2000].foldl (Vehicle.follow v.subscribe.1)
        (v.subscribe.2, v.fused.tell)
    x.2.Shows Binary64.Alike x.1.fused ∧ x.1.fused.validity = .invalid ∧
      x.1.fused.position? = some ⟨48.0, 11.0⟩ := by
  intro s v x
  exact ⟨(listener_keeps_up (s := s) rfl rfl).2.1 v _ rfl, by decide, by decide⟩

end Whereabouts
