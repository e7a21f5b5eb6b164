import Whereabouts.Proofs.Globe
import Whereabouts.Proofs.Change
import Whereabouts.Proofs.Fusion.Pass
import Whereabouts.Proofs.Location.Agreement

/-! The position that listeners know while a tolerance keeps small changes from them. A pass is
compared with the pass before it and not with the last announcement, so steps within the tolerance
add up: each pass takes the position away from the announced one by at most the tolerance. -/
namespace Whereabouts

section

variable {K : Type} [Field K] [LinearOrder K]

/-- Neither coordinate differs by more than a bound. -/
def Geo.Point.Near (b : K) (p q : Point K) : Prop :=
  |p.lat - q.lat| ≤ b ∧ |p.lng - q.lng| ≤ b

lemma Geo.Point.near_refl [IsStrictOrderedRing K] (p : Point K) : p.Near 0 p := by simp [Near]

lemma Geo.Point.Near.trans [IsStrictOrderedRing K] {a b : K} {p q r : Point K} (h : p.Near a q)
    (h' : q.Near b r) : p.Near (b + a) r := by
  rw [add_comm]
  exact ⟨(abs_sub_le _ q.lat _).trans (add_le_add h.1 h'.1),
    (abs_sub_le _ q.lng _).trans (add_le_add h.2 h'.2)⟩

end

namespace Fusion

/-- The position of the last announcement, and the passes since then that led to a location that is
not invalid. -/
structure Notice (R : Type) where
  position : Geo.Point R
  age : Nat

section

variable {R : Type} [Arith R]

/-- A pass, and what listeners know of the position after it. -/
def tell (s : Settings R) (x : Location R × Option (Notice R)) (raw : List (Location R)) :
    Location R × Option (Notice R) :=
  let (after, changes) := pass s raw x.1
  (after,
    if .position ∈ s.announced changes then after.position?.map (Notice.mk · 0)
    else if after.validity = .invalid then x.2
    else x.2.map fun n => { n with age := n.age + 1 })

lemma position_mem_announced {c : Changes} {motion : Bool} (hv : c.validity ≠ .invalid) :
    .position ∈ c.announced motion ↔ c.has .position = true := by
  cases motion <;> simp [Changes.announced, hv, Attribute.all, Attribute.core, Attribute.motion,
    Changes.contains, Attribute.aspect]

lemma position_mem_announced_pass {s : Settings R} {raw : List (Location R)} {fused : Location R}
    (hv : (merge raw fused).validity ≠ .invalid) :
    .position ∈ s.announced (pass s raw fused).2 ↔
      Aspect.position.differs s.changeEpsilon fused (merge raw fused) = true := by
  have hv' : (pass s raw fused).2.validity ≠ .invalid := by
    rwa [pass, Changes.validity_between]
  exact (position_mem_announced hv').trans (iff_of_eq (congrArg (· = true)
    (Changes.has_between _ _ _ _)))

lemma position_notMem_announced_of_invalid {c : Changes} {motion : Bool}
    (hv : c.validity = .invalid) : .position ∉ c.announced motion := by
  simp [Changes.mem_announced_of_invalid hv]

lemma tell_of_invalid {s : Settings R} {raw : List (Location R)}
    {x : Location R × Option (Notice R)} (hv : (merge raw x.1).validity = .invalid) :
    tell s x raw = ({ x.1 with validity := .invalid }, x.2) := by
  have hquiet : .position ∉ s.announced (pass s raw x.1).2 :=
    position_notMem_announced_of_invalid ((Changes.validity_between _ _ _).trans hv)
  refine Prod.ext (merge_eq_of_invalid hv) ?_
  exact (if_neg hquiet).trans (if_pos hv)

lemma tell_of_announced {s : Settings R} {raw : List (Location R)}
    {x : Location R × Option (Notice R)} (h : .position ∈ s.announced (pass s raw x.1).2) :
    tell s x raw = (merge raw x.1, (merge raw x.1).position?.map (Notice.mk · 0)) :=
  Prod.ext rfl (if_pos h)

lemma tell_of_not_announced {s : Settings R} {raw : List (Location R)}
    {x : Location R × Option (Notice R)} (hv : (merge raw x.1).validity ≠ .invalid)
    (h : .position ∉ s.announced (pass s raw x.1).2) :
    tell s x raw = (merge raw x.1, x.2.map fun n => { n with age := n.age + 1 }) :=
  Prod.ext rfl ((if_neg h).trans (if_neg hv))

end

variable {K : Type} [Field K] [LinearOrder K] [FloorRing K] [Transcendental K] {s : Settings K}

/-- A valid fix on the prime meridian. -/
def northFix (lat : K) : Location K :=
  { (Location.blank .high).setPosition ⟨lat, 0⟩ with validity := .valid }

lemma merge_northFix (lat : K) (fused : Location K) :
    merge [northFix lat] fused =
      (({ fused with
        fixType := 0
        fixTime := Timestamp.never
        validity := .valid
        preference := .high } : Location K).setPosition ⟨lat, 0⟩).clear .accuracy := by
  with_unfolding_all rfl

lemma position?_merge_northFix (lat : K) (fused : Location K) :
    (merge [northFix lat] fused).position? = some ⟨lat, 0⟩ := by
  have hreading : (merge [northFix lat] fused).reading.position = some ⟨lat, 0⟩ := by
    simp [merge_northFix]
  exact hreading

lemma validity_merge_northFix (lat : K) (fused : Location K) :
    (merge [northFix lat] fused).validity ≠ .invalid := by
  have hvalid : (merge [northFix lat] fused).validity = .valid := by
    rw [merge_northFix]
    rfl
  simp [hvalid]

/-- The first fix is announced. -/
lemma tell_first (lat : K) {x : Location K × Option (Notice K)} (hx : x.1.position? = none) :
    tell s x [northFix lat] = (merge [northFix lat] x.1, some ⟨⟨lat, 0⟩, 0⟩) := by
  have hnew : .position ∈ s.announced (pass s [northFix lat] x.1).2 := by
    rw [position_mem_announced_pass (validity_merge_northFix lat x.1)]
    simp [Aspect.differs, hx, position?_merge_northFix]
  rw [tell_of_announced hnew, position?_merge_northFix]
  rfl

variable [IsStrictOrderedRing K] {ε : K}

/-- A pass that does not announce the position moves it by no more than the tolerance. -/
lemma near_of_not_announced (hs : s.changeEpsilon = some ε) {raw : List (Location K)}
    {fused : Location K} (hv : (merge raw fused).validity ≠ .invalid)
    (h : .position ∉ s.announced (pass s raw fused).2) {p : Geo.Point K}
    (hp : (merge raw fused).position? = some p) :
    ∃ q, fused.position? = some q ∧ p.Near ε q := by
  rw [position_mem_announced_pass hv, Bool.not_eq_true] at h
  cases hq : fused.position? with
  | none => simp [Aspect.differs, hq, hp] at h
  | some q =>
    simp only [Aspect.differs, hq, hp, hs, Exact.abs_eq, Bool.or_eq_false_iff,
      decide_eq_false_iff_not, not_lt] at h
    exact ⟨q, rfl, by rw [abs_sub_comm]; exact h.1, by rw [abs_sub_comm]; exact h.2⟩

/-- What listeners know is behind by at most the tolerance for each pass since. -/
def Behind (ε : K) (x : Location K × Option (Notice K)) : Prop :=
  ∀ p, x.1.position? = some p → ∃ n, x.2 = some n ∧ p.Near (n.age * ε) n.position

lemma Behind.tell (hs : s.changeEpsilon = some ε) {x : Location K × Option (Notice K)}
    (hx : Behind ε x) (raw : List (Location K)) : Behind ε (tell s x raw) := by
  by_cases hv : (merge raw x.1).validity = .invalid
  · rw [tell_of_invalid hv]
    exact hx
  by_cases h : .position ∈ s.announced (pass s raw x.1).2
  · rw [tell_of_announced h]
    intro p hp
    exact ⟨⟨p, 0⟩, by simp [hp], by simpa using p.near_refl⟩
  · rw [tell_of_not_announced hv h]
    intro p hp
    obtain ⟨q, hq, hpq⟩ := near_of_not_announced hs hv h hp
    obtain ⟨n, hn, hqn⟩ := hx q hq
    refine ⟨⟨n.position, n.age + 1⟩, by simp [hn], ?_⟩
    have hage : ((n.age + 1 : ℕ) : K) * ε = n.age * ε + ε := by push_cast; ring
    rw [hage]
    exact hpq.trans hqn

lemma Behind.run (hs : s.changeEpsilon = some ε) {x : Location K × Option (Notice K)}
    (hx : Behind ε x) (raws : List (List (Location K))) :
    Behind ε (raws.foldl (Fusion.tell s) x) := by
  induction raws generalizing x with
  | nil => exact hx
  | cons raw raws ih => exact ih (hx.tell hs raw)

/-- With a tolerance, and from a location without a position on, the position is away from the
announced one by at most the tolerance for each pass since that led to a location that is not
invalid. Any such pass that does not announce it moves it by at most the tolerance. -/
theorem drift_le (hs : s.changeEpsilon = some ε) {fused : Location K}
    (hfused : fused.position? = none) (raws : List (List (Location K))) :
    let x := raws.foldl (tell s) (fused, none)
    (∀ p, x.1.position? = some p → ∃ n, x.2 = some n ∧
      |p.lat - n.position.lat| ≤ n.age * ε ∧ |p.lng - n.position.lng| ≤ n.age * ε) ∧
    ∀ raw, (merge raw x.1).validity ≠ .invalid → .position ∉ s.announced (pass s raw x.1).2 →
      ∀ p, (merge raw x.1).position? = some p → ∃ q, x.1.position? = some q ∧
        |p.lat - q.lat| ≤ ε ∧ |p.lng - q.lng| ≤ ε := by
  intro x
  have hstart : Behind ε (fused, none) := fun p hp => by simp [hfused] at hp
  exact ⟨hstart.run hs raws, fun raw hv hquiet p hp => near_of_not_announced hs hv hquiet hp⟩

/-- Two fixes, half a degree apart. -/
theorem drift_le_two_fixes :
    let s : Settings ℝ := { changeEpsilon := some 1 }
    let fused : Location ℝ := Location.blank .low
    let x := [[northFix 48], [northFix 48.5]].foldl (tell s) (fused, none)
    s.changeEpsilon = some 1 ∧ fused.position? = none ∧ x.1.position? = some ⟨48.5, 0⟩ ∧
      ∃ n, x.2 = some n ∧
        |48.5 - n.position.lat| ≤ n.age * 1 ∧ |0 - n.position.lng| ≤ n.age * 1 := by
  intro s fused x
  have hs : s.changeEpsilon = some 1 := rfl
  have hfused : fused.position? = none := by decide
  have hposition : x.1.position? = some ⟨48.5, 0⟩ := position?_merge_northFix 48.5 _
  exact ⟨hs, hfused, hposition, (drift_le hs hfused _).1 _ hposition⟩

/-- A fix within the tolerance of the one before is not. -/
lemma tell_next (hs : s.changeEpsilon = some ε) {lat lat' : K} (h : |lat - lat'| ≤ ε)
    {x : Location K × Option (Notice K)} (hx : x.1.position? = some ⟨lat, 0⟩) :
    tell s x [northFix lat'] =
      (merge [northFix lat'] x.1, x.2.map fun n => { n with age := n.age + 1 }) := by
  have hε : 0 ≤ ε := (abs_nonneg _).trans h
  refine tell_of_not_announced (validity_merge_northFix lat' x.1) ?_
  rw [position_mem_announced_pass (validity_merge_northFix lat' x.1)]
  simp [Aspect.differs, hx, position?_merge_northFix, hs, Exact.abs_eq, h, hε]

/-- Fixes that go north by the tolerance each time. -/
def creep (ε : K) (n : ℕ) : List (List (Location K)) :=
  (List.range (n + 1)).map fun i : ℕ => [northFix (i * ε)]

/-- Only the first of them is announced, so that the bound is reached after any number. -/
theorem foldl_creep (hs : s.changeEpsilon = some ε) (hε : 0 ≤ ε) {fused : Location K}
    (hfused : fused.position? = none) (n : ℕ) :
    let x := (creep ε n).foldl (tell s) (fused, none)
    x.1.validity ≠ .invalid ∧ x.1.position? = some ⟨n * ε, 0⟩ ∧ x.2 = some ⟨⟨0, 0⟩, n⟩ := by
  induction n with
  | zero =>
    have hfirst : (creep ε 0).foldl (tell s) (fused, none) =
        tell s (fused, none) [northFix ((0 : ℕ) * ε)] := rfl
    rw [hfirst, tell_first _ hfused]
    exact ⟨validity_merge_northFix _ _, position?_merge_northFix _ _, by simp⟩
  | succ n ih =>
    obtain ⟨-, hposition, hnotice⟩ := ih
    have hnext : (creep ε (n + 1)).foldl (tell s) (fused, none) =
        tell s ((creep ε n).foldl (tell s) (fused, none)) [northFix ((n + 1 : ℕ) * ε)] := by
      rw [creep, List.range_succ, List.map_append, List.foldl_append]
      rfl
    have hstep : |(n : K) * ε - (n + 1 : ℕ) * ε| ≤ ε := by
      have hdiff : (n : K) * ε - (n + 1 : ℕ) * ε = -ε := by push_cast; ring
      rw [hdiff, abs_neg, abs_of_nonneg hε]
    rw [hnext, tell_next hs hstep hposition]
    exact ⟨validity_merge_northFix _ _, position?_merge_northFix _ _, by simp [hnotice]⟩

/-- Three fixes, each one degree north of the one before, with a tolerance of one degree: the
position that listeners know is two degrees behind. -/
theorem drift_beyond_tolerance :
    let s : Settings ℝ := { changeEpsilon := some 1 }
    let raws := [[northFix 0], [northFix 1], [northFix 2]]
    let x := raws.foldl (tell s) (Location.blank .low, none)
    x.1.validity ≠ .invalid ∧ ∃ p n, x.1.position? = some p ∧ x.2 = some n ∧
      ¬ |p.lat - n.position.lat| ≤ 1 := by
  intro s raws x
  have hcreep : raws = creep 1 2 := by simp [raws, creep, List.range_succ]
  have hs : s.changeEpsilon = some 1 := rfl
  have hfused : (Location.blank .low : Location ℝ).position? = none := by decide
  obtain ⟨hvalid, hposition, hnotice⟩ := foldl_creep hs zero_le_one hfused 2
  rw [← hcreep] at hvalid hposition hnotice
  exact ⟨hvalid, _, _, hposition, hnotice, by norm_num⟩

end Fusion
end Whereabouts
