import Mathlib.Algebra.Order.Round
import Mathlib.Algebra.Ring.Periodic
import Whereabouts.Proofs.Globe
import Whereabouts.Proofs.Reckoning.Walk

/-! Lengths are measured about the axis of the globe, and legs are walked on the map of latitude and
longitude. The two agree unless the 180th meridian lies between the ends. -/
namespace Whereabouts

variable {K : Type} [Field K] [LinearOrder K]

namespace Geo

/-- An angle leads from one longitude to another, and no way round is shorter. -/
structure Turn (x y δ : K) : Prop where
  wound : ∃ k : ℤ, y - x = δ + 360 * k
  short : |δ| ≤ 180

namespace Turn

variable {x y δ ε : K}

lemma of_abs_le (h : |y - x| ≤ 180) : Turn x y (y - x) := ⟨⟨0, by simp⟩, h⟩

variable [IsStrictOrderedRing K]

lemma exists_turn [FloorRing K] (x y : K) : ∃ δ, Turn x y δ := by
  have hround := abs_sub_round ((y - x) / 360)
  have hscale : y - x - 360 * round ((y - x) / 360) =
      360 * ((y - x) / 360 - round ((y - x) / 360)) := by ring
  refine ⟨y - x - 360 * round ((y - x) / 360), ⟨round ((y - x) / 360), by ring⟩, ?_⟩
  rw [hscale, abs_mul, abs_of_pos (by norm_num : (0 : K) < 360)]
  linarith

lemma symm (h : Turn x y δ) : Turn y x (-δ) := by
  obtain ⟨k, hk⟩ := h.wound
  refine ⟨⟨-k, ?_⟩, by rw [abs_neg]; exact h.short⟩
  push_cast
  linarith

/-- There is one turn between two longitudes, but half a circle can be turned either way. -/
lemma eq_or_eq_neg (hδ : Turn x y δ) (hε : Turn x y ε) : ε = δ ∨ ε = -δ ∧ |δ| = 180 := by
  obtain ⟨k, hk⟩ := hδ.wound
  obtain ⟨m, hm⟩ := hε.wound
  obtain ⟨hδlow, hδhigh⟩ := abs_le.mp hδ.short
  obtain ⟨hεlow, hεhigh⟩ := abs_le.mp hε.short
  have hdiff : ε - δ = 360 * ((k - m : ℤ) : K) := by
    push_cast
    linarith
  have hlow : -1 ≤ k - m := by
    have h : ((-1 : ℤ) : K) ≤ ((k - m : ℤ) : K) := by
      push_cast at hdiff ⊢
      linarith
    exact_mod_cast h
  have hhigh : k - m ≤ 1 := by
    have h : ((k - m : ℤ) : K) ≤ ((1 : ℤ) : K) := by
      push_cast at hdiff ⊢
      linarith
    exact_mod_cast h
  -- Two turns differ by at most one circle, and by a whole one only if each is half of it.
  obtain h | h | h : k - m = -1 ∨ k - m = 0 ∨ k - m = 1 := by omega
  all_goals
    rw [h] at hdiff
    push_cast at hdiff
  · obtain rfl : δ = 180 := by linarith
    exact .inr ⟨by linarith, abs_of_pos (by norm_num)⟩
  · exact .inl (by linarith)
  · obtain rfl : δ = -180 := by linarith
    exact .inr ⟨by linarith, by rw [abs_neg, abs_of_pos (by norm_num)]⟩

/-- Longitudes more than half a circle apart are closer the other way round. -/
lemma eq_sub_of_lt (h : Turn x y δ) (hlow : 180 < y - x) (hhigh : y - x ≤ 360) :
    δ = y - x - 360 := by
  obtain ⟨k, hk⟩ := h.wound
  obtain ⟨hδlow, hδhigh⟩ := abs_le.mp h.short
  have hpos : (0 : K) < k := by linarith
  have hlt : (k : K) < ((2 : ℤ) : K) := by
    push_cast
    linarith
  have hone : k = 1 := by
    have hpos' : 0 < k := by exact_mod_cast hpos
    have hlt' : k < 2 := by exact_mod_cast hlt
    omega
  rw [hone] at hk
  push_cast at hk
  linarith

end Turn

/-- The way round to one side has no inner point in common with the way round to the other. -/
lemma inner_ne_other_way [IsStrictOrderedRing K] {d f t : K} {k : ℤ} (hd : d ∈ Set.Ioc (0 : K) 360)
    (hf : f ∈ Set.Ioo (0 : K) 1) (ht : t ∈ Set.Icc (0 : K) 1) :
    d * f ≠ (d - 360) * t + 360 * k := by
  intro h
  have hpos : 0 < d * f := mul_pos hd.1 hf.1
  have hlt : d * f < d := mul_lt_of_lt_one_right hd.1 hf.2
  have hother : 0 ≤ (360 - d) * t := mul_nonneg (sub_nonneg.mpr hd.2) ht.1
  have hother' : (360 - d) * t ≤ 360 - d :=
    mul_le_of_le_one_right (sub_nonneg.mpr hd.2) ht.2
  rcases le_or_gt k 0 with hk | hk
  · have hk' : (k : K) ≤ 0 := by exact_mod_cast hk
    linarith
  · have hk' : (1 : K) ≤ k := by exact_mod_cast hk
    linarith

namespace Point

/-- The point is on the arc that turns the short way about the axis, ends included. -/
def OnArc (p a b : Point K) : Prop :=
  ∃ δ, Turn a.lng b.lng δ ∧ ∃ t ∈ Set.Icc (0 : K) 1,
    p.lat = a.lat + (b.lat - a.lat) * t ∧ ∃ k : ℤ, p.lng = a.lng + δ * t + 360 * k

/-- The short way between two points leads across the 180th meridian. -/
structure Crosses (a b : Point K) : Prop where
  far : 180 < |b.lng - a.lng|

lemma abs_le_of_not_crosses {a b : Point K} (h : ¬ a.Crosses b) : |b.lng - a.lng| ≤ 180 :=
  not_lt.mp fun hfar => h ⟨hfar⟩

variable [FloorRing K]

section

variable [IsStrictOrderedRing K]

lemma onArc_start (a b : Point K) : a.OnArc a b := by
  obtain ⟨δ, hδ⟩ := Turn.exists_turn a.lng b.lng
  exact ⟨δ, hδ, 0, ⟨le_rfl, zero_le_one⟩, by simp, 0, by simp⟩

lemma onArc_stop (a b : Point K) : b.OnArc a b := by
  obtain ⟨δ, hδ⟩ := Turn.exists_turn a.lng b.lng
  obtain ⟨k, hk⟩ := hδ.wound
  exact ⟨δ, hδ, 1, ⟨zero_le_one, le_rfl⟩, by ring, k, by linarith⟩

end

variable [Transcendental K] {a b : Point K} {f : K}

/-- A length depends on the longitudes only through the turn between them. -/
lemma distance_eq_of_turn
    (hsin : Function.Antiperiodic (Transcendental.sin : K → K) Arith.pi) {δ : K}
    (h : Turn a.lng b.lng δ) : a.distance b = a.distance ⟨b.lat, a.lng + δ⟩ := by
  obtain ⟨k, hk⟩ := h.wound
  have hhalf : Arith.radians (b.lng - a.lng) / 2.0 =
      Arith.radians (a.lng + δ - a.lng) / 2.0 + k * Arith.pi := by
    have h180 : (180.0 : K) = 180 := by norm_num
    have htwo : (2.0 : K) = 2 := by norm_num
    rw [hk, Arith.radians, Arith.radians, h180, htwo]
    ring
  have hsquare : Arith.sin (Arith.radians (b.lng - a.lng) / 2.0) *
        Arith.sin (Arith.radians (b.lng - a.lng) / 2.0) =
      Arith.sin (Arith.radians (a.lng + δ - a.lng) / 2.0) *
        Arith.sin (Arith.radians (a.lng + δ - a.lng) / 2.0) := by
    rw [hhalf]
    exact (hsin.mul hsin).int_mul k _
  have hhaversine : a.haversine b = a.haversine ⟨b.lat, a.lng + δ⟩ := by
    simp only [haversine, mul_assoc, hsquare]
  rw [distance, distance, hhaversine]

lemma onArc_towards (h : ¬ a.Crosses b) (hf : f ∈ Set.Icc (0 : K) 1) :
    (a.towards b f).OnArc a b :=
  ⟨b.lng - a.lng, Turn.of_abs_le (abs_le_of_not_crosses h), f, hf, rfl, 0, by simp [towards]⟩

variable [IsStrictOrderedRing K]

lemma abs_lng_sub_le (ha : a.isValid = true) (hb : b.isValid = true) :
    |b.lng - a.lng| ≤ 360 := by
  have hlng := add_le_add (isValid_iff.mp hb).2 (isValid_iff.mp ha).2
  exact (abs_sub _ _).trans (hlng.trans_eq (by norm_num))

/-- A way on the map departs by its fraction of the turn, unless it should cross the meridian. -/
lemma exists_turn_eq_departure_iff :
    (∃ δ, Turn a.lng b.lng δ ∧ (a.towards b f).lng - a.lng = f * δ) ↔ (a.Crosses b → f = 0) := by
  have hdepart : (a.towards b f).lng - a.lng = f * (b.lng - a.lng) := by
    simp only [towards]
    ring
  rw [hdepart]
  constructor
  · rintro ⟨δ, hδ, heq⟩ hcross
    by_contra hf
    rw [mul_right_inj' hf] at heq
    exact absurd hδ.short (not_le.mpr (heq ▸ hcross.far))
  · intro h
    by_cases hcross : a.Crosses b
    · obtain ⟨δ, hδ⟩ := Turn.exists_turn a.lng b.lng
      exact ⟨δ, hδ, by rw [h hcross, zero_mul, zero_mul]⟩
    · exact ⟨b.lng - a.lng, Turn.of_abs_le (abs_le_of_not_crosses hcross), rfl⟩

/-- A way on the map that should cross the meridian is nowhere on the arc, except at its ends. -/
lemma not_onArc_towards (ha : a.isValid = true) (hb : b.isValid = true) (h : a.Crosses b)
    (hf : f ∈ Set.Ioo (0 : K) 1) : ¬ (a.towards b f).OnArc a b := by
  rintro ⟨δ, hδ, t, ht, -, k, hk⟩
  have hlng : (b.lng - a.lng) * f = δ * t + 360 * k := by
    have hsum : a.lng + (b.lng - a.lng) * f = a.lng + δ * t + 360 * k := hk
    linarith
  obtain ⟨hlow, hhigh⟩ := abs_le.mp (abs_lng_sub_le ha hb)
  -- The map leads one way round and the arc the other; westward is the mirror image of eastward.
  rcases lt_abs.mp h.far with heast | hwest
  · rw [hδ.eq_sub_of_lt heast hhigh] at hlng
    exact inner_ne_other_way ⟨by linarith, hhigh⟩ hf ht hlng
  · rw [neg_sub] at hwest
    have hback : -δ = a.lng - b.lng - 360 := hδ.symm.eq_sub_of_lt hwest (by linarith)
    have hmirror : (a.lng - b.lng) * f = (a.lng - b.lng - 360) * t + 360 * (-k : ℤ) := by
      rw [← hback]
      push_cast
      linarith
    exact inner_ne_other_way ⟨by linarith, by linarith⟩ hf ht hmirror

lemma onArc_towards_iff (ha : a.isValid = true) (hb : b.isValid = true)
    (hf : f ∈ Set.Icc (0 : K) 1) :
    (a.towards b f).OnArc a b ↔ (a.Crosses b → f = 0 ∨ f = 1) := by
  constructor
  · intro honArc hcross
    by_contra! hinner
    have hopen : f ∈ Set.Ioo (0 : K) 1 := ⟨hf.1.lt_of_ne' hinner.1, hf.2.lt_of_ne hinner.2⟩
    exact not_onArc_towards ha hb hcross hopen honArc
  · intro h
    by_cases hcross : a.Crosses b
    · rcases h hcross with rfl | rfl
      · rw [towards_zero]
        exact onArc_start a b
      · rw [towards_one]
        exact onArc_stop a b
    · exact onArc_towards hcross hf

end Point
end Geo

namespace Reckoning

variable [IsStrictOrderedRing K] [FloorRing K] [Transcendental K]

/-- The length of a leg is measured along the shorter turn between its longitudes. What is walked
departs from the start of the leg by the paid fraction of that turn exactly if the leg does not
cross the 180th meridian; then whatever is snapped to it or driven along it is on the measured arc.
On a leg that crosses the meridian, all points but the ends are off the arc. -/
theorem walks_the_measured_arc
    (hsin : Function.Antiperiodic (Transcendental.sin : K → K) Arith.pi) :
    (∀ a b : Geo.Point K, a.isValid = true → b.isValid = true →
      (∃ δ, Geo.Turn a.lng b.lng δ ∧
        ∀ ε, Geo.Turn a.lng b.lng ε → ε = δ ∨ ε = -δ ∧ |δ| = 180) ∧
      (∀ δ, Geo.Turn a.lng b.lng δ → a.distance b = a.distance ⟨b.lat, a.lng + δ⟩) ∧
      (∀ f ∈ Set.Icc (0 : K) 1,
        ((∃ δ, Geo.Turn a.lng b.lng δ ∧ (a.towards b f).lng - a.lng = f * δ) ↔
          (a.Crosses b → f = 0)) ∧
        ((a.towards b f).OnArc a b ↔ (a.Crosses b → f = 0 ∨ f = 1))) ∧
      (¬ a.Crosses b → ∀ p : Geo.Point K, (p.project a b).point.OnArc a b)) ∧
    ∀ (s : Settings K) (table : Option (SpeedTable K)) (r : Route K) (now : Timestamp)
      (l after : Location K) (c : Cursor K) (i : ℕ),
      l.fixTime ≠ Timestamp.never → l.fixTime < now → snap? r l.position? = some c →
      advance s (some r) table now l = .ok (.enRoute i, after) →
      ∃ g ∈ legsFrom r c, g.item = i ∧ ∃ p, after.position? = some p ∧
        (¬ g.start.Crosses g.goal → p.OnArc g.start g.goal) := by
  refine ⟨fun a b ha hb => ⟨?_, ?_, ?_, ?_⟩, ?_⟩
  · obtain ⟨δ, hδ⟩ := Geo.Turn.exists_turn a.lng b.lng
    exact ⟨δ, hδ, fun ε hε => hδ.eq_or_eq_neg hε⟩
  · exact fun δ hδ => Geo.Point.distance_eq_of_turn hsin hδ
  · exact fun f hf =>
      ⟨Geo.Point.exists_turn_eq_departure_iff, Geo.Point.onArc_towards_iff ha hb hf⟩
  · exact fun h p => Geo.Point.onArc_towards h (Geo.footFraction_mem _ p a b)
  · intro s table r now l after c i hfix hnow hc h
    obtain ⟨road, hroad⟩ := onRoute_of_snap? hc
    rcases advanceBy_on_leg_or_at_end Geo.Point.distance s table hfix hnow hc hroad with
      ⟨g, hg, -, f, hf, after', hafter, hposition⟩ | ⟨g, -, after', hafter, -⟩ <;>
    cases h.symm.trans hafter
    exact ⟨g, hg, rfl, _, hposition,
      fun hcross => Geo.Point.onArc_towards hcross ⟨hf.1, hf.2.le⟩⟩

/-- Real trigonometry, turned so that the constant for the circle stands for half of it exactly. -/
noncomputable abbrev exactCircle : Transcendental ℝ where
  sqrt := Real.sqrt
  sin x := Real.sin (x * (Real.pi / 3.141592653589793))
  cos x := Real.cos (x * (Real.pi / 3.141592653589793))
  atan2 y x := Complex.arg ⟨x, y⟩ * (3.141592653589793 / Real.pi)
  hypot x y := Real.sqrt (x * x + y * y)

/-- Two degrees of longitude are charged for across the meridian, but half of the leg is on the
other side of the globe. -/
theorem walks_the_measured_arc_across :
    letI := exactCircle
    let a : Geo.Point ℝ := ⟨10, 179⟩
    let b : Geo.Point ℝ := ⟨20, -179⟩
    Function.Antiperiodic (Transcendental.sin : ℝ → ℝ) Arith.pi ∧
      a.isValid = true ∧ b.isValid = true ∧ a.distance b = a.distance ⟨20, 181⟩ ∧
      ¬ (a.towards b (1 / 2)).OnArc a b := by
  let _ : Transcendental ℝ := exactCircle
  intro a b
  have hsin : Function.Antiperiodic (Transcendental.sin : ℝ → ℝ) Arith.pi := by
    intro x
    change Real.sin ((x + 3.141592653589793) * (Real.pi / 3.141592653589793)) =
      -Real.sin (x * (Real.pi / 3.141592653589793))
    rw [add_mul, mul_div_cancel₀ _ (by norm_num), Real.sin_add_pi]
  have ha : a.isValid = true := by norm_num [a, Geo.Point.isValid_iff, abs_le]
  have hb : b.isValid = true := by norm_num [b, Geo.Point.isValid_iff, abs_le]
  have hturn : Geo.Turn a.lng b.lng 2 := ⟨⟨-1, by norm_num [a, b]⟩, by norm_num [abs_le]⟩
  have hcross : a.Crosses b := ⟨by norm_num [a, b, lt_abs]⟩
  obtain ⟨-, hdistance, hinner, -⟩ := (walks_the_measured_arc hsin).1 a b ha hb
  refine ⟨hsin, ha, hb, ?_, ?_⟩
  · have h181 : a.lng + 2 = 181 := by norm_num [a]
    exact h181 ▸ hdistance 2 hturn
  · have hhalf : (1 / 2 : ℝ) ∈ Set.Icc (0 : ℝ) 1 := by norm_num
    rw [(hinner _ hhalf).2]
    norm_num [hcross]

/-- From 179° east to 179° west, half of the way is at the zero meridian: no turn between them leads
there, and it is not on the arc. -/
theorem towards_leaves_the_arc :
    let a : Geo.Point ℝ := ⟨0, 179⟩
    let b : Geo.Point ℝ := ⟨0, -179⟩
    a.isValid = true ∧ b.isValid = true ∧
      (¬ ∃ δ, Geo.Turn a.lng b.lng δ ∧ (a.towards b (1 / 2)).lng - a.lng = 1 / 2 * δ) ∧
      ¬ (a.towards b (1 / 2)).OnArc a b := by
  intro a b
  have ha : a.isValid = true := by norm_num [a, Geo.Point.isValid_iff, abs_le]
  have hb : b.isValid = true := by norm_num [b, Geo.Point.isValid_iff, abs_le]
  have hcross : a.Crosses b := ⟨by norm_num [a, b, lt_abs]⟩
  refine ⟨ha, hb, ?_, Geo.Point.not_onArc_towards ha hb hcross (by norm_num)⟩
  rw [Geo.Point.exists_turn_eq_departure_iff]
  norm_num [hcross]

end Reckoning
end Whereabouts
