import Whereabouts.Geo.Segment
import Whereabouts.Proofs.Binary64.Quotient
import Whereabouts.Proofs.Geo.Bearing

/-! Points between two others in binary64. They leave the globe at most by rounding, unless they are
no points at all. -/
namespace Whereabouts.Geo
open Binary64

/-- A finite number that is at most as large as the limit. -/
def Bounded (limit : ℚ) (x : Float) : Prop := x.isFinite = true ∧ |value x| ≤ limit

/-- A part of a whole, up to rounding. -/
structure IsPart (f : Float) : Prop where
  isFinite : f.isFinite = true
  nonneg : 0 ≤ value f
  le : value f ≤ 1 + 2 ^ (-53 : ℤ)

variable {x y f : Float} {limit margin : ℚ}

lemma bounded_of_between {high : Float} {n k : Nat} {hn : 0 < n * 2 ^ k}
    (hhigh : high.toModel.unpack = .finite .positive (n * 2 ^ k) (-k) hn)
    (hx : x.isFinite = true) (hlow : -high ≤ x) (hle : x ≤ high) : Bounded n x := by
  have hfinite := (within_of_finite hhigh (canonical_of_unpack hhigh).most).isFinite
  obtain ⟨hneg, hvalue⟩ := value_neg hfinite
  rw [le_iff_value hneg hx, hvalue, value_of_whole hhigh] at hlow
  rw [le_iff_value hx hfinite, value_of_whole hhigh] at hle
  exact ⟨hx, abs_le.mpr ⟨hlow, hle⟩⟩

/-- Beyond the end of a line by a small part of its length. -/
lemma abs_between_le {a b t excess : ℚ} (ha : |a| ≤ limit) (hb : |b| ≤ limit) (ht : 0 ≤ t)
    (hexcess : 0 ≤ excess) (hle : t ≤ 1 + excess) :
    |a + (b - a) * t| ≤ limit + 2 * limit * excess := by
  have hlimit : 0 ≤ limit := (abs_nonneg a).trans ha
  rcases le_total t 1 with hone | hone
  · calc |a + (b - a) * t| = |a * (1 - t) + b * t| := by
          congr 1
          ring
      _ ≤ |a * (1 - t)| + |b * t| := abs_add_le _ _
      _ = |a| * (1 - t) + |b| * t := by
          rw [abs_mul, abs_mul, abs_of_nonneg ht, abs_of_nonneg (sub_nonneg.mpr hone)]
      _ ≤ limit * (1 - t) + limit * t := by
          have hrest : 0 ≤ 1 - t := sub_nonneg.mpr hone
          gcongr
      _ ≤ limit + 2 * limit * excess := by
          have : 0 ≤ limit * excess := by positivity
          linarith
  · calc |a + (b - a) * t| = |b + (b - a) * (t - 1)| := by
          congr 1
          ring
      _ ≤ |b| + |(b - a) * (t - 1)| := abs_add_le _ _
      _ = |b| + |b - a| * (t - 1) := by rw [abs_mul, abs_of_nonneg (sub_nonneg.mpr hone)]
      _ ≤ limit + (limit + limit) * excess := by
          have hbeyond : t - 1 ≤ excess := by linarith
          have hlength : |b - a| ≤ limit + limit := (abs_sub b a).trans (add_le_add hb ha)
          have hrest : 0 ≤ t - 1 := sub_nonneg.mpr hone
          gcongr
      _ = limit + 2 * limit * excess := by ring

/-- A number between two others, computed from one of them. Each of the three operations rounds, and
the part may be too large by a rounding. -/
lemma bounded_between (hlimit : limit ≤ 200) (hx : Bounded limit x) (hy : Bounded limit y)
    (hf : IsPart f) : Bounded (limit + 2 ^ (-41 : ℤ)) (x + (y - x) * f) := by
  have hlength : |value y - value x| ≤ 2 * limit :=
    (abs_sub _ _).trans (by linarith [hx.2, hy.2])
  obtain ⟨hd, hdnear⟩ := abs_value_sub_sub_le (k := -44) hy.1 hx.1
    (hlength.trans_lt (by norm_num; linarith)) (by decide) (by decide)
  have hshift : |(value (y - x) - (value y - value x)) * value f| ≤
      2 ^ (-44 : ℤ) * (1 + 2 ^ (-53 : ℤ)) := by
    rw [abs_mul, abs_of_nonneg hf.nonneg]
    exact mul_le_mul hdnear hf.le hf.nonneg (by positivity)
  have hexact := abs_between_le hx.2 hy.2 hf.nonneg (by positivity) hf.le
  have hproduct : |value (y - x) * value f| < 2 ^ (-44 + 53 : ℤ) := by
    have hpart : |(value y - value x) * value f| ≤ 2 * limit * (1 + 2 ^ (-53 : ℤ)) := by
      rw [abs_mul, abs_of_nonneg hf.nonneg]
      exact mul_le_mul hlength hf.le hf.nonneg ((abs_nonneg _).trans hlength)
    have hsplit : value (y - x) * value f = (value y - value x) * value f +
        (value (y - x) - (value y - value x)) * value f := by ring
    rw [hsplit]
    refine (abs_add_le _ _).trans_lt ((add_le_add hpart hshift).trans_lt ?_)
    norm_num
    linarith
  obtain ⟨hp, hpnear⟩ := abs_value_mul_sub_le hd hf.isFinite hproduct (by decide) (by decide)
  have hsum : |value x + value ((y - x) * f)| ≤ limit + 2 * limit * 2 ^ (-53 : ℤ) +
      2 ^ (-44 : ℤ) * (1 + 2 ^ (-53 : ℤ)) + 2 ^ (-44 : ℤ) := by
    have hsplit : value x + value ((y - x) * f) = value x + (value y - value x) * value f +
        (value (y - x) - (value y - value x)) * value f +
          (value ((y - x) * f) - value (y - x) * value f) := by ring
    rw [hsplit]
    exact (abs_add_three _ _ _).trans (add_le_add (add_le_add hexact hshift) hpnear)
  obtain ⟨hs, hsnear⟩ := abs_value_add_sub_le (k := -44) hx.1 hp
    (hsum.trans_lt (by norm_num; linarith)) (by decide) (by decide)
  have hrounded := abs_add_le (value x + value ((y - x) * f))
    (value (x + (y - x) * f) - (value x + value ((y - x) * f)))
  rw [add_sub_cancel] at hrounded
  refine ⟨hs, hrounded.trans ((add_le_add hsum hsnear).trans ?_)⟩
  norm_num
  linarith

lemma isPart_zero : IsPart 0.0 := ⟨isFinite_zero, value_zero.ge, by rw [value_zero]; positivity⟩

/-- A fraction is limited to a part of the whole if it is a number. -/
lemma isNaN_or_isPart_unitClamp (x : Float) :
    (Arith.unitClamp x).isNaN = true ∨ IsPart (Arith.unitClamp x) := by
  have hvalue : value 1.0 = 1 := by
    rw [value_of_finite unpack_one]
    norm_num [Float.Model.UnpackedFloat.Sign.apply]
  have hunit : (1 : ℚ) ≤ 1 + 2 ^ (-53 : ℤ) := le_add_of_nonneg_right (by positivity)
  unfold Arith.unitClamp
  split_ifs with hneg hone
  · exact .inr isPart_zero
  · exact .inr ⟨by decide, by rw [hvalue]; exact zero_le_one, by rw [hvalue]; exact hunit⟩
  · by_cases hx : x.isNaN = true
    · exact .inl hx
    · have hnumber := Bool.eq_false_iff.mpr hx
      have hzero : 0.0 ≤ x := le_of_not_lt hnumber (by decide) hneg
      have hle : x ≤ 1.0 := le_of_not_lt (by decide) hnumber hone
      have hwithin : Within (-52) 1.0 := Int.le_refl _
      have hfinite : x.isFinite = true :=
        (within_of_between (within_of_zero (s := .positive) rfl) hwithin hzero hle).isFinite
      rw [le_iff_value isFinite_zero hfinite, value_zero] at hzero
      rw [le_iff_value hfinite (by decide), hvalue] at hle
      exact .inr ⟨hfinite, hzero, hle.trans hunit⟩

variable {p q : Point Float}

/-- A point that is finite and leaves the globe at most by a margin. -/
structure Point.NearGlobe (margin : ℚ) (p : Point Float) : Prop where
  lat : Bounded (90 + margin) p.lat
  lng : Bounded (180 + margin) p.lng

lemma unpack_ninety : (90.0 : Float).toModel.unpack =
    .finite .positive (90 * 2 ^ 46) (-46) (Nat.mul_pos (by decide) (Nat.two_pow_pos 46)) :=
  rfl

lemma unpack_halfCircle : (180.0 : Float).toModel.unpack =
    .finite .positive (180 * 2 ^ 45) (-45) (Nat.mul_pos (by decide) (Nat.two_pow_pos 45)) :=
  rfl

lemma Point.nearGlobe_of_isValid (hp : p.isValid = true) : p.NearGlobe 0 := by
  simp only [Point.isValid, Bool.and_eq_true, decide_eq_true_eq, and_assoc] at hp
  obtain ⟨hlat, hlng, hsouth, hnorth, hwest, heast⟩ := hp
  have hlat := bounded_of_between unpack_ninety hlat hsouth hnorth
  have hlng := bounded_of_between unpack_halfCircle hlng hwest heast
  exact ⟨by simpa using hlat, by simpa using hlng⟩

namespace Point

lemma NearGlobe.mono {most : ℚ} (hp : p.NearGlobe margin) (h : margin ≤ most) :
    p.NearGlobe most :=
  ⟨⟨hp.lat.1, hp.lat.2.trans (by linarith)⟩, ⟨hp.lng.1, hp.lng.2.trans (by linarith)⟩⟩

lemma nearGlobe_towards (hmargin : margin ≤ 1) (hp : p.NearGlobe margin) (hq : q.NearGlobe margin)
    (hf : IsPart f) : (p.towards q f).NearGlobe (margin + 2 ^ (-41 : ℤ)) := by
  have hlat := bounded_between (by linarith) hp.lat hq.lat hf
  have hlng := bounded_between (by linarith) hp.lng hq.lng hf
  rw [add_assoc] at hlat hlng
  exact ⟨hlat, hlng⟩

lemma isNaN_towards (hf : f.isNaN = true) : (p.towards q f).lat.isNaN = true := by
  change (p.lat + (q.lat - p.lat) * f).isNaN = true
  rw [eq_nan hf, mul_nan, add_nan]
  rfl

/-- The foot of a perpendicular on a segment is no point, or it is near the globe. -/
lemma isNaN_or_nearGlobe_project (m : Elementary) (p : Point Float) {a b : Point Float}
    (ha : a.isValid = true) (hb : b.isValid = true) :
    let _ := m.arith
    (p.project a b).point.lat.isNaN = true ∨ (p.project a b).point.NearGlobe (2 ^ (-41 : ℤ)) := by
  intro arith
  have hfoot (scale : Float) : (footFraction scale p a b).isNaN = true ∨
      IsPart (footFraction scale p a b) := by
    unfold footFraction
    dsimp only
    split_ifs
    · exact isNaN_or_isPart_unitClamp _
    · exact .inr isPart_zero
  rcases hfoot (m.cos (Arith.radians a.lat)) with hnan | hpart
  · exact .inl (isNaN_towards hnan)
  · have hnear := nearGlobe_towards zero_le_one (nearGlobe_of_isValid ha) (nearGlobe_of_isValid hb)
      hpart
    rw [zero_add] at hnear
    exact .inr hnear

/-- From what is no point, nothing is at a distance. -/
lemma isNaN_distance {m : Elementary} (hm : m.Strict) (hp : p.lat.isNaN = true) (q : Point Float) :
    let _ := m.arith
    (p.distance q).isNaN = true := by
  intro arith
  have hturn : (Arith.radians q.lat - Arith.radians p.lat) / 2.0 = nan := by
    rw [eq_nan hp]
    change (Arith.radians q.lat - nan) / 2.0 = nan
    rw [sub_nan, nan_div]
  have hsin : m.sin nan = nan := eq_nan (hm.sin_of_infinite nan rfl)
  have hhaversine : p.haversine q = nan := by
    change m.sin ((Arith.radians q.lat - Arith.radians p.lat) / 2.0) *
      m.sin ((Arith.radians q.lat - Arith.radians p.lat) / 2.0) + _ = nan
    rw [hturn, hsin, nan_mul, nan_add]
  have hatan : m.atan2 (p.haversine q).sqrt (1.0 - p.haversine q).sqrt = nan := by
    rw [hhaversine, sqrt_nan]
    exact eq_nan (hm.atan2_of_nan _ _ (.inl rfl))
  change (2.0 * earthRadius *
    m.atan2 (p.haversine q).sqrt (1.0 - p.haversine q).sqrt).isNaN = true
  rw [hatan, mul_nan]
  rfl

lemma inCircle_bearing_of_nearGlobe {m : Elementary} (hm : m.Documented) (hmargin : margin ≤ 1)
    (hp : p.NearGlobe margin) (hq : q.NearGlobe margin) :
    let _ := m.arith
    InCircle (p.bearing q) := by
  refine inCircle_bearing hm hp.lat.1 hq.lat.1 ?_
  have hlength : |value q.lng - value p.lng| < 2 ^ (-44 + 53 : ℤ) := by
    refine ((abs_sub _ _).trans (add_le_add hq.lng.2 hp.lng.2)).trans_lt ?_
    norm_num
    linarith
  exact (abs_value_sub_sub_le hq.lng.1 hp.lng.1 hlength (by decide) (by decide)).1

end Point
end Whereabouts.Geo
