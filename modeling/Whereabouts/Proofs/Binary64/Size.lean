import Whereabouts.Proofs.Binary64.Order
import Whereabouts.Proofs.Binary64.Positive

/-! How large the results of arithmetic on finite numbers are, and that no NaN comes from adding
finite numbers up. -/
namespace Whereabouts.Binary64
open Float.Model Float.Model.UnpackedFloat

/-- A finite number below `2 ^ (k + 53)`. -/
def Within (k : Int) (x : Float) : Prop :=
  match x.toModel.unpack with
  | .zero _ => True
  | .finite _ _ e _ => e ≤ k
  | _ => False

variable {x y : Float} {j k : Int}

lemma Within.cases (h : Within k x) : (∃ s, x.toModel.unpack = .zero s) ∨
    ∃ s m e hm, x.toModel.unpack = .finite s m e hm ∧ Canonical m e ∧ e ≤ k := by
  unfold Within at h
  split at h
  · exact .inl ⟨_, ‹_›⟩
  · exact .inr ⟨_, _, _, _, ‹_›, canonical_of_unpack ‹_›, h⟩
  · cases h

lemma within_of_zero {s : Sign} (h : x.toModel.unpack = .zero s) : Within k x := by
  rw [Within, h]
  trivial

lemma within_of_finite {s : Sign} {m : Nat} {e : Int} {hm : 0 < m}
    (h : x.toModel.unpack = .finite s m e hm) (he : e ≤ k) : Within k x := by
  rw [Within, h]
  exact he

lemma Within.isFinite (h : Within k x) : x.isFinite = true := by
  change x.toModel.unpack.isFinite = true
  rcases h.cases with ⟨s, hx⟩ | ⟨s, m, e, hm, hx, -, he⟩ <;> rw [hx] <;> rfl

lemma within_of_isFinite (h : x.isFinite = true) : Within 971 x := by
  change x.toModel.unpack.isFinite = true at h
  cases hx : x.toModel.unpack with
  | notANumber => rw [hx] at h; cases h
  | infinity s => rw [hx] at h; cases h
  | zero s => exact within_of_zero hx
  | finite s m e hm => exact within_of_finite hx (canonical_of_unpack hx).most

lemma not_isNaN_of_isFinite (h : x.isFinite = true) : x.isNaN = false := by
  change x.toModel.unpack.isFinite = true at h
  change x.toModel.unpack.isNaN = false
  cases hx : x.toModel.unpack <;> rw [hx] at h <;> first | rfl | cases h

lemma within_iff_place (hx : x.isNaN = false) : Within k x ↔
    toLex (-1, toLex (-k - 1, 0)) < place x.toModel.unpack ∧
      place x.toModel.unpack < toLex (1, toLex (k + 1, 0)) := by
  change x.toModel.unpack.isNaN = false at hx
  rw [Within]
  cases hu : x.toModel.unpack with
  | notANumber => rw [hu] at hx; cases hx
  | zero s => simp [place, Prod.Lex.toLex_lt_toLex]
  | infinity s => cases s <;> simp [place, Prod.Lex.toLex_lt_toLex]
  | finite s m e hm =>
    cases s <;> simp [place, Prod.Lex.toLex_lt_toLex]

/-- What lies between two numbers of that size is no larger. -/
lemma within_of_between {low high : Float} (hlow : Within k low) (hhigh : Within k high)
    (h : low ≤ x) (h' : x ≤ high) : Within k x := by
  obtain ⟨hnlow, hx⟩ := not_isNaN_of_le h
  have hnhigh := (not_isNaN_of_le h').2
  refine (within_iff_place hx).mpr ⟨?_, ?_⟩
  · exact ((within_iff_place hnlow).mp hlow).1.trans_le ((le_iff_place hnlow hx).mp h)
  · exact ((le_iff_place hx hnhigh).mp h').trans_lt ((within_iff_place hnhigh).mp hhigh).2

variable {s : Sign} {m : Nat} {e : Int}

/-- What rounding leaves, unless it is too large. -/
lemma within_round {r : Float} {acc : Accuracy} (hbits : 2 ^ 52 ≤ m ∨ e ≤ -1074)
    (hr : r.toModel.unpack =
      unpack .binary64 (UnpackedFloat.pack .binary64 (roundWithAccuracy .binary64 s m e acc)))
    (hlow : -1073 ≤ k) (hk : totalExponent m e - 52 ≤ k) (hhigh : k ≤ 971) : Within k r := by
  rcases roundWithAccuracy_full s acc hbits with
    ⟨hzero, -⟩ | ⟨m', e', hm', hrounded, hlt, hfull, hleast, he⟩
  · rw [hzero] at hr
    exact within_of_zero (hr.trans (unpack_pack_zero s))
  · rw [hrounded, unpack_pack ⟨hlt, by omega, by omega, hfull⟩] at hr
    exact within_of_finite hr (by omega)

/-- Rounding gives no NaN. -/
lemma isNaN_round {acc : Accuracy} (hbits : 2 ^ 52 ≤ m ∨ e ≤ -1074) :
    (unpack .binary64 (UnpackedFloat.pack .binary64
      (roundWithAccuracy .binary64 s m e acc))).isNaN = false := by
  rcases roundWithAccuracy_full s acc hbits with
    ⟨hzero, -⟩ | ⟨m', e', hm', hrounded, hlt, hfull, hleast, -⟩
  · rw [hzero, unpack_pack_zero]
    rfl
  · rw [hrounded]
    by_cases hmost : e' ≤ 971
    · rw [unpack_pack ⟨hlt, by omega, hmost, hfull⟩]
      rfl
    · rw [unpack_pack_overflow (by omega)]
      rfl

/-- What has a positive sign is not rounded below zero. -/
lemma zero_le_round {r : Float} {acc : Accuracy} (hbits : 2 ^ 52 ≤ m ∨ e ≤ -1074)
    (hr : r.toModel.unpack = unpack .binary64
      (UnpackedFloat.pack .binary64 (roundWithAccuracy .binary64 .positive m e acc))) :
    0.0 ≤ r := by
  rw [zero_le_iff_compare]
  rcases roundWithAccuracy_full .positive acc hbits with
    ⟨hzero, -⟩ | ⟨m', e', hm', hrounded, hlt, hfull, hleast, -⟩
  · rw [hr, hzero]
    rfl
  · rw [hr, hrounded]
    by_cases hmost : e' ≤ 971
    · rw [unpack_pack ⟨hlt, by omega, hmost, hfull⟩]
      rfl
    · rw [unpack_pack_overflow (by omega)]
      rfl

lemma log2_shiftLeft (hm : m ≠ 0) (n : Nat) : (m <<< n).log2 = m.log2 + n := by
  rw [Nat.shiftLeft_eq, Nat.log2_eq_iff (Nat.ne_of_gt (Nat.mul_pos (Nat.pos_of_ne_zero hm)
    (Nat.two_pow_pos n)))]
  refine ⟨?_, ?_⟩
  · rw [Nat.pow_add]
    exact Nat.mul_le_mul_right _ (Nat.log2_self_le hm)
  · rw [show m.log2 + n + 1 = (m.log2 + 1) + n by omega, Nat.pow_add]
    exact Nat.mul_lt_mul_of_pos_right Nat.lt_log2_self (Nat.two_pow_pos n)

/-- A number is given the bits that rounding needs, and stays as large as it is. -/
lemma decreaseExponent_full (hm : m ≠ 0) :
    let shifted := decreaseExponent m e (Format.binary64.targetExponent (totalExponent m e))
    (2 ^ 52 ≤ shifted.1 ∨ shifted.2 ≤ -1074) ∧
      totalExponent shifted.1 shifted.2 = totalExponent m e := by
  intro shifted
  have htarget : Format.binary64.targetExponent (totalExponent m e) =
      max (m.log2 + 1 + e - 53) (-1074) := rfl
  set n := (e - Format.binary64.targetExponent (totalExponent m e)).toNat with hn
  have hmantissa : shifted.1 = m <<< n := rfl
  have hexponent : shifted.2 = e - n := rfl
  have hlog := log2_shiftLeft hm n
  refine ⟨?_, ?_⟩
  · by_cases hleast : shifted.2 ≤ -1074
    · exact .inr hleast
    · left
      rw [hmantissa, ← Nat.le_log2 (by
        rw [Nat.shiftLeft_eq]
        exact Nat.ne_of_gt (Nat.mul_pos (Nat.pos_of_ne_zero hm) (Nat.two_pow_pos n)))]
      omega
  · change ((shifted.1.log2 : Nat) : Int) + 1 + shifted.2 = m.log2 + 1 + e
    rw [hmantissa, hexponent, hlog]
    omega

lemma round_full (s : Sign) {n : Nat} (hm : m ≠ 0) (hlt : m < 2 ^ n) :
    ∃ m' e', UnpackedFloat.round .binary64 s m e = roundWithAccuracy .binary64 s m' e' .exact ∧
      (2 ^ 52 ≤ m' ∨ e' ≤ -1074) ∧ totalExponent m' e' ≤ n + e := by
  obtain ⟨hbits, htotal⟩ := decreaseExponent_full (e := e) hm
  refine ⟨_, _, rfl, hbits, htotal.trans_le ?_⟩
  have hlog := (Nat.log2_lt hm).mpr hlt
  change ((m.log2 : Nat) : Int) + 1 + e ≤ n + e
  omega

lemma normalize_of_pos {a : Int} (ha : 0 < a) :
    UnpackedFloat.normalize .binary64 a e .positive =
      UnpackedFloat.round .binary64 .positive a.natAbs e := by
  rw [UnpackedFloat.normalize, Int.compare_eq_gt.mpr ha, show a.toNat = a.natAbs by omega]

lemma normalize_full {a : Int} {n : Nat} (ha : a.natAbs < 2 ^ n) :
    UnpackedFloat.normalize .binary64 a e .positive = .zero .positive ∨
    ∃ s m' e', UnpackedFloat.normalize .binary64 a e .positive =
        roundWithAccuracy .binary64 s m' e' .exact ∧ (2 ^ 52 ≤ m' ∨ e' ≤ -1074) ∧
      totalExponent m' e' ≤ n + e := by
  rcases lt_trichotomy a 0 with hneg | rfl | hpos
  · rw [UnpackedFloat.normalize, Int.compare_eq_lt.mpr hneg, show (-a).toNat = a.natAbs by omega]
    exact .inr ⟨.negative, round_full .negative (Int.natAbs_ne_zero.mpr hneg.ne) ha⟩
  · exact .inl rfl
  · rw [normalize_of_pos hpos]
    exact .inr ⟨.positive, round_full .positive (Int.natAbs_ne_zero.mpr hpos.ne') ha⟩

/-- A product has the bits that rounding needs. -/
lemma Canonical.mul_full {m n : Nat} {e f : Int} (hx : Canonical m e) (hy : Canonical n f)
    (hm : 0 < m) (hn : 0 < n) : 2 ^ 52 ≤ m * n ∨ e + f ≤ -1074 := by
  rcases hx.full with hfull | rfl
  · exact .inl (hfull.trans (Nat.le_mul_of_pos_right m hn))
  · rcases hy.full with hfull | rfl
    · exact .inl (hfull.trans (Nat.le_mul_of_pos_left n hm))
    · exact .inr (by omega)

lemma within_mul {i : Int} (hx : Within i x) (hy : Within j y) (hlow : -1073 ≤ k)
    (hk : i + j + 54 ≤ k) (hhigh : k ≤ 971) : Within k (x * y) := by
  have hxy := unpack_mul x y
  rcases hx.cases with ⟨s, hx⟩ | ⟨s, m, e, hm, hx, hcx, he⟩ <;>
    rcases hy.cases with ⟨t, hy⟩ | ⟨t, n, f, hn, hy, hcy, hf⟩ <;> rw [hx, hy] at hxy
  case inr.inr =>
    have hlog : (m * n).log2 + 1 ≤ 106 := by
      refine log2_le_of_lt_two_pow ?_ (by decide)
      exact (Nat.mul_lt_mul'' hcx.lt hcy.lt).trans_eq (Nat.pow_add 2 53 53).symm
    refine within_round (hcx.mul_full hcy hm hn) hxy hlow ?_ hhigh
    change (((m * n).log2 : Nat) : Int) + 1 + (e + f) - 52 ≤ k
    omega
  all_goals exact within_of_zero (hxy.trans (unpack_pack_zero (s * t)))

/-- The inverse of a number from one on. -/
lemma within_inverse {r : Float} (hone : 1.0 ≤ r) : Within (-51) (1.0 / r) := by
  have hquotient := unpack_div 1.0 r
  have hnumber : r.toModel.unpack.isNaN = false := (not_isNaN_of_le hone).2
  by_cases hfinite : r.isFinite = true
  · obtain ⟨m, e, hm, hr, hlow, hhigh, hleast, hmost⟩ := unpack_of_one_le hfinite hone
    obtain ⟨q, target, acc, hcore, hq, hbits, -, htotal⟩ := divCore_one hlow hhigh hleast hmost
    rw [unpack_one, hr, UnpackedFloat.div] at hquotient
    simp only [hcore] at hquotient
    exact within_round hbits hquotient (by decide) (by omega) (by decide)
  · change ¬ r.toModel.unpack.isFinite = true at hfinite
    cases hr : r.toModel.unpack with
    | notANumber => rw [hr] at hnumber; cases hnumber
    | zero s => rw [hr] at hfinite; exact absurd rfl hfinite
    | finite s m e hm => rw [hr] at hfinite; exact absurd rfl hfinite
    | infinity s =>
      rw [unpack_one, hr] at hquotient
      exact within_of_zero (hquotient.trans (unpack_pack_zero _))

/-- Mantissas on a common exponent. -/
lemma aligned_lt {m : Nat} {e least : Int} (h : Canonical m e) {n : Nat}
    (hn : 53 + (e - least) ≤ n) (hleast : least ≤ e) : (decreaseExponent m e least).1 < 2 ^ n := by
  change m <<< (e - least).toNat < 2 ^ n
  rw [Nat.shiftLeft_eq]
  calc m * 2 ^ (e - least).toNat < 2 ^ 53 * 2 ^ (e - least).toNat :=
        Nat.mul_lt_mul_of_pos_right h.lt (Nat.two_pow_pos _)
    _ = 2 ^ (53 + (e - least).toNat) := (Nat.pow_add ..).symm
    _ ≤ 2 ^ n := Nat.pow_le_pow_right (by decide) (by omega)

lemma natAbs_apply (s : Sign) (m : Nat) : (s.apply m).natAbs = m := by
  cases s <;> simp [Sign.apply]

/-- The exact sum and difference of two finite numbers have one more bit than the larger one. -/
lemma natAbs_aligned_lt {s t : Sign} {m n : Nat} {e f : Int} (hx : Canonical m e)
    (hy : Canonical n f) :
    let a := s.apply (decreaseExponent m e (min e f)).1
    let b := t.apply (decreaseExponent n f (min e f)).1
    let bits := (54 + max e f - min e f).toNat
    (a + b).natAbs < 2 ^ bits ∧ (a - b).natAbs < 2 ^ bits := by
  intro a b bits
  obtain ⟨half, hhalf⟩ : ∃ half, bits = half + 1 := ⟨bits - 1, by omega⟩
  have ha : a.natAbs < 2 ^ half := by
    rw [natAbs_apply]
    exact aligned_lt hx (by omega) (min_le_left e f)
  have hb : b.natAbs < 2 ^ half := by
    rw [natAbs_apply]
    exact aligned_lt hy (by omega) (min_le_right e f)
  rw [hhalf, Nat.pow_succ]
  omega

/-- The sum of two finite numbers before it is packed. -/
lemma add_finite_full {s t : Sign} {m n : Nat} {e f : Int} {hm : 0 < m} {hn : 0 < n}
    (hx : Canonical m e) (hy : Canonical n f) :
    let sum := add .binary64 (.finite s m e hm) (.finite t n f hn)
    sum = .zero .positive ∨ ∃ s' m' e', sum = roundWithAccuracy .binary64 s' m' e' .exact ∧
      (2 ^ 52 ≤ m' ∨ e' ≤ -1074) ∧ totalExponent m' e' ≤ 54 + max e f := by
  intro sum
  rcases normalize_full (e := min e f) (natAbs_aligned_lt (s := s) (t := t) hx hy).1 with
    h | ⟨s', m', e', h, hbits, htotal⟩
  · exact .inl h
  · exact .inr ⟨s', m', e', h, hbits, by omega⟩

/-- The difference of two finite numbers before it is packed. -/
lemma sub_finite_full {s t : Sign} {m n : Nat} {e f : Int} {hm : 0 < m} {hn : 0 < n}
    (hx : Canonical m e) (hy : Canonical n f) :
    let difference := sub .binary64 (.finite s m e hm) (.finite t n f hn)
    difference = .zero .positive ∨
      ∃ s' m' e', difference = roundWithAccuracy .binary64 s' m' e' .exact ∧
        (2 ^ 52 ≤ m' ∨ e' ≤ -1074) ∧ totalExponent m' e' ≤ 54 + max e f := by
  intro difference
  rcases normalize_full (e := min e f) (natAbs_aligned_lt (s := s) (t := t) hx hy).2 with
    h | ⟨s', m', e', h, hbits, htotal⟩
  · exact .inl h
  · exact .inr ⟨s', m', e', h, hbits, by omega⟩

lemma within_sub {i : Int} (hx : Within i x) (hy : Within j y) (hlow : -1073 ≤ k)
    (hk : max i j + 2 ≤ k) (hhigh : k ≤ 971) : Within k (x - y) := by
  have hxy := unpack_sub x y
  rcases hx.cases with ⟨s, hx⟩ | ⟨s, m, e, hm, hx, hcx, he⟩ <;>
    rcases hy.cases with ⟨t, hy⟩ | ⟨t, n, f, hn, hy, hcy, hf⟩ <;> rw [hx, hy] at hxy
  · refine within_of_zero (s := if s == -t then s else .positive) (hxy.trans ?_)
    cases s <;> cases t <;> rfl
  · exact within_of_finite (hxy.trans (unpack_pack hcy)) (by omega)
  · exact within_of_finite (hxy.trans (unpack_pack hcx)) (by omega)
  · rcases sub_finite_full hcx hcy with h | ⟨s', m', e', h, hbits, htotal⟩
    · rw [h] at hxy
      exact within_of_zero (hxy.trans (unpack_pack_zero _))
    · rw [h] at hxy
      exact within_round hbits hxy hlow (by omega) hhigh

/-- Adding a finite number to a number gives no NaN. -/
lemma isNaN_add (hx : x.isNaN = false) (hy : y.isFinite = true) : (x + y).isNaN = false := by
  change x.toModel.unpack.isNaN = false at hx
  change (x + y).toModel.unpack.isNaN = false
  rw [unpack_add]
  cases hu : x.toModel.unpack with
  | notANumber => rw [hu] at hx; cases hx
  | infinity s =>
    have hsum : add .binary64 (.infinity s) y.toModel.unpack = .infinity s := by
      rcases (within_of_isFinite hy).cases with ⟨t, hy⟩ | ⟨t, n, f, hn, hy, -⟩ <;> rw [hy] <;> rfl
    rw [hsum, unpack_pack_infinity]
    rfl
  | zero s =>
    rcases (within_of_isFinite hy).cases with ⟨t, hy⟩ | ⟨t, n, f, hn, hy, hcy, -⟩ <;> rw [hy]
    · cases s <;> cases t <;> rfl
    · have hsum : add .binary64 (.zero s) (.finite t n f hn) = .finite t n f hn := rfl
      rw [hsum, unpack_pack hcy]
      rfl
  | finite s m e hm =>
    have hcx := canonical_of_unpack hu
    rcases (within_of_isFinite hy).cases with ⟨t, hy⟩ | ⟨t, n, f, hn, hy, hcy, -⟩ <;> rw [hy]
    · have hsum : add .binary64 (.finite s m e hm) (.zero t) = .finite s m e hm := rfl
      rw [hsum, unpack_pack hcx]
      rfl
    · rcases add_finite_full hcx hcy with h | ⟨s', m', e', h, hbits, -⟩ <;> rw [h]
      · rfl
      · exact isNaN_round hbits

end Whereabouts.Binary64
