import Whereabouts.Proofs.Binary64.Value

/-! A sum above zero is the exact one, rounded: no number of binary64 is changed by rounding, and no
other by more than the unit of its last bit. -/
namespace Whereabouts.Binary64
open Float.Model Float.Model.UnpackedFloat

variable {s : Sign} {m n : Nat} {e f : Int}

lemma targetExponent_canonical (h : Canonical n f) (hn : n ≠ 0) :
    Format.binary64.targetExponent (totalExponent n f) = f := by
  have hlog : n.log2 < 53 := (Nat.log2_lt hn).mpr h.lt
  have hleast := h.least
  change max ((n.log2 : Int) + 1 + f - 53) (-1074) = f
  rcases h.full with hfull | rfl
  · have hfull := (Nat.le_log2 hn).mpr hfull
    omega
  · omega

lemma totalExponent_shiftLeft (hn : n ≠ 0) (k : Nat) :
    totalExponent (n <<< k) (f - k) = totalExponent n f := by
  change (((n <<< k).log2 : Nat) : Int) + 1 + (f - k) = n.log2 + 1 + f
  rw [log2_shiftLeft hn]
  omega

/-- No bit is lost when zeros are shifted out. -/
lemma shiftRight_shiftLeft (n k : Nat) :
    (⟨n <<< k, false, false⟩ : ExtendedMantissa) >>> k = ⟨n, false, false⟩ := by
  change k.repeat ExtendedMantissa.shiftRightOne _ = _
  induction k generalizing n with
  | zero => rfl
  | succ k ih =>
    have hdouble : n <<< (k + 1) = (2 * n) <<< k := by
      rw [Nat.shiftLeft_eq, Nat.shiftLeft_eq, Nat.pow_succ]
      ring
    change (k.repeat ExtendedMantissa.shiftRightOne _).shiftRightOne = _
    rw [hdouble, ih]
    simp [ExtendedMantissa.shiftRightOne]

lemma shiftToTargetExponent_canonical (h : Canonical n f) (hn : n ≠ 0) (k : Nat) :
    shiftToTargetExponent .binary64 (n <<< k) (f - k) .exact = (⟨n, false, false⟩, f) := by
  have hshift : (f - (f - k)).toNat = k := by omega
  set target := Format.binary64.targetExponent (totalExponent (n <<< k) (f - k)) with htarget
  rw [totalExponent_shiftLeft hn, targetExponent_canonical h hn] at htarget
  change ((⟨n <<< k, false, false⟩ : ExtendedMantissa) >>> (target - (f - k)).toNat,
    f - k + ((target - (f - k)).toNat : Int)) = _
  rw [htarget, hshift, shiftRight_shiftLeft, Int.sub_add_cancel]

lemma roundWithAccuracy_canonical (h : Canonical n f) (hn : 0 < n) (k : Nat) :
    roundWithAccuracy .binary64 s (n <<< k) (f - k) .exact = .finite s n f hn := by
  have hne := Nat.ne_of_gt hn
  have hagain := shiftToTargetExponent_canonical h hne 0
  rw [Nat.shiftLeft_zero, Nat.cast_zero, Int.sub_zero] at hagain
  have hrounded : (⟨n, false, false⟩ : ExtendedMantissa).roundedMantissa = n := rfl
  simp only [roundWithAccuracy, shiftToTargetExponent_canonical h hne k, hrounded, hagain]
  exact dif_neg hne

lemma decreaseExponent_mul_two_pow (m : Nat) (e target : Int) :
    let shifted := decreaseExponent m e target
    (shifted.1 : ℚ) * 2 ^ shifted.2 = m * 2 ^ e := by
  intro shifted
  have hmantissa : shifted.1 = m <<< (e - target).toNat := rfl
  have hexponent : shifted.2 = e - (e - target).toNat := rfl
  have hleast : e - ((e - target).toNat : Int) ≤ e := by omega
  have hshift : (e - (e - ((e - target).toNat : Int))).toNat = (e - target).toNat := by omega
  rw [hmantissa, hexponent, mul_two_pow_aligned m hleast, hshift, Nat.shiftLeft_eq]

/-- Rounding keeps a number of binary64. -/
lemma round_canonical (h : Canonical n f) (hn : 0 < n)
    (hsame : (m : ℚ) * 2 ^ e = (n : ℚ) * 2 ^ f) :
    UnpackedFloat.round .binary64 s m e = .finite s n f hn := by
  have hm : m ≠ 0 := by
    rintro rfl
    have hpos : (0 : ℚ) < n * 2 ^ f := by positivity
    rw [← hsame, Nat.cast_zero, zero_mul] at hpos
    exact lt_irrefl _ hpos
  have hbits := (decreaseExponent_full (e := e) hm).1
  have hvalue := (decreaseExponent_mul_two_pow m e
    (Format.binary64.targetExponent (totalExponent m e))).trans hsame
  rw [UnpackedFloat.round]
  generalize decreaseExponent m e (Format.binary64.targetExponent (totalExponent m e)) = shifted
    at hbits hvalue ⊢
  have hle : shifted.2 ≤ f := by
    by_contra hgt
    rw [mul_two_pow_aligned _ (not_le.mp hgt).le] at hvalue
    have hroom := two_pow_le_aligned hbits h.least (not_le.mp hgt)
    have hn : shifted.1 * 2 ^ (shifted.2 - f).toNat = n := by
      exact_mod_cast mul_right_cancel₀ (zpow_ne_zero f two_ne_zero) hvalue
    exact absurd h.lt (by omega)
  rw [mul_two_pow_aligned n hle] at hvalue
  have hmantissa : shifted.1 = n <<< (f - shifted.2).toNat := by
    rw [Nat.shiftLeft_eq]
    exact_mod_cast mul_right_cancel₀ (zpow_ne_zero _ two_ne_zero) hvalue
  have hexponent : shifted.2 = f - ((f - shifted.2).toNat : Int) := by omega
  have hround := roundWithAccuracy_canonical (s := s) h hn (f - shifted.2).toNat
  rwa [← hmantissa, ← hexponent] at hround

/-- A mantissa that is shifted out of at most 53 bits, or one more, loses nothing. -/
lemma shiftToTargetExponent_lossless (hbits : 2 ^ 52 ≤ m ∨ e ≤ -1074) (hleast : -1074 ≤ e)
    (hle : m ≤ 2 ^ 53) :
    let shifted := shiftToTargetExponent .binary64 m e .exact
    (shifted.1.mantissa : ℚ) * 2 ^ shifted.2 = m * 2 ^ e := by
  intro shifted
  obtain ⟨hreach, hexponent, hmantissa⟩ := shiftToTargetExponent_eq .exact hbits
  have htotal : totalExponent m e = m.log2 + 1 + e := rfl
  rw [hexponent, hmantissa]
  rcases hle.eq_or_lt with rfl | hlt
  · rw [Nat.log2_two_pow] at htotal
    have htarget : max (totalExponent (2 ^ 53) e - 53) (-1074) = e + 1 := by omega
    have hshift : (e + 1 - e).toNat = 1 := by omega
    rw [htarget, hshift, zpow_add_one₀ two_ne_zero]
    norm_num
    ring
  · have hlog := log2_le_of_lt_two_pow hlt (by decide)
    have htarget : max (totalExponent m e - 53) (-1074) = e := by omega
    rw [htarget, Int.sub_self, Int.toNat_zero, Nat.pow_zero, Nat.div_one]

/-- The rounded mantissa is at most one away from the exact one. -/
lemma abs_roundedMantissa_sub_le (acc : Accuracy) (hbits : 2 ^ 52 ≤ m ∨ e ≤ -1074) :
    let shifted := shiftToTargetExponent .binary64 m e acc
    |(shifted.1.roundedMantissa : ℚ) * 2 ^ shifted.2 - m * 2 ^ e| ≤ 2 ^ shifted.2 := by
  intro shifted
  obtain ⟨hreach, hexponent, hmantissa⟩ := shiftToTargetExponent_eq acc hbits
  change shifted.2 = _ at hexponent
  rw [← hexponent] at hreach hmantissa
  generalize hk : (shifted.2 - e).toNat = k at hmantissa
  have hlow : (m / 2 ^ k : ℕ) * (2 : ℚ) ^ shifted.2 ≤ m * 2 ^ e := by
    rw [mul_two_pow_aligned _ hreach, hk]
    refine mul_le_mul_of_nonneg_right ?_ (by positivity)
    exact_mod_cast Nat.div_mul_le_self m (2 ^ k)
  have hhigh : m * (2 : ℚ) ^ e ≤ (m / 2 ^ k + 1 : ℕ) * (2 : ℚ) ^ shifted.2 := by
    rw [mul_two_pow_aligned _ hreach, hk]
    refine mul_le_mul_of_nonneg_right ?_ (by positivity)
    exact_mod_cast (Nat.lt_div_mul_add (Nat.two_pow_pos k)).le.trans_eq (by ring)
  have hunit : (0 : ℚ) ≤ 2 ^ shifted.2 := by positivity
  have hrounded := mantissa_le_roundedMantissa shifted.1
  have hrounded' := roundedMantissa_le shifted.1
  rw [hmantissa] at hrounded hrounded'
  have hdown : ((m / 2 ^ k : ℕ) : ℚ) * 2 ^ shifted.2 ≤ shifted.1.roundedMantissa * 2 ^ shifted.2 :=
    mul_le_mul_of_nonneg_right (by exact_mod_cast hrounded) hunit
  have hup : (shifted.1.roundedMantissa : ℚ) * 2 ^ shifted.2 ≤
      (m / 2 ^ k + 1 : ℕ) * 2 ^ shifted.2 :=
    mul_le_mul_of_nonneg_right (by exact_mod_cast hrounded') hunit
  rw [Nat.cast_succ, add_one_mul] at hhigh hup
  rw [abs_le]
  constructor <;> linarith

/-- The size of a number by its value. -/
lemma totalExponent_le {k : Int} (hbits : 2 ^ 52 ≤ m ∨ e ≤ -1074)
    (hlt : (m : ℚ) * 2 ^ e < 2 ^ (k + 53)) (hlow : -1074 ≤ k) : totalExponent m e ≤ k + 53 := by
  change (m.log2 : Int) + 1 + e ≤ k + 53
  rcases eq_or_ne m 0 with rfl | hm
  · rw [Nat.log2_zero]
    omega
  · have hlead : (2 : ℚ) ^ (m.log2 + e) < 2 ^ (k + 53) := by
      refine lt_of_le_of_lt ?_ hlt
      rw [zpow_add₀ two_ne_zero, zpow_natCast]
      refine mul_le_mul_of_nonneg_right ?_ (by positivity)
      exact_mod_cast Nat.log2_self_le hm
    have hlog := (zpow_lt_zpow_iff_right₀ one_lt_two).mp hlead
    omega

lemma abs_apply_sub (s : Sign) (m n : Nat) (x y : ℚ) :
    |s.apply m * x - s.apply n * y| = |m * x - n * y| := by
  cases s with
  | positive => rfl
  | negative =>
    rw [Sign.apply, Sign.apply, abs_sub_comm]
    push_cast
    congr 1
    ring

lemma abs_apply_mul (s : Sign) (m : Nat) {x : ℚ} (hx : 0 ≤ x) : |s.apply m * x| = m * x := by
  have h := abs_apply_sub s m 0 x 0
  rw [mul_zero, mul_zero, sub_zero, sub_zero] at h
  exact h.trans (abs_of_nonneg (by positivity))

/-- A number that is not too large is rounded by at most the unit of its last bit. -/
lemma abs_value_sub_le {r : Float} {acc : Accuracy} {k : Int}
    (hbits : 2 ^ 52 ≤ m ∨ e ≤ -1074)
    (hr : r.toModel.unpack = unpack .binary64
      (UnpackedFloat.pack .binary64 (roundWithAccuracy .binary64 s m e acc)))
    (hlt : (m : ℚ) * 2 ^ e < 2 ^ (k + 53)) (hlow : -1074 ≤ k) (hhigh : k ≤ 970) :
    r.isFinite = true ∧ |value r - s.apply m * 2 ^ e| ≤ 2 ^ k := by
  have htotal := totalExponent_le hbits hlt hlow
  obtain ⟨hlt, hexponent, hfull⟩ := shiftToTargetExponent_full acc hbits
  have hnear := abs_roundedMantissa_sub_le acc hbits
  generalize hfirst : shiftToTargetExponent .binary64 m e acc = first
    at hlt hexponent hfull hnear
  have hrounded := mantissa_le_roundedMantissa first.1
  have hrounded' := roundedMantissa_le first.1
  have hbits' : 2 ^ 52 ≤ first.1.roundedMantissa ∨ first.2 ≤ -1074 := by omega
  have hlossless := shiftToTargetExponent_lossless hbits' (by omega) (by omega)
  obtain ⟨hlt', hexponent', hfull'⟩ := shiftToTargetExponent_full .exact hbits'
  generalize hsecond : shiftToTargetExponent .binary64 first.1.roundedMantissa first.2 .exact =
    second at hlossless hlt' hexponent' hfull'
  obtain ⟨hfinite, hvalue⟩ :
      r.isFinite = true ∧ value r = s.apply second.1.mantissa * 2 ^ second.2 := by
    change r.toModel.unpack.isFinite = true ∧ _
    simp only [roundWithAccuracy, hfirst, hsecond] at hr
    split_ifs at hr with hzero
    · have hr := hr.trans (unpack_pack_zero _)
      rw [value_of_zero hr, hr, hzero]
      cases s <;> exact ⟨rfl, (zero_mul _).symm⟩
    · have hlog := log2_le_of_lt_two_pow (n := 54) (m := first.1.roundedMantissa) (by omega)
        (by decide)
      have htotal' : totalExponent first.1.roundedMantissa first.2 =
        first.1.roundedMantissa.log2 + 1 + first.2 := rfl
      have hr := hr.trans (unpack_pack ⟨hlt', by omega, by omega, hfull'⟩)
      rw [value_of_finite hr, hr]
      exact ⟨rfl, rfl⟩
  rw [hvalue, abs_apply_sub, hlossless]
  refine ⟨hfinite, hnear.trans (zpow_le_zpow_right₀ one_le_two ?_)⟩
  omega

lemma abs_value_round_sub_le {r : Float} {k : Int} (hm : m ≠ 0)
    (hr : r.toModel.unpack = unpack .binary64
      (UnpackedFloat.pack .binary64 (UnpackedFloat.round .binary64 s m e)))
    (hlt : (m : ℚ) * 2 ^ e < 2 ^ (k + 53)) (hlow : -1074 ≤ k) (hhigh : k ≤ 970) :
    r.isFinite = true ∧ |value r - s.apply m * 2 ^ e| ≤ 2 ^ k := by
  have hshifted := decreaseExponent_mul_two_pow m e
    (Format.binary64.targetExponent (totalExponent m e))
  rw [← hshifted] at hlt
  obtain ⟨hfinite, hnear⟩ :=
    abs_value_sub_le (decreaseExponent_full hm).1 hr hlt hlow hhigh
  refine ⟨hfinite, ?_⟩
  have happly (n : Nat) (x : ℚ) : (s.apply n : ℚ) * x = s.apply 1 * (n * x) := by
    cases s <;> simp [Sign.apply]
  rwa [happly, hshifted, ← happly] at hnear

lemma abs_value_normalize_sub_le {r : Float} {a k : Int}
    (hr : r.toModel.unpack = unpack .binary64
      (UnpackedFloat.pack .binary64 (UnpackedFloat.normalize .binary64 a e .positive)))
    (hlt : |(a : ℚ) * 2 ^ e| < 2 ^ (k + 53)) (hlow : -1074 ≤ k) (hhigh : k ≤ 970) :
    r.isFinite = true ∧ |value r - a * 2 ^ e| ≤ 2 ^ k := by
  have hunit : (0 : ℚ) < 2 ^ e := by positivity
  rw [abs_mul, abs_of_pos hunit, ← Int.cast_abs, Int.abs_eq_natAbs, Int.cast_natCast] at hlt
  rcases lt_trichotomy a 0 with hneg | rfl | hpos
  · rw [UnpackedFloat.normalize, Int.compare_eq_lt.mpr hneg,
      show (-a).toNat = a.natAbs by omega] at hr
    have happly : (Sign.negative.apply a.natAbs : Int) = a := by
      change -(a.natAbs : Int) = a
      omega
    simpa only [happly] using
      abs_value_round_sub_le (Int.natAbs_ne_zero.mpr hneg.ne) hr hlt hlow hhigh
  · have hr := hr.trans (unpack_pack_zero .positive)
    rw [value_of_zero hr, Int.cast_zero, zero_mul, sub_zero, abs_zero]
    refine ⟨?_, by positivity⟩
    change r.toModel.unpack.isFinite = true
    rw [hr]
    rfl
  · rw [normalize_of_pos hpos] at hr
    have happly : (Sign.positive.apply a.natAbs : Int) = a := by
      change (a.natAbs : Int) = a
      omega
    simpa only [happly] using
      abs_value_round_sub_le (Int.natAbs_ne_zero.mpr hpos.ne') hr hlt hlow hhigh

lemma apply_aligned (s : Sign) (m : Nat) {e least : Int} (h : least ≤ e) :
    ((s.apply (decreaseExponent m e least).1 : Int) : ℚ) * 2 ^ least = s.apply m * 2 ^ e := by
  have haligned : (m : ℚ) * 2 ^ e = ((decreaseExponent m e least).1 : ℕ) * 2 ^ least := by
    change _ = ((m <<< (e - least).toNat : ℕ) : ℚ) * _
    rw [Nat.shiftLeft_eq, mul_two_pow_aligned m h]
  cases s with
  | positive =>
    rw [Sign.apply, Sign.apply]
    exact_mod_cast haligned.symm
  | negative =>
    rw [Sign.apply, Sign.apply]
    push_cast
    rw [neg_mul, neg_mul, haligned]

variable {x y : Float} {k : Int}

/-- No rounding is the least. -/
lemma abs_value_sub_le_of_eq {q : ℚ} (hx : x.isFinite = true) (h : value x = q) (k : Int) :
    x.isFinite = true ∧ |value x - q| ≤ 2 ^ k := by
  rw [h, sub_eq_zero_of_eq rfl, abs_zero]
  exact ⟨hx, by positivity⟩

/-- A sum that is not too large is rounded by at most the unit of its last bit. -/
lemma abs_value_add_sub_le (hx : x.isFinite = true) (hy : y.isFinite = true)
    (hlt : |value x + value y| < 2 ^ (k + 53)) (hlow : -1074 ≤ k) (hhigh : k ≤ 970) :
    (x + y).isFinite = true ∧ |value (x + y) - (value x + value y)| ≤ 2 ^ k := by
  have hadd := unpack_add x y
  rcases (within_of_isFinite hx).cases with ⟨s, hx⟩ | ⟨s, m, e, hm, hx, hcx, -⟩ <;>
    rcases (within_of_isFinite hy).cases with ⟨t, hy⟩ | ⟨t, n, f, hn, hy, hcy, -⟩ <;>
    rw [hx, hy] at hadd
  · obtain ⟨u, hsum⟩ : ∃ u, (x + y).toModel.unpack = .zero u :=
      ⟨if s == t then s else .positive, hadd.trans (by cases s <;> cases t <;> rfl)⟩
    refine abs_value_sub_le_of_eq (within_of_zero (k := 971) hsum).isFinite ?_ k
    rw [value_of_zero hsum, value_of_zero hx, value_of_zero hy, add_zero]
  · have hsum : (x + y).toModel.unpack = .finite t n f hn := hadd.trans (unpack_pack hcy)
    refine abs_value_sub_le_of_eq (within_of_finite hsum hcy.most).isFinite ?_ k
    rw [value_of_finite hsum, value_of_zero hx, value_of_finite hy, zero_add]
  · have hsum : (x + y).toModel.unpack = .finite s m e hm := hadd.trans (unpack_pack hcx)
    refine abs_value_sub_le_of_eq (within_of_finite hsum hcx.most).isFinite ?_ k
    rw [value_of_finite hsum, value_of_finite hx, value_of_zero hy, add_zero]
  · set a := s.apply ((decreaseExponent m e (min e f)).1 : Int) +
      t.apply ((decreaseExponent n f (min e f)).1 : Int) with ha
    have hvalue : value x + value y = a * 2 ^ min e f := by
      rw [value_of_finite hx, value_of_finite hy, ha, Int.cast_add, add_mul,
        apply_aligned s m (min_le_left e f), apply_aligned t n (min_le_right e f)]
    rw [hvalue] at hlt ⊢
    exact abs_value_normalize_sub_le hadd hlt hlow hhigh

lemma value_neg (hx : x.isFinite = true) : (-x).isFinite = true ∧ value (-x) = -value x := by
  have hneg := unpack_neg x
  rcases (within_of_isFinite hx).cases with ⟨s, hx⟩ | ⟨s, m, e, hm, hx, hcx, -⟩ <;> rw [hx] at hneg
  · have hneg : (-x).toModel.unpack = .zero (-s) := hneg.trans (unpack_pack_zero _)
    rw [value_of_zero hneg, value_of_zero hx, neg_zero]
    exact ⟨(within_of_zero (k := 971) hneg).isFinite, rfl⟩
  · have hneg : (-x).toModel.unpack = .finite (-s) m e hm := hneg.trans (unpack_pack hcx)
    rw [value_of_finite hneg, value_of_finite hx]
    refine ⟨(within_of_finite hneg hcx.most).isFinite, ?_⟩
    cases s with
    | positive => exact apply_negative_value m e
    | negative => exact (neg_eq_iff_eq_neg.mpr (apply_negative_value m e)).symm

lemma sub_eq_add_neg_of_isFinite (hx : x.isFinite = true) (hy : y.isFinite = true) :
    x - y = x + -y := by
  apply unpack_injective
  have hneg := unpack_neg y
  rw [unpack_sub, unpack_add]
  congr 2
  rcases (within_of_isFinite hx).cases with ⟨s, hx⟩ | ⟨s, m, e, hm, hx, hcx, -⟩ <;>
    rcases (within_of_isFinite hy).cases with ⟨t, hy⟩ | ⟨t, n, f, hn, hy, hcy, -⟩ <;>
    rw [hy] at hneg <;>
    first
    | rw [hx, hy, hneg.trans (unpack_pack_zero (-t))]
    | rw [hx, hy, hneg.trans (unpack_pack hcy)]
  · cases s <;> cases t <;> rfl
  · rfl
  · rfl
  · have happly (n : Nat) : (-t).apply n = -t.apply n := by
      cases t with
      | positive => rfl
      | negative => exact (neg_neg (n : Int)).symm
    change normalize .binary64 (_ - _) _ _ = normalize .binary64 (_ + (-t).apply _) _ _
    rw [happly, ← sub_eq_add_neg]

/-- A difference that is not too large is rounded by at most the unit of its last bit. -/
lemma abs_value_sub_sub_le (hx : x.isFinite = true) (hy : y.isFinite = true)
    (hlt : |value x - value y| < 2 ^ (k + 53)) (hlow : -1074 ≤ k) (hhigh : k ≤ 970) :
    (x - y).isFinite = true ∧ |value (x - y) - (value x - value y)| ≤ 2 ^ k := by
  obtain ⟨hy', hneg⟩ := value_neg hy
  have hvalue : value x - value y = value x + value (-y) := by rw [hneg, sub_eq_add_neg]
  rw [hvalue] at hlt ⊢
  rw [sub_eq_add_neg_of_isFinite hx hy]
  exact abs_value_add_sub_le hx hy' hlt hlow hhigh

lemma positive_of_value_pos {x : Float} (hx : x.toModel.unpack = .finite s m e hm)
    (hpos : 0 < value x) : s = .positive ∧ value x = m * 2 ^ e := by
  have hvalue := value_of_finite hx
  cases s with
  | positive => exact ⟨rfl, hvalue⟩
  | negative =>
    have hmagnitude : (0 : ℚ) ≤ (m : ℚ) * 2 ^ e := by positivity
    rw [apply_negative_value] at hvalue
    linarith

/-- A sum above zero is the exact one, rounded. -/
lemma unpack_add_of_pos {x y : Float} (hx : x.isFinite = true) (hy : y.isFinite = true)
    (hpos : 0 < value x + value y) :
    ∃ (m : Nat) (e : Int), m ≠ 0 ∧ (m : ℚ) * 2 ^ e = value x + value y ∧
      (x + y).toModel.unpack = unpack .binary64
        (UnpackedFloat.pack .binary64 (UnpackedFloat.round .binary64 .positive m e)) := by
  have hadd := unpack_add x y
  rcases (within_of_isFinite hx).cases with ⟨s, hx⟩ | ⟨s, m, e, hm, hx, hcx, -⟩ <;>
    rcases (within_of_isFinite hy).cases with ⟨t, hy⟩ | ⟨t, n, f, hn, hy, hcy, -⟩ <;>
    rw [hx, hy] at hadd
  · rw [value_of_zero hx, value_of_zero hy] at hpos
    exact absurd hpos (by norm_num)
  · rw [value_of_zero hx, zero_add] at hpos ⊢
    obtain ⟨rfl, hvalue⟩ := positive_of_value_pos hy hpos
    refine ⟨n, f, Nat.ne_of_gt hn, hvalue.symm, hadd.trans ?_⟩
    rw [round_canonical hcy hn rfl]
    rfl
  · rw [value_of_zero hy, add_zero] at hpos ⊢
    obtain ⟨rfl, hvalue⟩ := positive_of_value_pos hx hpos
    refine ⟨m, e, Nat.ne_of_gt hm, hvalue.symm, hadd.trans ?_⟩
    rw [round_canonical hcx hm rfl]
    rfl
  · set a := s.apply ((decreaseExponent m e (min e f)).1 : Int) +
      t.apply ((decreaseExponent n f (min e f)).1 : Int) with ha
    have hvalue : value x + value y = a * 2 ^ min e f := by
      rw [value_of_finite hx, value_of_finite hy, ha, Int.cast_add, add_mul,
        apply_aligned s m (min_le_left e f), apply_aligned t n (min_le_right e f)]
    have hapos : 0 < a := by
      rw [hvalue] at hpos
      exact_mod_cast pos_of_mul_pos_left hpos (by positivity)
    have hcast : ((a.natAbs : ℕ) : ℚ) = a := by
      rw [Nat.cast_natAbs, abs_of_pos hapos]
    refine ⟨a.natAbs, min e f, Int.natAbs_ne_zero.mpr hapos.ne', ?_, hadd.trans ?_⟩
    · rw [hcast, hvalue]
    · rw [← normalize_of_pos hapos]
      rfl

/-- A sum above zero is not rounded below it. -/
lemma zero_le_add {x y : Float} (hx : x.isFinite = true) (hy : y.isFinite = true)
    (hpos : 0 < value x + value y) : 0.0 ≤ x + y := by
  obtain ⟨m, e, hm, -, hadd⟩ := unpack_add_of_pos hx hy hpos
  exact zero_le_round (decreaseExponent_full hm).1 hadd

/-- A sum that is a number of binary64 is exact. -/
lemma add_eq_of_value {x y z : Float} (hx : x.isFinite = true) (hy : y.isFinite = true)
    (hz : z.isFinite = true) (hsum : value x + value y = value z) (hpos : 0 < value z) :
    x + y = z := by
  obtain ⟨m, e, hm, hvalue, hadd⟩ := unpack_add_of_pos hx hy (hsum ▸ hpos)
  apply unpack_injective
  rcases (within_of_isFinite hz).cases with ⟨t, hz⟩ | ⟨t, n, f, hn, hz, hcz, -⟩
  · rw [value_of_zero hz] at hpos
    exact absurd hpos (lt_irrefl _)
  · obtain ⟨rfl, hexact⟩ := positive_of_value_pos hz hpos
    rw [hadd, hz, round_canonical hcz hn (hvalue.trans (hsum.trans hexact)),
      unpack_pack hcz]

end Whereabouts.Binary64
