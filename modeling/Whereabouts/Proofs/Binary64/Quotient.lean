import Whereabouts.Proofs.Binary64.Sum

/-! Products and quotients in binary64: a product is the exact one, rounded, and a number divided by
a larger one leaves the unit interval at most by rounding. -/
namespace Whereabouts.Binary64
open Float.Model Float.Model.UnpackedFloat

variable {x y : Float} {m n : Nat} {e f k : Int}

/-- A product that is not too large is rounded by at most the unit of its last bit. -/
lemma abs_value_mul_sub_le (hx : x.isFinite = true) (hy : y.isFinite = true)
    (hlt : |value x * value y| < 2 ^ (k + 53)) (hlow : -1074 ≤ k) (hhigh : k ≤ 970) :
    (x * y).isFinite = true ∧ |value (x * y) - value x * value y| ≤ 2 ^ k := by
  have hmul := unpack_mul x y
  have hzero {u : Sign} (h : (x * y).toModel.unpack = .zero u) (hvalue : value x * value y = 0) :
      (x * y).isFinite = true ∧ |value (x * y) - value x * value y| ≤ 2 ^ k :=
    abs_value_sub_le_of_eq (within_of_zero (k := 971) h).isFinite
      ((value_of_zero h).trans hvalue.symm) k
  rcases (within_of_isFinite hx).cases with ⟨s, hx⟩ | ⟨s, m, e, hm, hx, hcx, -⟩
  · rcases (within_of_isFinite hy).cases with ⟨t, hy⟩ | ⟨t, n, f, hn, hy, -, -⟩ <;>
      rw [hx, hy] at hmul <;>
      exact hzero (hmul.trans (unpack_pack_zero (s * t))) (by rw [value_of_zero hx, zero_mul])
  · rcases (within_of_isFinite hy).cases with ⟨t, hy⟩ | ⟨t, n, f, hn, hy, hcy, -⟩ <;>
      rw [hx, hy] at hmul
    · exact hzero (hmul.trans (unpack_pack_zero (s * t))) (by rw [value_of_zero hy, mul_zero])
    · have hvalue : value x * value y = (s * t).apply (m * n : ℕ) * 2 ^ (e + f) := by
        rw [value_of_finite hx, value_of_finite hy, zpow_add₀ two_ne_zero]
        cases s <;> cases t <;> simp [Sign.apply] <;> ring
      rw [hvalue] at hlt ⊢
      rw [abs_apply_mul (s * t) (m * n) (by positivity)] at hlt
      exact abs_value_sub_le (hcx.mul_full hcy hm hn) hmul hlt hlow hhigh

/-- The quotient of two finite numbers is cut, not rounded up, and has the bits that rounding
needs. -/
lemma divCore_full (hx : Canonical m e) (hm : 0 < m) (hn : 0 < n) (f : Int) :
    ∃ q target acc, divCore .binary64 m e n f = (q, target, acc) ∧
      (2 ^ 52 ≤ q ∨ target ≤ -1074) ∧ (q : ℚ) * 2 ^ target * (n * 2 ^ f) ≤ m * 2 ^ e := by
  have hmlog : m.log2 < 53 := (Nat.log2_lt (Nat.ne_of_gt hm)).mpr hx.lt
  have haim : Format.binary64.targetExponent (totalExponent m e - totalExponent n f) =
      max (((m.log2 : Int) + 1 + e) - (n.log2 + 1 + f) - 53) (-1074) := rfl
  set target := min (e - f) (max (((m.log2 : Int) + 1 + e) - (n.log2 + 1 + f) - 53) (-1074))
    with htarget
  set k := (e - f - target).toNat with hk
  refine ⟨m <<< k / n, target, accuracyOfFraction (m <<< k % n) n, ?_, ?_, ?_⟩
  · simp only [divCore, haim, ← htarget, ← hk]
  · by_cases hleast : target ≤ -1074
    · exact .inr hleast
    · -- The mantissa of the dividend is shifted until the quotient has 53 bits.
      have hshift : k = n.log2 + 53 - m.log2 := by omega
      refine .inl ((Nat.le_div_iff_mul_le hn).mpr ?_)
      rw [Nat.shiftLeft_eq]
      calc 2 ^ 52 * n ≤ 2 ^ 52 * 2 ^ (n.log2 + 1) := Nat.mul_le_mul_left _ Nat.lt_log2_self.le
        _ = 2 ^ (m.log2 + k) := by
          rw [← Nat.pow_add]
          congr 1
          omega
        _ = 2 ^ m.log2 * 2 ^ k := Nat.pow_add ..
        _ ≤ m * 2 ^ k := Nat.mul_le_mul_right _ (Nat.log2_self_le (Nat.ne_of_gt hm))
  · have hcut : ((m <<< k / n : ℕ) : ℚ) * n ≤ m * 2 ^ k := by
      rw [Nat.shiftLeft_eq]
      exact_mod_cast Nat.div_mul_le_self (m * 2 ^ k) n
    have hexponent : (2 : ℚ) ^ e = 2 ^ k * (2 ^ target * 2 ^ f) := by
      rw [← zpow_natCast, ← zpow_add₀ two_ne_zero, ← zpow_add₀ two_ne_zero]
      congr 1
      omega
    calc ((m <<< k / n : ℕ) : ℚ) * 2 ^ target * (n * 2 ^ f)
        = (m <<< k / n : ℕ) * n * (2 ^ target * 2 ^ f) := by ring
      _ ≤ m * 2 ^ k * (2 ^ target * 2 ^ f) := mul_le_mul_of_nonneg_right hcut (by positivity)
      _ = m * 2 ^ e := by rw [hexponent, mul_assoc]

/-- A number that is not below zero. -/
lemma nonneg_cases (h : 0.0 ≤ x) : (∃ s, x.toModel.unpack = .zero s) ∨
    (∃ m e hm, x.toModel.unpack = .finite .positive m e hm) ∨
      x.toModel.unpack = .infinity .positive := by
  rw [zero_le_iff_compare] at h
  cases hx : x.toModel.unpack with
  | notANumber => rw [hx] at h; cases h
  | zero s => exact .inl ⟨s, rfl⟩
  | infinity s =>
    cases s with
    | positive => exact .inr (.inr rfl)
    | negative => rw [hx] at h; cases h
  | finite s m e hm =>
    cases s with
    | positive => exact .inr (.inl ⟨m, e, hm, rfl⟩)
    | negative => rw [hx] at h; cases h

/-- A part of a larger number is at most the whole, up to rounding. -/
lemma div_mem_unit (hx : 0.0 ≤ x) (hlt : x < y) :
    (x / y).isFinite = true ∧ 0 ≤ value (x / y) ∧ value (x / y) ≤ 1 + 2 ^ (-53 : ℤ) := by
  have hdiv := unpack_div x y
  have hzero {u : Sign} (h : (x / y).toModel.unpack = .zero u) :
      (x / y).isFinite = true ∧ 0 ≤ value (x / y) ∧ value (x / y) ≤ 1 + 2 ^ (-53 : ℤ) := by
    rw [value_of_zero h]
    exact ⟨(within_of_zero (k := 971) h).isFinite, le_rfl, by positivity⟩
  have hxy := lt_iff_compare.mp hlt
  have hyle : 0.0 ≤ y := le_of_le_of_le hx (le_of_lt hlt)
  rcases nonneg_cases hx with ⟨s, hu⟩ | ⟨m, e, hm, hu⟩ | hu <;>
    rcases nonneg_cases hyle with ⟨t, hv⟩ | ⟨n, f, hn, hv⟩ | hv <;> rw [hu, hv] at hxy hdiv
  case inl.inr.inl => exact hzero (hdiv.trans (unpack_pack_zero _))
  case inl.inr.inr => exact hzero (hdiv.trans (unpack_pack_zero _))
  case inr.inl.inr.inr => exact hzero (hdiv.trans (unpack_pack_zero _))
  case inr.inl.inr.inl =>
    have hcx := canonical_of_unpack hu
    have hxfinite := (within_of_finite hu hcx.most).isFinite
    have hyfinite := (within_of_finite hv (canonical_of_unpack hv).most).isFinite
    obtain ⟨q, target, acc, hcore, hbits, hcut⟩ := divCore_full hcx hm hn f
    simp only [UnpackedFloat.div, hcore] at hdiv
    have hdivisor : (0 : ℚ) < n * 2 ^ f := by positivity
    have hpart : (m : ℚ) * 2 ^ e < n * 2 ^ f := by
      have hvalue := (lt_iff_value hxfinite hyfinite).mp hlt
      rwa [value_of_finite hu, value_of_finite hv] at hvalue
    have hone : (q : ℚ) * 2 ^ target < 2 ^ (-53 + 53 : ℤ) := by
      rw [neg_add_cancel, zpow_zero]
      exact lt_of_mul_lt_mul_right ((hcut.trans_lt hpart).trans_eq (one_mul _).symm) hdivisor.le
    obtain ⟨hfinite, hnear⟩ := abs_value_sub_le hbits hdiv hone (by decide) (by decide)
    have hnonneg := (le_iff_value isFinite_zero hfinite).mp (zero_le_round hbits hdiv)
    rw [value_zero] at hnonneg
    refine ⟨hfinite, hnonneg, ?_⟩
    have hhigh := (abs_le.mp hnear).2
    have hsign : ((Sign.positive / Sign.positive).apply q : ℚ) = q := Int.cast_natCast q
    rw [hsign] at hhigh
    rw [neg_add_cancel, zpow_zero] at hone
    linarith
  -- Nothing else is below `y`.
  all_goals cases hxy

lemma unpack_of_value_eq_zero (hx : x.isFinite = true) (h : value x = 0) :
    ∃ s, x.toModel.unpack = .zero s := by
  rcases (within_of_isFinite hx).cases with hzero | ⟨s, m, e, hm, hx, -, -⟩
  · exact hzero
  · have hpos : (0 : ℚ) < m * 2 ^ e := by positivity
    rw [← abs_apply_mul s m (by positivity), ← value_of_finite hx, h, abs_zero] at hpos
    exact absurd hpos (lt_irrefl _)

lemma zero_le_sub_of_isFinite (hx : x.isFinite = true) (hy : y.isFinite = true) (hle : y ≤ x) :
    0.0 ≤ x - y := by
  rw [le_iff_value hy hx] at hle
  rcases hle.lt_or_eq with hlt | heq
  · obtain ⟨hy', hneg⟩ := value_neg hy
    rw [sub_eq_add_neg_of_isFinite hx hy]
    refine zero_le_add hx hy' ?_
    rw [hneg]
    linarith
  · by_cases hzero : value x = 0
    · obtain ⟨s, hu⟩ := unpack_of_value_eq_zero hx hzero
      obtain ⟨t, hv⟩ := unpack_of_value_eq_zero hy (heq.trans hzero)
      rw [zero_le_iff_compare, unpack_sub, hu, hv]
      cases s <;> cases t <;> rfl
    · obtain rfl := eq_of_value hx hy heq.symm hzero
      have hnone : |value x - value x| < 2 ^ (0 + 53 : ℤ) := by
        rw [sub_eq_zero_of_eq rfl, abs_zero]
        positivity
      have hfinite := (abs_value_sub_sub_le hx hx hnone (by decide) (by decide)).1
      rcases sub_self (not_isNaN_of_isFinite hx) with h | h
      · rw [h]
        decide
      · rw [h] at hfinite
        cases hfinite

lemma isFinite_or_infinity (hx : x.isNaN = false) :
    x.isFinite = true ∨ ∃ s, x.toModel.unpack = .infinity s := by
  change x.toModel.unpack.isNaN = false at hx
  change x.toModel.unpack.isFinite = true ∨ _
  cases hu : x.toModel.unpack with
  | notANumber => rw [hu] at hx; cases hx
  | infinity s => exact .inr ⟨s, rfl⟩
  | zero s => exact .inl rfl
  | finite s m e hm => exact .inl rfl

lemma zero_le_sub_of_infinity
    (h : sub .binary64 x.toModel.unpack y.toModel.unpack = .infinity .positive) : 0.0 ≤ x - y := by
  rw [zero_le_iff_compare, unpack_sub, h, unpack_pack_infinity]
  rfl

/-- What is left of a number is not below zero, if it is a number at all. -/
lemma isNaN_or_zero_le_sub (hx : x.isNaN = true ∨ 0.0 ≤ x) (hle : ¬ x < y) :
    (x - y).isNaN = true ∨ 0.0 ≤ x - y := by
  rcases hx with hx | hx
  · rw [eq_nan hx, nan_sub]
    exact .inl rfl
  by_cases hnan : y.isNaN = true
  · rw [eq_nan hnan, sub_nan]
    exact .inl rfl
  have hnumber : y.isNaN = false := Bool.eq_false_iff.mpr hnan
  have hle : y ≤ x := le_of_not_lt (not_isNaN_of_le hx).2 hnumber hle
  rcases isFinite_or_infinity hnumber with hy | ⟨t, hv⟩
  · right
    rcases nonneg_cases hx with ⟨s, hu⟩ | ⟨m, e, hm, hu⟩ | hu
    · exact zero_le_sub_of_isFinite (within_of_zero (k := 971) hu).isFinite hy hle
    · have hx := (within_of_finite hu (canonical_of_unpack hu).most).isFinite
      exact zero_le_sub_of_isFinite hx hy hle
    · apply zero_le_sub_of_infinity
      rcases (within_of_isFinite hy).cases with ⟨t, hv⟩ | ⟨t, n, f, hn, hv, -, -⟩ <;>
        rw [hu, hv] <;> rfl
  · cases t with
    | negative =>
      refine .inr (zero_le_sub_of_infinity ?_)
      rcases nonneg_cases hx with ⟨s, hu⟩ | ⟨m, e, hm, hu⟩ | hu <;> rw [hu, hv] <;> rfl
    | positive =>
      -- Only an infinity is as large, and then the difference is no number.
      rw [le_iff_compare, hv] at hle
      rcases nonneg_cases hx with ⟨s, hu⟩ | ⟨m, e, hm, hu⟩ | hu
      · rw [hu] at hle
        cases hle
      · rw [hu] at hle
        cases hle
      · left
        change (x - y).toModel.unpack.isNaN = true
        rw [unpack_sub, hu, hv]
        rfl

end Whereabouts.Binary64
