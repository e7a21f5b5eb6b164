import Whereabouts.Proofs.Binary64.Value
import Whereabouts.Proofs.Exact.Remainder

/-! The remainder of binary64 numbers is exact: the bits are read as a mantissa and an exponent, and
what is left is written in the same way. -/
namespace Whereabouts
open Float.Model Float.Model.UnpackedFloat

namespace Dyadic

open Binary64

lemma toNat_exponentOf (b : BitVec 64) :
    (exponentOf b).toNat = b.toNat / Nat.pow 2 52 % Nat.pow 2 11 := by
  rw [exponentOf_eq, BitVec.extractLsb_toNat, Nat.shiftRight_eq_div_pow]

lemma toNat_mantissaOf (b : BitVec 64) : (mantissaOf b).toNat = b.toNat % Nat.pow 2 52 := by
  rw [mantissaOf_eq, BitVec.extractLsb_toNat, Nat.shiftRight_eq_div_pow, Nat.pow_zero, Nat.div_one]

lemma toNat_signOf (b : BitVec 64) : (signOf b).toNat = b.toNat / 2 ^ 63 := by
  rw [signOf_eq, BitVec.extractLsb_toNat, Nat.shiftRight_eq_div_pow]
  exact Nat.mod_eq_of_lt (Nat.div_lt_of_lt_mul b.isLt)

/-- The sign that a flag stands for. -/
def sign (negative : Bool) : Sign := if negative then .negative else .positive

lemma ofBitVec_signOf (b : BitVec 64) :
    Sign.ofBitVec (signOf b) = sign (decide (Nat.pow 2 63 ≤ b.toNat)) := by
  have hsign := toNat_signOf b
  by_cases hlarge : Nat.pow 2 63 ≤ b.toNat
  · have hone : signOf b = 1#1 := by
      refine BitVec.eq_of_toNat_eq (hsign.trans ?_)
      have := b.isLt
      change 2 ^ 63 ≤ _ at hlarge
      change _ = 1
      omega
    rw [hone, decide_eq_true hlarge]
    rfl
  · have hzero : signOf b = 0#1 := by
      refine BitVec.eq_of_toNat_eq (hsign.trans ?_)
      change ¬ 2 ^ 63 ≤ _ at hlarge
      change _ = 0
      omega
    rw [hzero, decide_eq_false hlarge]
    rfl

/-- Mantissa and exponent of a finite number. -/
def ofUnpacked? : Float.Model.UnpackedFloat → Option Dyadic
  | .finite _ m e _ => some ⟨m, e⟩
  | .zero _ => some ⟨0, -1074⟩
  | _ => none

/-- Mantissa and exponent are read off the bits. -/
lemma ofFloat?_eq (x : Float) : ofFloat? x = ofUnpacked? x.toModel.unpack := by
  set b := x.toModel.toBits.toBitVec with hb
  change _ = ofUnpacked? (unpack .binary64 b)
  have hread : ofFloat? x = if (exponentOf b).toNat = 2047 then none
      else if (exponentOf b).toNat = 0 then some ⟨(mantissaOf b).toNat, -1074⟩
      else some ⟨Nat.pow 2 52 + (mantissaOf b).toNat, ((exponentOf b).toNat : Int) - 1075⟩ := by
    rw [toNat_exponentOf, toNat_mantissaOf]
    rfl
  by_cases hones : (exponentOf b).toNat = 2047
  · rw [hread, if_pos hones, unpack_ones (BitVec.eq_of_toNat_eq hones)]
    split_ifs <;> rfl
  rw [hread, if_neg hones]
  by_cases hz : (exponentOf b).toNat = 0
  · rw [if_pos hz]
    by_cases hmz : (mantissaOf b).toNat = 0
    · rw [unpack_zero (fun h => hones (by rw [h]; rfl)) (BitVec.eq_of_toNat_eq hz)
        (BitVec.eq_of_toNat_eq hmz), hmz]
      rfl
    · obtain ⟨hpos, hu⟩ := unpack_subnormal_toNat hz hmz
      rw [hu]
      rfl
  · obtain ⟨hpos, hu⟩ := unpack_normal_toNat hz hones
    rw [if_neg hz, hu]
    rfl

lemma sign_signBit (x : Float) :
    sign (signBit x) = Sign.ofBitVec (signOf x.toModel.toBits.toBitVec) :=
  (ofBitVec_signOf _).symm

lemma unpack_ofBits (n : UInt64) : (Float.ofBits n).toModel.unpack = unpack .binary64 n.toBitVec :=
  unpack_pack_unpack _

/-- The bits that stand for a sign, an exponent and a mantissa. -/
def pattern (negative : Bool) (e m : Nat) : UInt64 :=
  UInt64.ofNat ((if negative then Nat.pow 2 63 else 0) + (e * Nat.pow 2 52 + m))

lemma parts_pattern (negative : Bool) {e m : Nat} (he : e < 2 ^ 11) (hm : m < 2 ^ 52) :
    let b := (pattern negative e m).toBitVec
    Sign.ofBitVec (signOf b) = sign negative ∧ (exponentOf b).toNat = e ∧
      (mantissaOf b).toNat = m := by
  intro b
  have h52 : Nat.pow 2 52 = 4503599627370496 := rfl
  have h11 : Nat.pow 2 11 = 2048 := rfl
  have h63 : Nat.pow 2 63 = 9223372036854775808 := rfl
  have hb : b.toNat = (if negative then Nat.pow 2 63 else 0) + (e * Nat.pow 2 52 + m) := by
    refine (BitVec.toNat_ofNat ..).trans (Nat.mod_eq_of_lt ?_)
    rw [h52, h63]
    split_ifs <;> omega
  rw [ofBitVec_signOf, toNat_exponentOf, toNat_mantissaOf, hb, h52, h11, h63]
  cases negative with
  | false =>
    rw [if_neg Bool.false_ne_true, decide_eq_false (by omega)]
    exact ⟨rfl, by omega, by omega⟩
  | true =>
    rw [if_pos rfl, decide_eq_true (by omega)]
    exact ⟨rfl, by omega, by omega⟩

lemma unpack_toFloat_zero (negative : Bool) (e : Int) :
    (toFloat negative ⟨0, e⟩).toModel.unpack = .zero (sign negative) := by
  cases negative
  · change (Float.ofBits (pattern false 0 0)).toModel.unpack = _
    rfl
  · change (Float.ofBits (pattern true 0 0)).toModel.unpack = _
    rfl

/-- A magnitude with at most 53 bits is written as it is. -/
lemma unpack_toFloat (negative : Bool) {m : Nat} {e : Int} (hm : 0 < m) (hlt : m < 2 ^ 53)
    (hleast : -1074 ≤ e) (hmost : e ≤ 971) :
    ∃ k : Nat, ∃ hpos, (toFloat negative ⟨m, e⟩).toModel.unpack =
      .finite (sign negative) (m * 2 ^ k) (e - k) hpos := by
  have htop : m.log2 ≤ 52 := Nat.le_of_lt_succ ((Nat.log2_lt (Nat.ne_of_gt hm)).mpr hlt)
  have hself := Nat.log2_self_le (Nat.ne_of_gt hm)
  have hnext : m < 2 ^ (m.log2 + 1) := Nat.lt_log2_self
  by_cases hlow : (m.log2 : Int) + e < -1022
  · -- a subnormal number
    have hfits : m * 2 ^ (e + 1074).toNat < 2 ^ 52 := by
      calc m * 2 ^ (e + 1074).toNat < 2 ^ (m.log2 + 1) * 2 ^ (e + 1074).toNat :=
            Nat.mul_lt_mul_of_pos_right hnext (Nat.two_pow_pos _)
        _ = 2 ^ (m.log2 + 1 + (e + 1074).toNat) := (Nat.pow_add ..).symm
        _ ≤ 2 ^ 52 := Nat.pow_le_pow_right (by decide) (by omega)
    obtain ⟨hs, he, hmant⟩ := parts_pattern negative (e := 0) (by decide) hfits
    obtain ⟨hpos, hu⟩ := unpack_subnormal_toNat he (by
      rw [hmant]
      exact Nat.ne_of_gt (Nat.mul_pos hm (Nat.two_pow_pos _)))
    have hbits : toFloat negative ⟨m, e⟩ =
        Float.ofBits (pattern negative 0 (m * 2 ^ (e + 1074).toNat)) := by
      simp only [toFloat, pattern, if_neg (Nat.ne_of_gt hm), if_pos hlow]
      rw [Nat.zero_mul, Nat.zero_add]
      rfl
    have hexponent : e - ((e + 1074).toNat : Int) = -1074 := by omega
    refine ⟨(e + 1074).toNat, Nat.mul_pos hm (Nat.two_pow_pos _), ?_⟩
    rw [hbits, unpack_ofBits, hu]
    exact finite_congr hs hmant hexponent.symm
  · -- a number with an implicit leading bit
    have hfits : m * 2 ^ (52 - m.log2) < 2 ^ 53 := by
      calc m * 2 ^ (52 - m.log2) < 2 ^ (m.log2 + 1) * 2 ^ (52 - m.log2) :=
            Nat.mul_lt_mul_of_pos_right hnext (Nat.two_pow_pos _)
        _ = 2 ^ 53 := by rw [← Nat.pow_add]; congr 1; omega
    have hlead : 2 ^ 52 ≤ m * 2 ^ (52 - m.log2) := by
      calc 2 ^ 52 = 2 ^ m.log2 * 2 ^ (52 - m.log2) := by rw [← Nat.pow_add]; congr 1; omega
        _ ≤ m * 2 ^ (52 - m.log2) := Nat.mul_le_mul_right _ hself
    obtain ⟨hs, he, hmant⟩ := parts_pattern negative (e := (m.log2 + e + 1023).toNat)
      (m := m * 2 ^ (52 - m.log2) - 2 ^ 52) (by omega) (by omega)
    obtain ⟨hpos, hu⟩ := unpack_normal_toNat (by rw [he]; omega) (by rw [he]; omega)
    have hmagnitude : (m.log2 + e + 1022).toNat * Nat.pow 2 52 + m * Nat.pow 2 (52 - m.log2) =
        (m.log2 + e + 1023).toNat * Nat.pow 2 52 + (m * 2 ^ (52 - m.log2) - 2 ^ 52) := by
      have hnext : (m.log2 + e + 1023).toNat = (m.log2 + e + 1022).toNat + 1 := by omega
      rw [hnext, Nat.add_mul, Nat.one_mul, Nat.add_assoc]
      exact congrArg _ (Nat.add_sub_cancel' hlead).symm
    have hbits : toFloat negative ⟨m, e⟩ = Float.ofBits
        (pattern negative (m.log2 + e + 1023).toNat (m * 2 ^ (52 - m.log2) - 2 ^ 52)) := by
      simp only [toFloat, pattern, if_neg (Nat.ne_of_gt hm), if_neg hlow, hmagnitude]
    have hexponent : ((m.log2 + e + 1023).toNat : Int) - 1075 = e - (52 - m.log2 : Nat) := by omega
    refine ⟨52 - m.log2, Nat.mul_pos hm (Nat.two_pow_pos _), ?_⟩
    rw [hbits, unpack_ofBits, hu]
    refine finite_congr hs ?_ ?_
    · rw [hmant, Nat.add_sub_cancel' hlead]
    · rw [he, hexponent]

end Dyadic

namespace Binary64

lemma value_toFloat (negative : Bool) {m : Nat} {e : Int} (hlt : m < 2 ^ 53) (hleast : -1074 ≤ e)
    (hmost : e ≤ 971) :
    (Dyadic.toFloat negative ⟨m, e⟩).isFinite = true ∧
      value (Dyadic.toFloat negative ⟨m, e⟩) =
        (Dyadic.sign negative).apply 1 * ((m : ℚ) * 2 ^ e) := by
  change (Dyadic.toFloat negative ⟨m, e⟩).toModel.unpack.isFinite = true ∧ _
  rcases Nat.eq_zero_or_pos m with rfl | hm
  · have hu := Dyadic.unpack_toFloat_zero negative e
    rw [value_of_zero hu, hu]
    exact ⟨rfl, by simp⟩
  · obtain ⟨k, hpos, hu⟩ := Dyadic.unpack_toFloat negative hm hlt hleast hmost
    rw [value_eq_apply hu, hu, zpow_sub₀ two_ne_zero, zpow_natCast]
    refine ⟨rfl, ?_⟩
    push_cast
    field_simp

variable {x y : Float} {s t : Sign} {m n : Nat} {e f : Int} {hm : 0 < m} {hn : 0 < n}

/-- The remainder of two finite numbers is written with the sign of the first one. -/
lemma fmod_of_finite (hx : x.toModel.unpack = .finite s m e hm)
    (hy : y.toModel.unpack = .finite t n f hn) :
    ∃ r, fmod x y = Dyadic.toFloat (Dyadic.signBit x) ⟨r, min e f⟩ ∧ r < 2 ^ 53 ∧
      (r : ℚ) * 2 ^ min e f = Exact.remainder ((m : ℚ) * 2 ^ e) ((n : ℚ) * 2 ^ f) := by
  have hcx := canonical_of_unpack hx
  have hcy := canonical_of_unpack hy
  refine ⟨m * 2 ^ (e - min e f).toNat % (n * 2 ^ (f - min e f).toNat), ?_, ?_, ?_⟩
  · simp only [fmod, Dyadic.ofFloat?_eq, hx, hy, Dyadic.ofUnpacked?, if_neg (Nat.ne_of_gt hn)]
    rfl
  · rcases min_choice e f with hmin | hmin <;> rw [hmin]
    · refine (Nat.mod_le _ _).trans_lt ?_
      simpa using hcx.lt
    · refine (Nat.mod_lt _ (Nat.mul_pos hn (Nat.two_pow_pos _))).trans ?_
      simpa using hcy.lt
  · rw [mul_two_pow_aligned m (min_le_left e f), mul_two_pow_aligned n (min_le_right e f),
      Exact.remainder_natCast_mul _ _ (by positivity)]

lemma fmod_of_zero (hx : x.toModel.unpack = .zero s) (hy : y.toModel.unpack = .finite t n f hn) :
    (fmod x y).toModel.unpack = .zero (Dyadic.sign (Dyadic.signBit x)) := by
  have hread : fmod x y = Dyadic.toFloat (Dyadic.signBit x) ⟨0, min (-1074) f⟩ := by
    simp only [fmod, Dyadic.ofFloat?_eq, hx, hy, Dyadic.ofUnpacked?, if_neg (Nat.ne_of_gt hn),
      Dyadic.remainder, Nat.zero_mul, Nat.zero_mod]
  rw [hread, Dyadic.unpack_toFloat_zero]

lemma remainder_apply (s t : Sign) (a b : ℚ) :
    Exact.remainder (s.apply 1 * a) (t.apply 1 * b) = s.apply 1 * Exact.remainder a b := by
  cases s <;> cases t <;>
    simp [Sign.apply, Exact.remainder_neg_left, Exact.remainder_neg_right]

lemma sign_of_finite (hx : x.toModel.unpack = .finite s m e hm) :
    Dyadic.sign (Dyadic.signBit x) = s :=
  (Dyadic.sign_signBit x).trans (unpack_finite hx).1

lemma sign_of_zero (hx : x.toModel.unpack = .zero s) : Dyadic.sign (Dyadic.signBit x) = s := by
  set b := x.toModel.toBits.toBitVec
  change unpack .binary64 b = _ at hx
  have hones : (exponentOf b).toNat ≠ 2047 := fun h => by
    rw [unpack_ones (BitVec.eq_of_toNat_eq h)] at hx
    split_ifs at hx
  have hzero : (exponentOf b).toNat = 0 := by
    by_contra h
    obtain ⟨hpos, hu⟩ := unpack_normal_toNat h hones
    cases hu.symm.trans hx
  have hnil : (mantissaOf b).toNat = 0 := by
    by_contra h
    obtain ⟨hpos, hu⟩ := unpack_subnormal_toNat hzero h
    cases hu.symm.trans hx
  rw [unpack_zero (fun h => hones (by rw [h]; rfl)) (BitVec.eq_of_toNat_eq hzero)
    (BitVec.eq_of_toNat_eq hnil)] at hx
  exact (Dyadic.sign_signBit x).trans (UnpackedFloat.zero.inj hx)

/-- The remainder of finite numbers is exact. -/
theorem value_fmod (hx : x.isFinite = true) (hy : y.toModel.unpack = .finite t n f hn) :
    (fmod x y).isFinite = true ∧ value (fmod x y) = Exact.remainder (value x) (value y) := by
  rcases (within_of_isFinite hx).cases with ⟨s, hx⟩ | ⟨s, m, e, hm, hx, hcx, -⟩
  · have hr := fmod_of_zero hx hy
    rw [value_of_zero hr, value_of_zero hx, Exact.remainder]
    change (fmod x y).toModel.unpack.isFinite = true ∧ _
    rw [hr]
    exact ⟨rfl, by simp [Exact.trunc]⟩
  · have hcy := canonical_of_unpack hy
    have hleast := hcx.least
    have hleast' := hcy.least
    have hmost := hcx.most
    obtain ⟨r, hr, hlt, hvalue⟩ := fmod_of_finite hx hy
    obtain ⟨hfinite, hwritten⟩ := value_toFloat (Dyadic.signBit x) hlt (e := min e f) (by omega)
      (by omega)
    rw [hr, hwritten, hvalue, value_eq_apply hx, value_eq_apply hy, remainder_apply,
      sign_of_finite hx]
    exact ⟨hfinite, rfl⟩

/-- A number that is smaller than the divisor is its own remainder. -/
theorem fmod_eq_self (hx : x.isFinite = true) (hy : y.toModel.unpack = .finite t n f hn)
    (hlt : |value x| < |value y|) : fmod x y = x := by
  apply unpack_injective
  rcases (within_of_isFinite hx).cases with ⟨s, hx⟩ | ⟨s, m, e, hm, hx, hcx, -⟩
  · rw [fmod_of_zero hx hy, hx, sign_of_zero hx]
  · have hleast := hcx.least
    have hleast' := (canonical_of_unpack hy).least
    have hmost := hcx.most
    have habs (s : Sign) {a : ℚ} (ha : 0 ≤ a) : |(s.apply 1 : ℚ) * a| = a := by
      cases s <;> simp [Sign.apply, abs_of_nonneg ha]
    rw [value_eq_apply hx, value_eq_apply hy, habs s (by positivity), habs t (by positivity)] at hlt
    obtain ⟨r, hr, hlt', hvalue⟩ := fmod_of_finite hx hy
    rw [Exact.remainder_eq_self (by positivity) hlt] at hvalue
    have hpos : 0 < r := by
      refine Nat.pos_of_ne_zero fun hzero => ?_
      have hright : (0 : ℚ) < (m : ℚ) * 2 ^ e := by positivity
      rw [← hvalue, hzero, Nat.cast_zero, zero_mul] at hright
      exact lt_irrefl _ hright
    obtain ⟨k, hpos', hu⟩ := Dyadic.unpack_toFloat (Dyadic.signBit x) hpos hlt' (e := min e f)
      (by omega) (by omega)
    rw [← hr, sign_of_finite hx] at hu
    have hsame : ((r * 2 ^ k : ℕ) : ℚ) * 2 ^ (min e f - k) = (m : ℚ) * 2 ^ e := by
      rw [← hvalue, zpow_sub₀ two_ne_zero, zpow_natCast]
      push_cast
      field_simp
    obtain ⟨hm, he⟩ := (canonical_of_unpack hu).unique hcx hsame
    rw [hu, hx]
    exact finite_congr rfl hm he

end Binary64
end Whereabouts
