import Mathlib.Tactic.FieldSimp
import Whereabouts.Proofs.Binary64.Order
import Whereabouts.Proofs.Binary64.Size

/-! The rational numbers that finite binary64 numbers stand for. They are ordered, and told apart,
as the numbers that stand for them. -/
namespace Whereabouts.Binary64
open Float.Model Float.Model.UnpackedFloat

/-- The number that a finite number stands for; others stand for zero. -/
def value (x : Float) : ℚ :=
  match x.toModel.unpack with
  | .finite s m e _ => s.apply m * 2 ^ e
  | _ => 0

lemma value_of_finite {x : Float} {s : Sign} {m : Nat} {e : Int} {hm : 0 < m}
    (h : x.toModel.unpack = .finite s m e hm) : value x = s.apply m * 2 ^ e := by
  rw [value, h]

lemma value_of_zero {x : Float} {s : Sign} (h : x.toModel.unpack = .zero s) : value x = 0 := by
  rw [value, h]

/-- A whole number has no bits behind the point. -/
lemma value_of_whole {x : Float} {n k : Nat} {hm : 0 < n * 2 ^ k}
    (h : x.toModel.unpack = .finite .positive (n * 2 ^ k) (-k) hm) : value x = n := by
  rw [value_of_finite h, Sign.apply, zpow_neg, zpow_natCast]
  push_cast
  field_simp

lemma unpack_injective {x y : Float} (h : x.toModel.unpack = y.toModel.unpack) : x = y :=
  eq_of_bits ((unpack_inj_of_valid x.toModel.valid y.toModel.valid (by decide)).mp h)

lemma value_eq_apply {x : Float} {s : Sign} {m : Nat} {e : Int} {hm : 0 < m}
    (h : x.toModel.unpack = .finite s m e hm) : value x = s.apply 1 * (m * 2 ^ e) := by
  rw [value_of_finite h, ← mul_assoc]
  cases s <;> simp [Sign.apply]

variable {x y : Float} {s t : Sign} {m n : Nat} {e f : Int} {hm : 0 < m} {hn : 0 < n}

/-- A number is the same on a smaller exponent. -/
lemma mul_two_pow_aligned (m : Nat) {e least : Int} (h : least ≤ e) :
    (m : ℚ) * 2 ^ e = (m * 2 ^ (e - least).toNat : ℕ) * 2 ^ least := by
  have hexponent : e = (e - least).toNat + least := by omega
  push_cast
  rw [mul_assoc, ← zpow_natCast, ← zpow_add₀ two_ne_zero, ← hexponent]

/-- A number with all its bits has no room on a smaller exponent. -/
lemma two_pow_le_aligned (hbits : 2 ^ 52 ≤ n ∨ f ≤ -1074) (hleast : -1074 ≤ e) (hlt : e < f) :
    2 ^ 53 ≤ n * 2 ^ (f - e).toNat := by
  have hfull : 2 ^ 52 ≤ n := hbits.resolve_right (by omega)
  have htwo : 2 ≤ 2 ^ (f - e).toNat := Nat.le_self_pow (by omega) 2
  exact Nat.mul_le_mul hfull htwo

/-- A number is stored in one form only. -/
lemma Canonical.unique (hx : Canonical m e) (hy : Canonical n f)
    (h : (m : ℚ) * 2 ^ e = (n : ℚ) * 2 ^ f) : m = n ∧ e = f := by
  wlog hle : e ≤ f generalizing m n e f
  · obtain ⟨hm, he⟩ := this hy hx h.symm (le_of_not_ge hle)
    exact ⟨hm.symm, he.symm⟩
  rw [mul_two_pow_aligned n hle] at h
  have hm : m = n * 2 ^ (f - e).toNat := by
    exact_mod_cast mul_right_cancel₀ (zpow_ne_zero e two_ne_zero) h
  rcases hle.eq_or_lt with rfl | hlt
  · rw [Int.sub_self, Int.toNat_zero, Nat.pow_zero, Nat.mul_one] at hm
    exact ⟨hm, rfl⟩
  · have hroom := two_pow_le_aligned (hy.full.imp_right le_of_eq) hx.least hlt
    exact absurd hx.lt (by omega)

/-- The exponent decides, and the mantissa for the same exponent. -/
lemma magnitude_lt (hx : Canonical m e) (hy : Canonical n f) (h : e < f ∨ e = f ∧ m < n) :
    (m : ℚ) * 2 ^ e < (n : ℚ) * 2 ^ f := by
  rcases h with hlt | ⟨rfl, hlt⟩
  · rw [mul_two_pow_aligned n hlt.le]
    have hmantissa : m < n * 2 ^ (f - e).toNat :=
      hx.lt.trans_le (two_pow_le_aligned (hy.full.imp_right le_of_eq) hx.least hlt)
    exact mul_lt_mul_of_pos_right (by exact_mod_cast hmantissa) (by positivity)
  · exact mul_lt_mul_of_pos_right (by exact_mod_cast hlt) (by positivity)

lemma apply_negative_value (m : Nat) (e : Int) :
    (Sign.negative.apply m : ℚ) * 2 ^ e = -((m : ℚ) * 2 ^ e) := by
  simp [Sign.apply]

lemma value_lt_of_place {x y : Float} (hx : x.isFinite = true) (hy : y.isFinite = true)
    (h : place x.toModel.unpack < place y.toModel.unpack) : value x < value y := by
  have hpos {m : ℕ} (e : ℤ) (hm : 0 < m) : (0 : ℚ) < (m : ℚ) * 2 ^ e := by positivity
  rcases (within_of_isFinite hx).cases with ⟨s, hx⟩ | ⟨s, m, e, hm, hx, hcx, -⟩ <;>
    rcases (within_of_isFinite hy).cases with ⟨t, hy⟩ | ⟨t, n, f, hn, hy, hcy, -⟩ <;>
    rw [hx, hy] at h
  · exact absurd h (lt_irrefl _)
  · rw [value_of_zero hx, value_of_finite hy]
    cases t with
    | negative => simp [place, Prod.Lex.toLex_lt_toLex] at h
    | positive => exact hpos f hn
  · rw [value_of_zero hy, value_of_finite hx]
    cases s with
    | negative =>
      rw [apply_negative_value]
      exact neg_neg_of_pos (hpos e hm)
    | positive => simp [place, Prod.Lex.toLex_lt_toLex] at h
  · rw [value_of_finite hx, value_of_finite hy]
    cases s <;> cases t
    case positive.positive =>
      refine magnitude_lt hcx hcy ?_
      simpa [place, Prod.Lex.toLex_lt_toLex] using h
    case positive.negative => simp [place, Prod.Lex.toLex_lt_toLex] at h
    case negative.positive =>
      rw [apply_negative_value]
      exact (neg_neg_of_pos (hpos e hm)).trans (hpos f hn)
    case negative.negative =>
      rw [apply_negative_value, apply_negative_value]
      refine neg_lt_neg (magnitude_lt hcy hcx ?_)
      simp only [place, Prod.Lex.toLex_lt_toLex] at h
      omega

lemma value_eq_of_place {x y : Float} (hx : x.isFinite = true) (hy : y.isFinite = true)
    (h : place x.toModel.unpack = place y.toModel.unpack) : value x = value y := by
  have htells := tells_compare (u := x.toModel.unpack) (v := y.toModel.unpack)
    (not_isNaN_of_isFinite hx) (not_isNaN_of_isFinite hy)
  rcases compare_eq (htells.2.mpr h) with ⟨s, hu, -⟩ | ⟨s, t, hu, hv⟩ | ⟨s, m, e, hm, hu, hv⟩
  · change x.toModel.unpack.isFinite = true at hx
    rw [hu] at hx
    cases hx
  · rw [value_of_zero hu, value_of_zero hv]
  · rw [value_of_finite hu, value_of_finite hv]

lemma lt_iff_value {x y : Float} (hx : x.isFinite = true) (hy : y.isFinite = true) :
    x < y ↔ value x < value y := by
  rw [lt_iff_place (not_isNaN_of_isFinite hx) (not_isNaN_of_isFinite hy)]
  refine ⟨value_lt_of_place hx hy, fun h => ?_⟩
  by_contra hge
  rcases (not_lt.mp hge).lt_or_eq with hlt | heq
  · exact lt_asymm h (value_lt_of_place hy hx hlt)
  · exact h.ne (value_eq_of_place hx hy heq.symm)

lemma le_iff_value {x y : Float} (hx : x.isFinite = true) (hy : y.isFinite = true) :
    x ≤ y ↔ value x ≤ value y := by
  have hx' := not_isNaN_of_isFinite hx
  have hy' := not_isNaN_of_isFinite hy
  rw [le_iff_place hx' hy', ← not_lt, ← not_lt, ← lt_iff_place hy' hx', lt_iff_value hy hx]

/-- Numbers that stand for the same number are equal, up to the sign of zero. -/
lemma beq_iff_value {x y : Float} (hx : x.isFinite = true) (hy : y.isFinite = true) :
    (x == y) = true ↔ value x = value y := by
  have htells := tells_compare (u := x.toModel.unpack) (v := y.toModel.unpack)
    (not_isNaN_of_isFinite hx) (not_isNaN_of_isFinite hy)
  change (x.toModel.unpack.compare y.toModel.unpack == some .eq) = true ↔ _
  rw [beq_iff_eq, htells.2]
  refine ⟨value_eq_of_place hx hy, fun h => ?_⟩
  by_contra hne
  rcases lt_or_gt_of_ne hne with hlt | hlt
  · exact (value_lt_of_place hx hy hlt).ne h
  · exact (value_lt_of_place hy hx hlt).ne h.symm

lemma value_zero : value 0.0 = 0 := value_of_zero (s := .positive) rfl

lemma isFinite_zero : (0.0 : Float).isFinite = true := by decide

lemma eq_of_value {x y : Float} (hx : x.isFinite = true) (hy : y.isFinite = true)
    (h : value x = value y) (hne : value x ≠ 0) : x = y := by
  rcases alike_of_beq ((beq_iff_value hx hy).mpr h) with heq | ⟨hzero, -⟩
  · exact heq
  · rw [beq_iff_value hx isFinite_zero, value_zero] at hzero
    exact absurd hzero hne

lemma eq_nan {x : Float} (h : x.isNaN = true) : x = nan := by
  change x.toModel.unpack.isNaN = true at h
  apply unpack_injective
  cases hx : x.toModel.unpack <;> rw [hx] at h <;> first | rfl | cases h

lemma nan_add (x : Float) : nan + x = nan := rfl

lemma add_nan (x : Float) : x + nan = nan := by
  apply unpack_injective
  rw [unpack_add]
  cases x.toModel.unpack <;> rfl

lemma nan_sub (x : Float) : nan - x = nan := rfl

lemma sub_nan (x : Float) : x - nan = nan := by
  apply unpack_injective
  rw [unpack_sub]
  cases x.toModel.unpack <;> rfl

lemma nan_mul (x : Float) : nan * x = nan := rfl

lemma mul_nan (x : Float) : x * nan = nan := by
  apply unpack_injective
  rw [unpack_mul]
  cases x.toModel.unpack <;> rfl

lemma nan_div (x : Float) : nan / x = nan := rfl

lemma sqrt_nan : nan.sqrt = nan := rfl

lemma not_nan_lt (x : Float) : ¬ nan < x := by
  intro h
  have hlt : UnpackedFloat.notANumber.compare x.toModel.unpack = some .lt := lt_iff_compare.mp h
  cases x.toModel.unpack <;> cases hlt

end Whereabouts.Binary64
