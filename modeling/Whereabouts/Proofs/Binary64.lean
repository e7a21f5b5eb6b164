import Whereabouts.Arith.Binary64
import Mathlib.Tactic.Common
import Mathlib.Tactic.SplitIfs

/-! Comparison of binary64 numbers: equality up to the sign of zero, and the distance of a number to
itself. -/
namespace Whereabouts.Binary64
open Float.Model (UnpackedFloat)
open Float.Model.UnpackedFloat

/-- Equal bit by bit, or zero twice: the sign of a zero does not count. -/
def Alike (x y : Float) : Prop := x = y ∨ ((x == 0.0) = true ∧ (y == 0.0) = true)

theorem alike_equivalence : Equivalence Alike where
  refl _ := .inl rfl
  symm
    | .inl h => .inl h.symm
    | .inr ⟨hx, hy⟩ => .inr ⟨hy, hx⟩
  trans
    | .inl h, h' => h ▸ h'
    | h, .inl h' => h' ▸ h
    | .inr ⟨hx, _⟩, .inr ⟨_, hz⟩ => .inr ⟨hx, hz⟩

lemma lt_iff_compare {x y : Float} :
    x < y ↔ x.toModel.unpack.compare y.toModel.unpack = some .lt :=
  decide_eq_true_iff.trans beq_iff_eq

lemma le_iff_compare {x y : Float} :
    x ≤ y ↔ (x.toModel.unpack.compare y.toModel.unpack).any (·.isLE) = true :=
  decide_eq_true_iff

lemma zero_le_iff_compare {x : Float} :
    0.0 ≤ x ↔ ((zero .positive).compare x.toModel.unpack).any (·.isLE) = true :=
  le_iff_compare

lemma unpack_neg (x : Float) : (-x).toModel.unpack =
    unpack .binary64 (UnpackedFloat.pack .binary64 x.toModel.unpack.neg) :=
  rfl

lemma unpack_add (x y : Float) : (x + y).toModel.unpack = unpack .binary64
    (UnpackedFloat.pack .binary64 (add .binary64 x.toModel.unpack y.toModel.unpack)) :=
  rfl

lemma unpack_sub (x y : Float) : (x - y).toModel.unpack = unpack .binary64
    (UnpackedFloat.pack .binary64 (sub .binary64 x.toModel.unpack y.toModel.unpack)) :=
  rfl

lemma unpack_mul (x y : Float) : (x * y).toModel.unpack = unpack .binary64
    (UnpackedFloat.pack .binary64 (mul .binary64 x.toModel.unpack y.toModel.unpack)) :=
  rfl

lemma unpack_div (x y : Float) : (x / y).toModel.unpack = unpack .binary64
    (UnpackedFloat.pack .binary64 (div .binary64 x.toModel.unpack y.toModel.unpack)) :=
  rfl

abbrev signOf (b : BitVec 64) : BitVec 1 := @unpackSign .binary64 b

abbrev exponentOf (b : BitVec 64) : BitVec 11 := @unpackExponent .binary64 b

abbrev mantissaOf (b : BitVec 64) : BitVec 52 := @unpackMantissa .binary64 b

lemma signOf_eq (b : BitVec 64) : signOf b = b.extractLsb 63 63 := rfl

lemma exponentOf_eq (b : BitVec 64) : exponentOf b = b.extractLsb 62 52 := rfl

lemma mantissaOf_eq (b : BitVec 64) : mantissaOf b = b.extractLsb 51 0 := rfl

lemma bits_ext {b c : BitVec 64} (hs : signOf b = signOf c) (he : exponentOf b = exponentOf c)
    (hm : mantissaOf b = mantissaOf c) : b = c := by
  apply BitVec.eq_of_getLsbD_eq
  intro i hi
  rw [mantissaOf_eq, mantissaOf_eq] at hm
  rw [exponentOf_eq, exponentOf_eq] at he
  rw [signOf_eq, signOf_eq] at hs
  have hmi := congrArg (·.getLsbD i) hm
  have hei := congrArg (·.getLsbD (i - 52)) he
  have hsi := congrArg (·.getLsbD (i - 63)) hs
  simp at hmi hei hsi
  by_cases h₁ : i < 52
  · simpa [show i ≤ 51 by omega] using hmi
  by_cases h₂ : i < 63
  · simpa [show i ≤ 62 by omega, Nat.add_sub_cancel' (show 52 ≤ i by omega)] using hei
  · obtain rfl : i = 63 := by omega
    exact hsi

lemma ofBitVec_injective {s t : BitVec 1} (h : Sign.ofBitVec s = Sign.ofBitVec t) : s = t := by
  rcases s.eq_zero_or_eq_one with rfl | rfl <;> rcases t.eq_zero_or_eq_one with rfl | rfl
  · rfl
  · cases h
  · cases h
  · rfl

lemma unpack_ones {b : BitVec 64} (he : exponentOf b = -1#11) :
    unpack .binary64 b =
      if mantissaOf b = 0#52 then .infinity (Sign.ofBitVec (signOf b)) else .notANumber :=
  if_pos he

lemma unpack_ones_ne_finite {b : BitVec 64} (he : exponentOf b = -1#11) {s : Sign} {m : Nat}
    {e : Int} {hm : 0 < m} : unpack .binary64 b ≠ .finite s m e hm := by
  rw [unpack_ones he]
  by_cases h : mantissaOf b = 0#52
  · rw [if_pos h]
    exact nofun
  · rw [if_neg h]
    exact nofun

lemma unpack_zero {b : BitVec 64} (he : exponentOf b ≠ -1#11) (hz : exponentOf b = 0#11)
    (hm : mantissaOf b = 0#52) : unpack .binary64 b = .zero (Sign.ofBitVec (signOf b)) :=
  (if_neg he).trans <| (if_pos hz).trans <| dif_pos hm

lemma unpack_subnormal {b : BitVec 64} (he : exponentOf b ≠ -1#11) (hz : exponentOf b = 0#11)
    (hm : mantissaOf b ≠ 0#52) :
    ∃ hpos, unpack .binary64 b =
      .finite (Sign.ofBitVec (signOf b)) (mantissaOf b).toNat
        ((exponentOf b).toNat - 1075 + 1) hpos :=
  ⟨_, (if_neg he).trans <| (if_pos hz).trans <| dif_neg hm⟩

lemma unpack_normal {b : BitVec 64} (he : exponentOf b ≠ -1#11) (hz : exponentOf b ≠ 0#11) :
    ∃ hpos, unpack .binary64 b =
      .finite (Sign.ofBitVec (signOf b)) (1#1 ++ mantissaOf b).toNat
        ((exponentOf b).toNat - 1075) hpos :=
  ⟨_, (if_neg he).trans <| if_neg hz⟩

lemma unpack_infinity {b : BitVec 64} {s : Sign} (h : unpack .binary64 b = .infinity s) :
    exponentOf b = -1#11 ∧ mantissaOf b = 0#52 ∧ Sign.ofBitVec (signOf b) = s := by
  by_cases he : exponentOf b = -1#11
  · rw [unpack_ones he] at h
    split_ifs at h with hm
    exact ⟨he, hm, by injection h⟩
  by_cases hz : exponentOf b = 0#11
  · by_cases hm : mantissaOf b = 0#52
    · rw [unpack_zero he hz hm] at h
      cases h
    · obtain ⟨hpos, hu⟩ := unpack_subnormal he hz hm
      cases hu.symm.trans h
  · obtain ⟨hpos, hu⟩ := unpack_normal he hz
    cases hu.symm.trans h

/-- A finite number is subnormal or has an implicit leading bit. -/
lemma unpack_finite {b : BitVec 64} {s : Sign} {m : Nat} {e : Int} {hm : 0 < m}
    (h : unpack .binary64 b = .finite s m e hm) :
    Sign.ofBitVec (signOf b) = s ∧
      (exponentOf b = 0#11 ∧ m = (mantissaOf b).toNat ∧ e = -1074 ∨
        m = 0x10000000000000 + (mantissaOf b).toNat ∧ e = (exponentOf b).toNat - 1075) := by
  by_cases he : exponentOf b = -1#11
  · exact absurd h (unpack_ones_ne_finite he)
  by_cases hz : exponentOf b = 0#11
  · by_cases hm : mantissaOf b = 0#52
    · rw [unpack_zero he hz hm] at h
      cases h
    · obtain ⟨hpos, hu⟩ := unpack_subnormal he hz hm
      injection hu.symm.trans h with h₁ h₂ h₃
      rw [hz] at h₃
      exact ⟨h₁, .inl ⟨hz, h₂.symm, h₃.symm⟩⟩
  · obtain ⟨hpos, hu⟩ := unpack_normal he hz
    injection hu.symm.trans h with h₁ h₂ h₃
    refine ⟨h₁, .inr ⟨?_, h₃.symm⟩⟩
    rw [← h₂, BitVec.toNat_append, ← Nat.shiftLeft_add_eq_or_of_lt (BitVec.isLt _)]
    rfl

lemma infinity_injective {b c : BitVec 64} {s : Sign} (hb : unpack .binary64 b = .infinity s)
    (hc : unpack .binary64 c = .infinity s) : b = c := by
  obtain ⟨hbe, hbm, hbs⟩ := unpack_infinity hb
  obtain ⟨hce, hcm, hcs⟩ := unpack_infinity hc
  exact bits_ext (ofBitVec_injective (hbs.trans hcs.symm)) (hbe.trans hce.symm)
    (hbm.trans hcm.symm)

lemma finite_injective {b c : BitVec 64} {s : Sign} {m : Nat} {e : Int} {hm : 0 < m}
    (hb : unpack .binary64 b = .finite s m e hm) (hc : unpack .binary64 c = .finite s m e hm) :
    b = c := by
  obtain ⟨hbs, hb⟩ := unpack_finite hb
  obtain ⟨hcs, hc⟩ := unpack_finite hc
  have hs : signOf b = signOf c := ofBitVec_injective (hbs.trans hcs.symm)
  have hbm := (mantissaOf b).isLt
  have hcm := (mantissaOf c).isLt
  rcases hb with ⟨hbe, hb, hbE⟩ | ⟨hb, hbE⟩ <;> rcases hc with ⟨hce, hc, hcE⟩ | ⟨hc, hcE⟩
  · exact bits_ext hs (hbe.trans hce.symm) (BitVec.eq_of_toNat_eq (hb.symm.trans hc))
  · omega
  · omega
  · exact bits_ext hs (BitVec.eq_of_toNat_eq (by omega)) (BitVec.eq_of_toNat_eq (by omega))

lemma eq_of_bits {x y : Float} (h : x.toModel.toBits.toBitVec = y.toModel.toBits.toBitVec) :
    x = y := by
  obtain ⟨⟨⟨b⟩, hb⟩⟩ := x
  obtain ⟨⟨⟨c⟩, hc⟩⟩ := y
  obtain rfl : b = c := h
  rfl

lemma compare_finite {s t : Sign} {m n : Nat} {e f : Int} {hm : 0 < m} {hn : 0 < n}
    (h : (finite s m e hm).compare (finite t n f hn) = some .eq) : s = t ∧ e = f ∧ m = n := by
  have hthen : s = t ∧ (compare e f).then (compare m n) = .eq := by
    cases s <;> cases t
    · have hswap : ((compare e f).then (compare m n)).swap = .eq := Option.some.inj h
      exact ⟨rfl, by simpa using hswap⟩
    · cases h
    · cases h
    · exact ⟨rfl, Option.some.inj h⟩
  simpa [Ordering.then_eq_eq] using hthen

lemma compare_eq {u v : Float.Model.UnpackedFloat} (h : u.compare v = some .eq) :
    (∃ s, u = .infinity s ∧ v = .infinity s) ∨ (∃ s t, u = .zero s ∧ v = .zero t) ∨
      ∃ s m e hm, u = .finite s m e hm ∧ v = .finite s m e hm := by
  cases u with
  | notANumber => cases h
  | infinity s =>
    cases v with
    | infinity t =>
      left
      cases s <;> cases t
      · exact ⟨.negative, rfl, rfl⟩
      · cases h
      · cases h
      · exact ⟨.positive, rfl, rfl⟩
    | notANumber | zero | finite => cases s <;> cases h
  | zero s =>
    cases v with
    | zero t => exact .inr (.inl ⟨s, t, rfl, rfl⟩)
    | notANumber => cases h
    | infinity t => cases t <;> cases h
    | finite t => cases t <;> cases h
  | finite s m e hm =>
    cases v with
    | notANumber => cases s <;> cases h
    | infinity t => cases s <;> cases t <;> cases h
    | zero t => cases s <;> cases h
    | finite t n f hn =>
      obtain ⟨rfl, rfl, rfl⟩ := compare_finite h
      exact .inr (.inr ⟨s, m, e, hm, rfl, rfl⟩)

/-- Numbers that compare as equal are the same up to the sign of zero. -/
theorem alike_of_beq {x y : Float} (h : (x == y) = true) : Alike x y := by
  have hc : x.toModel.unpack.compare y.toModel.unpack = some .eq := eq_of_beq h
  rcases compare_eq hc with ⟨s, hx, hy⟩ | ⟨s, t, hx, hy⟩ | ⟨s, m, e, hm, hx, hy⟩
  · exact .inl (eq_of_bits (infinity_injective hx hy))
  · right
    change (x.toModel.unpack.compare (.zero .positive) == some .eq) = true ∧
      (y.toModel.unpack.compare (.zero .positive) == some .eq) = true
    rw [hx, hy]
    exact ⟨rfl, rfl⟩
  · exact .inl (eq_of_bits (finite_injective hx hy))

theorem beq_self {x : Float} (h : x.isNaN = false) : (x == x) = true := by
  change (x.toModel.unpack.compare x.toModel.unpack == some .eq) = true
  change x.toModel.unpack.isNaN = false at h
  cases hx : x.toModel.unpack with
  | notANumber => rw [hx] at h; cases h
  | infinity s => cases s <;> rfl
  | zero s => rfl
  | finite s m e hm =>
    have hthen : (compare e e).then (compare m m) = .eq := by simp
    rw [beq_iff_eq]
    cases s with
    | negative => exact congrArg (some ·.swap) hthen
    | positive => exact congrArg some hthen

lemma not_lt_nan (x : Float) : ¬ x < nan := by
  intro h
  have hn : nan.toModel.unpack = .notANumber := by rfl
  rw [lt_iff_compare, hn] at h
  cases hx : x.toModel.unpack <;> rw [hx] at h <;> cases h

/-- The difference of a number to itself is zero, or NaN for an infinity. -/
theorem sub_self {x : Float} (h : x.isNaN = false) : x - x = 0.0 ∨ x - x = nan := by
  change x.toModel.unpack.isNaN = false at h
  change Float.ofModel (.pack (sub .binary64 x.toModel.unpack x.toModel.unpack)) = 0.0 ∨
    Float.ofModel (.pack (sub .binary64 x.toModel.unpack x.toModel.unpack)) = nan
  generalize x.toModel.unpack = u at h ⊢
  cases u with
  | notANumber => cases h
  | infinity s => exact .inr (by cases s <;> decide)
  | zero s => exact .inl (by cases s <;> decide)
  | finite s m e hm =>
    left
    have hz : sub .binary64 (.finite s m e hm) (.finite s m e hm) = .zero .positive := by
      change Float.Model.UnpackedFloat.normalize .binary64 (_ - _) _ .positive = _
      rw [Int.sub_self]
      rfl
    rw [hz]
    decide

/-- No tolerance is exceeded by the distance of a number to itself. -/
theorem not_lt_abs_sub_self {x e : Float} (hx : x.isNaN = false) (he : Arith.isNonneg e = true) :
    ¬ e < Arith.abs (x - x) := by
  have he' : ¬ e < 0.0 := by simpa [Arith.isNonneg] using (Bool.and_eq_true_iff.mp he).2
  rcases sub_self hx with h | h <;> rw [h]
  · exact he'
  · exact not_lt_nan e

end Whereabouts.Binary64
