import Whereabouts.Proofs.Binary64.Canonical

/-! Rounding does not lose a number that is far enough above zero. So the inverse and the square of
a finite number from one on lie above zero. -/
namespace Whereabouts.Binary64
open Float.Model Float.Model.UnpackedFloat

/-- A number above zero: infinity, or finite with a positive sign. -/
def Above : Float.Model.UnpackedFloat → Prop
  | .infinity .positive => True
  | .finite .positive _ _ _ => True
  | _ => False

lemma lt_of_above {u : Float.Model.UnpackedFloat} (h : Above u) :
    (UnpackedFloat.zero .positive).lt u = true := by
  match u, h with
  | .infinity .positive, _ => rfl
  | .finite .positive _ _ _, _ => rfl

lemma pos_of_above {x : Float} (h : Above x.toModel.unpack) : 0.0 < x :=
  decide_eq_true (lt_of_above h)

/-- What is above the least positive number is above zero after rounding. -/
theorem above_round {m : Nat} {e : Int} (acc : Accuracy) (hbits : 2 ^ 52 ≤ m ∨ e ≤ -1074)
    (hm : m ≠ 0) (htotal : -1074 < totalExponent m e) :
    Above (unpack .binary64
      (UnpackedFloat.pack .binary64 (roundWithAccuracy .binary64 .positive m e acc))) := by
  rcases roundWithAccuracy_full .positive acc hbits with
    ⟨-, hzero⟩ | ⟨m', e', hm', hrounded, hlt, hfull, hleast, -⟩
  · exact absurd (hzero hm) (by omega)
  · rw [hrounded]
    by_cases hmost : e' ≤ 971
    · rw [unpack_pack ⟨hlt, by omega, hmost, hfull⟩]
      trivial
    · rw [unpack_pack_overflow (by omega)]
      trivial

lemma unpack_one :
    (1.0 : Float).toModel.unpack = .finite .positive (2 ^ 52) (-52) (Nat.two_pow_pos 52) := by
  rfl

lemma le_of_lt {x y : Float} (h : x < y) : x ≤ y := by
  rw [le_iff_compare, lt_iff_compare.mp h]
  rfl

/-- A finite number from one on has all its 53 bits and no exponent that makes it small. -/
lemma unpack_of_one_le {x : Float} (hfinite : x.isFinite = true) (hone : 1.0 ≤ x) :
    ∃ m e hm, x.toModel.unpack = .finite .positive m e hm ∧ 2 ^ 52 ≤ m ∧ m < 2 ^ 53 ∧
      -52 ≤ e ∧ e ≤ 971 := by
  have hle := le_iff_compare.mp hone
  change x.toModel.unpack.isFinite = true at hfinite
  rw [unpack_one] at hle
  cases hx : x.toModel.unpack with
  | notANumber => rw [hx] at hfinite; cases hfinite
  | infinity s => rw [hx] at hfinite; cases hfinite
  | zero s => rw [hx] at hle; cases hle
  | finite s m e hm =>
    rw [hx] at hle
    cases s with
    | negative => cases hle
    | positive =>
      have hcompare : ((compare (-52) e).then (compare (2 ^ 52) m)).isLE = true := hle
      have hones : exponentOf x.toModel.toBits.toBitVec ≠ -1#11 := fun h =>
        unpack_ones_ne_finite h hx
      have hexp : -52 ≤ e := by
        by_contra hlt
        rw [Int.compare_eq_gt.mpr (by omega)] at hcompare
        cases hcompare
      refine ⟨m, e, hm, rfl, ?_⟩
      obtain ⟨-, ⟨-, -, he⟩ | ⟨hm, he⟩⟩ := unpack_finite hx
      · omega
      · have hm' := (mantissaOf x.toModel.toBits.toBitVec).isLt
        have he' := (exponentOf x.toModel.toBits.toBitVec).isLt
        have hones' : (exponentOf x.toModel.toBits.toBitVec).toNat ≠ 2047 := fun h =>
          hones (BitVec.eq_of_toNat_eq h)
        omega

/-- The quotient of a power of two by a number with 53 bits. -/
lemma quotient_bounds {m : Nat} (hlow : 2 ^ 52 ≤ m) (hhigh : m < 2 ^ 53) (k : Nat) :
    2 ^ k ≤ (2 ^ 52) <<< (k + 1) / m ∧ (2 ^ 52) <<< (k + 1) / m < 2 ^ (k + 2) := by
  have hm : 0 < m := by omega
  rw [Nat.le_div_iff_mul_le hm, Nat.div_lt_iff_lt_mul hm, Nat.shiftLeft_eq]
  constructor
  · calc 2 ^ k * m ≤ 2 ^ k * 2 ^ 53 := Nat.mul_le_mul_left _ hhigh.le
      _ = 2 ^ 52 * 2 ^ (k + 1) := by ring
  · calc 2 ^ 52 * 2 ^ (k + 1) ≤ m * 2 ^ (k + 1) := Nat.mul_le_mul_right _ hlow
      _ < m * 2 ^ (k + 1) * 2 := by have := Nat.mul_pos hm (Nat.two_pow_pos (k + 1)); omega
      _ = 2 ^ (k + 2) * m := by ring

/-- The quotient of one by a number with 53 bits has the bits that rounding needs. -/
lemma divCore_one {m : Nat} {e : Int} (hlow : 2 ^ 52 ≤ m) (hhigh : m < 2 ^ 53) (hleast : -52 ≤ e)
    (hmost : e ≤ 971) :
    ∃ q target acc, divCore .binary64 (2 ^ 52) (-52) m e = (q, target, acc) ∧ q ≠ 0 ∧
      (2 ^ 52 ≤ q ∨ target ≤ -1074) ∧
      -52 - e ≤ totalExponent q target ∧ totalExponent q target ≤ -51 - e := by
  have hlog : m.log2 = 52 := by
    rw [Nat.log2_eq_iff (by omega)]
    exact ⟨hlow, hhigh⟩
  have haim : Format.binary64.targetExponent (totalExponent (2 ^ 52) (-52) - totalExponent m e) =
      max (-105 - e) (-1074) := by
    change max ((((2 ^ 52 : Nat).log2 : Int) + 1 + -52) - ((m.log2 : Int) + 1 + e) - 53) (-1074) = _
    rw [hlog, Nat.log2_two_pow]
    omega
  set target := min (-52 - e) (max (-105 - e) (-1074)) with htarget
  obtain ⟨k, hk⟩ : ∃ k, (-52 - e - target).toNat = k + 1 :=
    ⟨(-52 - e - target).toNat - 1, by omega⟩
  have hcore : ∃ acc, divCore .binary64 (2 ^ 52) (-52) m e =
      ((2 ^ 52) <<< (k + 1) / m, target, acc) := by
    simp only [divCore, haim, ← htarget, hk]
    exact ⟨_, rfl⟩
  obtain ⟨acc, hcore⟩ := hcore
  obtain ⟨hquotient, hquotient'⟩ := quotient_bounds hlow hhigh k
  set q := (2 ^ 52) <<< (k + 1) / m
  have hne : q ≠ 0 := Nat.ne_of_gt ((Nat.two_pow_pos k).trans_le hquotient)
  have hqlog := (Nat.le_log2 hne).mpr hquotient
  have hqlog' := (Nat.log2_lt hne).mpr hquotient'
  have htotal : totalExponent q target = q.log2 + 1 + target := rfl
  refine ⟨q, target, acc, hcore, hne, ?_, by omega, by omega⟩
  by_cases hleast : target ≤ -1074
  · exact .inr hleast
  · exact .inl ((Nat.pow_le_pow_right (by decide) (by omega)).trans hquotient)

/-- The inverse of a finite number from one on does not underflow. -/
theorem inverse_pos {r : Float} (hfinite : r.isFinite = true) (hone : 1.0 ≤ r) :
    0.0 < 1.0 / r := by
  obtain ⟨m, e, hm, hr, hlow, hhigh, hleast, hmost⟩ := unpack_of_one_le hfinite hone
  obtain ⟨q, target, acc, hcore, hq, hbits, htotal, -⟩ := divCore_one hlow hhigh hleast hmost
  apply pos_of_above
  rw [unpack_div, unpack_one, hr, UnpackedFloat.div]
  simp only [hcore]
  exact above_round acc hbits hq (by omega)

/-- The square of a finite number from one on. -/
theorem square_pos {r : Float} (hfinite : r.isFinite = true) (hone : 1.0 ≤ r) : 0.0 < r * r := by
  obtain ⟨m, e, hm, hr, hlow, hhigh, hleast, hmost⟩ := unpack_of_one_le hfinite hone
  apply pos_of_above
  rw [unpack_mul, hr]
  change Above (unpack .binary64 (UnpackedFloat.pack .binary64
    (roundWithAccuracy .binary64 .positive (m * m) (e + e) .exact)))
  have hne : m * m ≠ 0 := Nat.ne_of_gt (Nat.mul_pos hm hm)
  have hlog : 104 ≤ (m * m).log2 := by
    rw [Nat.le_log2 hne]
    calc 2 ^ 104 = 2 ^ 52 * 2 ^ 52 := by decide
      _ ≤ m * m := Nat.mul_le_mul hlow hlow
  refine above_round _ (.inl (hlow.trans (Nat.le_mul_of_pos_right m hm))) hne ?_
  change (-1074 : Int) < ((m * m).log2 : Int) + 1 + (e + e)
  omega

end Whereabouts.Binary64
