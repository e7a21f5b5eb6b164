import Whereabouts.Proofs.Binary64.Positive
import Whereabouts.Time

/-! Elapsed time as a binary64 number: a millisecond is not lost, and the time of none is zero. -/
namespace Whereabouts.Binary64
open Float.Model Float.Model.UnpackedFloat

/-- A number that is not below one: infinity, or all its 53 bits with an exponent to match. -/
def FromOne : Float.Model.UnpackedFloat → Prop
  | .infinity .positive => True
  | .finite .positive m e _ => 2 ^ 52 ≤ m ∧ -52 ≤ e
  | _ => False

/-- A number from one on does not fall below one by rounding. -/
theorem fromOne_round {m : Nat} {e : Int} (acc : Accuracy) (hlow : 2 ^ 52 ≤ m)
    (htotal : 1 ≤ totalExponent m e) :
    FromOne (unpack .binary64
      (UnpackedFloat.pack .binary64 (roundWithAccuracy .binary64 .positive m e acc))) := by
  rcases roundWithAccuracy_full (e := e) .positive acc (.inl hlow) with
    ⟨-, hzero⟩ | ⟨m', e', hm', hrounded, hlt, hfull, hleast, -⟩
  · exact absurd (hzero (by omega)) (by omega)
  · rw [hrounded]
    by_cases hmost : e' ≤ 971
    · rw [unpack_pack ⟨hlt, by omega, hmost, hfull⟩]
      exact ⟨hfull.resolve_right (by omega), by omega⟩
    · rw [unpack_pack_overflow (by omega)]
      trivial

lemma le_log2_mul_two_pow {m k n : Nat} (h : 2 ^ k ≤ m) : k + n ≤ (m * 2 ^ n).log2 := by
  rw [Nat.le_log2 (Nat.ne_of_gt (Nat.mul_pos (Nat.lt_of_lt_of_le (Nat.two_pow_pos k) h)
    (Nat.two_pow_pos n))), Nat.pow_add]
  exact Nat.mul_le_mul_right _ h

/-- A product with one is rounded once more. -/
lemma fromOne_mul_one {x : Float} (hx : FromOne x.toModel.unpack) :
    FromOne (x * 1.0).toModel.unpack := by
  rw [unpack_mul, unpack_one]
  match hu : x.toModel.unpack, hx with
  | .infinity .positive, _ => trivial
  | .finite .positive m e _, ⟨hlow, he⟩ =>
    have hlog := le_log2_mul_two_pow (n := 52) hlow
    refine fromOne_round _ ?_ ?_
    · exact hlow.trans (Nat.le_mul_of_pos_right _ (Nat.two_pow_pos 52))
    · change 1 ≤ ((m * 2 ^ 52).log2 : Int) + 1 + (e + -52)
      omega

/-- A count of 64 bits that is not zero. -/
lemma fromOne_toFloat {n : UInt64} (hn : 0 < n.toNat) : FromOne n.toFloat.toModel.unpack := by
  have hcompare : compare (n.toNat : Int) 0 = .gt := Int.compare_eq_gt.mpr (by omega)
  have hnormal : UnpackedFloat.ofUInt64 .binary64 n =
      UnpackedFloat.round .binary64 .positive n.toNat 0 := by
    change UnpackedFloat.normalize .binary64 (n.toNat : Int) 0 .positive = _
    rw [UnpackedFloat.normalize, hcompare]
    rfl
  change FromOne (unpack .binary64 (UnpackedFloat.pack .binary64
    (UnpackedFloat.ofUInt64 .binary64 n)))
  rw [hnormal]
  generalize n.toNat = m at hn
  have hself : 2 ^ m.log2 ≤ m := Nat.log2_self_le (by omega)
  have htarget : Format.binary64.targetExponent (totalExponent m 0) = (m.log2 : Int) - 52 := by
    change max ((m.log2 : Int) + 1 + 0 - 53) (-1074) = _
    omega
  have hround : UnpackedFloat.round .binary64 .positive m 0 = roundWithAccuracy .binary64 .positive
      (m <<< (52 - m.log2)) (0 - ((52 - m.log2 : Nat) : Int)) .exact := by
    have hshift : (0 - ((m.log2 : Int) - 52)).toNat = 52 - m.log2 := by omega
    simp only [UnpackedFloat.round, decreaseExponent, htarget, hshift]
  have hlog := le_log2_mul_two_pow (n := 52 - m.log2) hself
  rw [hround, Nat.shiftLeft_eq]
  refine fromOne_round _ ?_ ?_
  · rw [← Nat.le_log2 (Nat.ne_of_gt (Nat.mul_pos hn (Nat.two_pow_pos _)))]
    omega
  · change 1 ≤ ((m * 2 ^ (52 - m.log2)).log2 : Int) + 1 + (0 - ((52 - m.log2 : Nat) : Int))
    omega

lemma ofNat_of_lt {n : Nat} (hn : n < 2 ^ 53) : Float.ofNat n = n.toUInt64.toFloat * 1.0 := by
  have hbound : 0 < Float.exactlyRepresentablePowersOfTen.size := by decide
  have hone : Float.exactlyRepresentablePowersOfTen[0] = 1.0 := by rfl
  change Float.ofScientific n false 0 = _
  rw [Float.ofScientific, dif_pos ⟨hn, by decide⟩, ← hone]
  rfl

/-- A count above zero is a number from one on. -/
theorem fromOne_ofNat {n : Nat} (hn : 0 < n) : FromOne (Float.ofNat n).toModel.unpack := by
  by_cases hsmall : n < 2 ^ 53
  · have hpos : 0 < n.toUInt64.toNat := by
      rw [Nat.toUInt64, UInt64.toNat_ofNat_of_lt' (hsmall.trans (by decide))]
      exact hn
    rw [ofNat_of_lt hsmall]
    exact fromOne_mul_one (fromOne_toFloat hpos)
  · have hlarge : 2 ^ 53 ≤ n := Nat.not_lt.mp hsmall
    have hlog := le_log2_mul_two_pow (n := 53) hlarge
    have hproduct : UnpackedFloat.ofScientific .binary64 n 0 =
        roundWithAccuracy .binary64 .positive (n <<< 53 * 1) (-53 + 0) .exact := by
      rw [UnpackedFloat.ofScientific, dif_neg (by omega), if_neg (by decide), if_neg, if_pos le_rfl]
      · rfl
      · change ¬ (0 : Int) < -(2 ^ 11 + (n.log2 : Int))
        omega
    change FromOne (Float.ofScientific n false 0).toModel.unpack
    rw [Float.ofScientific, dif_neg fun h => hsmall h.1]
    change FromOne (unpack .binary64 (UnpackedFloat.pack .binary64
      (UnpackedFloat.ofScientific .binary64 n 0)))
    rw [hproduct, Nat.mul_one, Nat.shiftLeft_eq]
    refine fromOne_round _ ?_ ?_
    · exact (show 2 ^ 52 ≤ n by omega).trans (Nat.le_mul_of_pos_right _ (Nat.two_pow_pos 53))
    · change 1 ≤ ((n * 2 ^ 53).log2 : Int) + 1 + (-53 + 0)
      omega

lemma unpack_hundred :
    (100.0 : Float).toModel.unpack = .finite .positive (100 * 2 ^ 46) (-46) (by decide) := by
  rfl

/-- The hundredth part of a number from one on does not underflow. -/
lemma hundredth_pos {x : Float} (hx : FromOne x.toModel.unpack) : 0.0 < x / 100.0 := by
  apply pos_of_above
  rw [unpack_div, unpack_hundred]
  match hu : x.toModel.unpack, hx with
  | .infinity .positive, _ => trivial
  | .finite .positive m e hm, ⟨hlow, he⟩ =>
    have hlog : 52 ≤ m.log2 := (Nat.le_log2 (by omega)).mpr hlow
    have htarget : Format.binary64.targetExponent
        (totalExponent m e - totalExponent (100 * 2 ^ 46) (-46)) = (m.log2 : Int) + e - 59 := by
      change max (((m.log2 : Int) + 1 + e) - (((100 * 2 ^ 46 : Nat).log2 : Int) + 1 + -46) - 53)
        (-1074) = _
      rw [(Nat.log2_eq_iff (by decide)).mpr (by decide : 2 ^ 52 ≤ 100 * 2 ^ 46 ∧ _)]
      omega
    -- the dividend has at least 106 bits when it is divided
    obtain ⟨target, k, acc, hk, hleast, hcore⟩ : ∃ (target : Int) (k : Nat) (acc : Accuracy),
        105 ≤ m.log2 + k ∧ -59 ≤ target ∧
          divCore .binary64 m e (100 * 2 ^ 46) (-46) = (m <<< k / (100 * 2 ^ 46), target, acc) := by
      refine ⟨_, _, _, ?_, ?_, rfl⟩
      · rw [htarget]
        omega
      · rw [htarget]
        omega
    have hquotient : 2 ^ 52 ≤ m <<< k / (100 * 2 ^ 46) := by
      rw [Nat.le_div_iff_mul_le (by decide), Nat.shiftLeft_eq]
      calc 2 ^ 52 * (100 * 2 ^ 46) ≤ 2 ^ 105 := by decide
        _ ≤ 2 ^ (m.log2 + k) := Nat.pow_le_pow_right (by decide) hk
        _ = 2 ^ m.log2 * 2 ^ k := Nat.pow_add ..
        _ ≤ m * 2 ^ k := Nat.mul_le_mul_right _ (Nat.log2_self_le (by omega))
    have hround := above_round (e := target) acc (.inl hquotient) (by omega) <| by
      have hbits := (Nat.le_log2 (by omega)).mpr hquotient
      change (-1074 : Int) < ((m <<< k / (100 * 2 ^ 46)).log2 : Int) + 1 + target
      omega
    rw [UnpackedFloat.div]
    simp only [hcore]
    exact hround

/-- Time has passed in deciseconds exactly if it has passed. -/
theorem deciseconds_pos_iff {earlier later : Timestamp} :
    (0.0 : Float) < Timestamp.deciseconds earlier later ↔ earlier < later := by
  constructor
  · intro h
    by_contra hle
    have hzero : Timestamp.elapsed earlier later = 0 := Nat.sub_eq_zero_of_le (Nat.not_lt.mp hle)
    rw [Timestamp.deciseconds, hzero] at h
    exact absurd h (by decide)
  · intro h
    exact hundredth_pos (fromOne_ofNat (Nat.sub_pos_of_lt h))

end Whereabouts.Binary64
