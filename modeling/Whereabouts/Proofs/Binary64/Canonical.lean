import Mathlib
import Whereabouts.Proofs.Binary64

/-! The mantissa and exponent that binary64 stores of a finite number: what is packed in this form
is unpacked again, and what rounding leaves has it. -/
namespace Whereabouts.Binary64
open Float.Model Float.Model.UnpackedFloat

/-- All 53 bits are used, unless the exponent is the least one. -/
structure Canonical (m : Nat) (e : Int) : Prop where
  lt : m < 2 ^ 53
  least : -1074 ≤ e
  most : e ≤ 971
  full : 2 ^ 52 ≤ m ∨ e = -1074

variable {s : Sign} {m : Nat} {e : Int} {hm : 0 < m}

lemma finite_congr {t : Sign} {n : Nat} {f : Int} {hn : 0 < n} (hs : s = t) (h : m = n)
    (he : e = f) : finite s m e hm = finite t n f hn := by
  subst hs h he
  rfl

lemma toNat_leading_append (v : BitVec 52) : (1#1 ++ v).toNat = 2 ^ 52 + v.toNat := by
  rw [BitVec.toNat_append, ← Nat.shiftLeft_add_eq_or_of_lt (BitVec.isLt _)]
  rfl

lemma unpack_normal_toNat {b : BitVec 64} (hzero : (exponentOf b).toNat ≠ 0)
    (hones : (exponentOf b).toNat ≠ 2047) :
    ∃ hpos, unpack .binary64 b = .finite (Sign.ofBitVec (signOf b)) (2 ^ 52 + (mantissaOf b).toNat)
      ((exponentOf b).toNat - 1075) hpos := by
  obtain ⟨hpos, hu⟩ := unpack_normal (b := b) (fun h => hones (by rw [h]; rfl))
    (fun h => hzero (by rw [h]; rfl))
  exact ⟨Nat.add_pos_left (Nat.two_pow_pos 52) _,
    hu.trans (finite_congr rfl (toNat_leading_append _) rfl)⟩

lemma unpack_subnormal_toNat {b : BitVec 64} (hzero : (exponentOf b).toNat = 0)
    (hne : (mantissaOf b).toNat ≠ 0) :
    ∃ hpos, unpack .binary64 b =
      .finite (Sign.ofBitVec (signOf b)) (mantissaOf b).toNat (-1074) hpos := by
  have hz : exponentOf b = 0#11 := BitVec.eq_of_toNat_eq hzero
  obtain ⟨hpos, hu⟩ := unpack_subnormal (b := b) (hz.trans_ne (by decide)) hz
    (fun h => hne (by rw [h]; rfl))
  refine ⟨hpos, hu.trans ?_⟩
  rw [hzero]
  rfl

lemma canonical_of_unpack {b : BitVec 64} (h : unpack .binary64 b = .finite s m e hm) :
    Canonical m e := by
  have hones : (exponentOf b).toNat ≠ 2047 := fun hones =>
    unpack_ones_ne_finite (BitVec.eq_of_toNat_eq hones) h
  have hmantissa := (mantissaOf b).isLt
  have hexponent := (exponentOf b).isLt
  by_cases hz : (exponentOf b).toNat = 0
  · by_cases hmz : (mantissaOf b).toNat = 0
    · have hu := unpack_zero (b := b) (fun h => hones (by rw [h]; rfl)) (BitVec.eq_of_toNat_eq hz)
        (BitVec.eq_of_toNat_eq hmz)
      cases hu.symm.trans h
    · obtain ⟨hpos, hu⟩ := unpack_subnormal_toNat hz hmz
      injection hu.symm.trans h with _ hm he
      exact ⟨by omega, by omega, by omega, .inr he.symm⟩
  · obtain ⟨hpos, hu⟩ := unpack_normal_toNat hz hones
    injection hu.symm.trans h with _ hm he
    exact ⟨by omega, by omega, by omega, .inl (by omega)⟩

/-- The parts that are packed are the parts of the pattern. -/
lemma parts_packComponents (s : Sign) (e : BitVec 11) (m : BitVec 52) :
    let b := packComponents .binary64 s e m
    Sign.ofBitVec (signOf b) = s ∧ exponentOf b = e ∧ mantissaOf b = m := by
  intro b
  have hsign : signOf b = s.toBitVec := unpackSign_packComponents _ _ _
  refine ⟨?_, unpackExponent_packComponents, unpackMantissa_packComponents⟩
  rw [hsign]
  cases s <;> rfl

lemma pack_finite : UnpackedFloat.pack .binary64 (.finite s m e hm) =
    if 2 ^ 11 ≤ (e + 1075).toNat + 1 then packedInfinity .binary64 s
    else if m.log2 + 1 = 53 then
      packComponents .binary64 s (BitVec.ofNat 11 (e + 1075).toNat) (BitVec.ofNat 52 m)
    else packComponents .binary64 s 0#11 (BitVec.ofNat 52 m) := by
  have hbias : e + (Format.binary64.exponentBias : Int) + (52 : Nat) = e + 1075 := by
    change e + (1023 : Nat) + (52 : Nat) = e + 1075
    omega
  rw [UnpackedFloat.pack]
  simp only [hbias]
  rfl

lemma unpack_pack (h : Canonical m e) :
    unpack .binary64 (UnpackedFloat.pack .binary64 (.finite s m e hm)) = .finite s m e hm := by
  obtain ⟨hlt, hleast, hmost, hfull⟩ := h
  rw [pack_finite, if_neg (by omega)]
  by_cases hlow : 2 ^ 52 ≤ m
  · rw [if_pos (by rw [(Nat.log2_eq_iff (by omega)).mpr ⟨hlow, hlt⟩])]
    obtain ⟨hs, he, hm⟩ := parts_packComponents s (BitVec.ofNat 11 (e + 1075).toNat)
      (BitVec.ofNat 52 m)
    have he := (congrArg BitVec.toNat he).trans
      ((BitVec.toNat_ofNat ..).trans (Nat.mod_eq_of_lt (by omega)))
    have hm := (congrArg BitVec.toNat hm).trans (BitVec.toNat_ofNat ..)
    obtain ⟨hpos, hu⟩ := unpack_normal_toNat (by rw [he]; omega) (by rw [he]; omega)
    rw [hu]
    exact finite_congr hs (by omega) (by omega)
  · obtain rfl : e = -1074 := hfull.resolve_left hlow
    have hlog : m.log2 < 52 := (Nat.log2_lt (Nat.ne_of_gt hm)).mpr (Nat.not_le.mp hlow)
    rw [if_neg (by omega)]
    obtain ⟨hs, he, hm'⟩ := parts_packComponents s 0#11 (BitVec.ofNat 52 m)
    have hm' := (congrArg BitVec.toNat hm').trans
      ((BitVec.toNat_ofNat ..).trans (Nat.mod_eq_of_lt (Nat.not_le.mp hlow)))
    obtain ⟨hpos, hu⟩ := unpack_subnormal_toNat (congrArg BitVec.toNat he)
      (by rw [hm']; exact Nat.ne_of_gt hm)
    rw [hu]
    exact finite_congr hs hm' rfl

lemma unpack_pack_overflow (he : 972 ≤ e) :
    unpack .binary64 (UnpackedFloat.pack .binary64 (.finite s m e hm)) = .infinity s := by
  rw [pack_finite, if_pos (by omega)]
  cases s <;> rfl

lemma unpack_pack_zero (s : Sign) :
    unpack .binary64 (UnpackedFloat.pack .binary64 (.zero s)) = .zero s := by
  cases s <;> rfl

lemma unpack_pack_infinity (s : Sign) :
    unpack .binary64 (UnpackedFloat.pack .binary64 (.infinity s)) = .infinity s := by
  cases s <;> rfl

/-- Packing what was unpacked loses nothing. -/
lemma unpack_pack_unpack (b : BitVec 64) :
    unpack .binary64 (UnpackedFloat.pack .binary64 (unpack .binary64 b)) = unpack .binary64 b := by
  cases h : unpack .binary64 b with
  | notANumber => rfl
  | infinity s => exact unpack_pack_infinity s
  | zero s => exact unpack_pack_zero s
  | finite s m e hm => exact unpack_pack (canonical_of_unpack h)

lemma mantissa_shiftRight (em : ExtendedMantissa) (n : Nat) :
    (em >>> n).mantissa = em.mantissa / 2 ^ n := by
  change (n.repeat ExtendedMantissa.shiftRightOne em).mantissa = _
  induction n with
  | zero => simp [Nat.repeat]
  | succ n ih =>
    change (n.repeat ExtendedMantissa.shiftRightOne em).mantissa / 2 = _
    rw [ih, Nat.div_div_eq_div_mul, Nat.pow_succ]

lemma mantissa_ofMantissaAndAccuracy (m : Nat) (acc : Accuracy) :
    (ExtendedMantissa.ofMantissaAndAccuracy m acc).mantissa = m := by
  match acc with
  | .exact | .inexact .lt | .inexact .eq | .inexact .gt => rfl

lemma mantissa_le_roundedMantissa (em : ExtendedMantissa) : em.mantissa ≤ em.roundedMantissa := by
  match em with
  | ⟨m, false, false⟩ | ⟨m, false, true⟩ => exact Nat.le_refl m
  | ⟨m, true, false⟩ => exact Nat.le_add_right m _
  | ⟨m, true, true⟩ => exact Nat.le_succ m

lemma roundedMantissa_le (em : ExtendedMantissa) : em.roundedMantissa ≤ em.mantissa + 1 := by
  match em with
  | ⟨m, false, false⟩ | ⟨m, false, true⟩ => exact Nat.le_succ m
  | ⟨m, true, false⟩ => exact Nat.add_le_add_left (Nat.le_of_lt_succ (Nat.mod_lt m two_pos)) m
  | ⟨m, true, true⟩ => exact Nat.le_refl _

lemma log2_le_of_lt_two_pow {n : Nat} (h : m < 2 ^ n) (hn : 0 < n) : m.log2 + 1 ≤ n := by
  by_cases hm : m = 0
  · rw [hm]
    exact hn
  · exact (Nat.log2_lt hm).mpr h

/-- Rounding shifts to the exponent that it aims at, if a number has the bits for that. -/
lemma shiftToTargetExponent_eq (acc : Accuracy) (hbits : 2 ^ 52 ≤ m ∨ e ≤ -1074) :
    let shifted := shiftToTargetExponent .binary64 m e acc
    let target := max (totalExponent m e - 53) (-1074)
    e ≤ target ∧ shifted.2 = target ∧ shifted.1.mantissa = m / 2 ^ (target - e).toNat := by
  intro shifted target
  have htotal : totalExponent m e = m.log2 + 1 + e := rfl
  have hreach : e ≤ target := by
    rcases hbits with hbits | hbits
    · have hlog : 52 ≤ m.log2 := (Nat.le_log2 (by omega)).mpr hbits
      omega
    · omega
  refine ⟨hreach, ?_, ?_⟩
  · change e + ((target - e).toNat : Int) = target
    omega
  · exact (mantissa_shiftRight _ _).trans (by rw [mantissa_ofMantissaAndAccuracy]; rfl)

/-- What is shifted there has the form that is stored. -/
lemma shiftToTargetExponent_full (acc : Accuracy) (hbits : 2 ^ 52 ≤ m ∨ e ≤ -1074) :
    let shifted := shiftToTargetExponent .binary64 m e acc
    shifted.1.mantissa < 2 ^ 53 ∧ shifted.2 = max (totalExponent m e - 53) (-1074) ∧
      (2 ^ 52 ≤ shifted.1.mantissa ∨ shifted.2 = -1074) := by
  intro shifted
  obtain ⟨hreach, hexponent, hmantissa⟩ := shiftToTargetExponent_eq acc hbits
  have htotal : totalExponent m e = m.log2 + 1 + e := rfl
  set target := max (totalExponent m e - 53) (-1074) with htarget
  generalize hk : (target - e).toNat = k at hmantissa
  refine ⟨?_, hexponent, ?_⟩
  · rw [hmantissa, Nat.div_lt_iff_lt_mul (Nat.two_pow_pos k), ← Nat.pow_add]
    exact Nat.lt_of_lt_of_le Nat.lt_log2_self (Nat.pow_le_pow_right (by decide) (by omega))
  · rw [hexponent]
    by_cases hleast : target = -1074
    · exact .inr hleast
    · have hne : m ≠ 0 := fun h => by
        subst h
        change totalExponent 0 e = (0 : Nat) + 1 + e at htotal
        omega
      left
      rw [hmantissa, Nat.le_div_iff_mul_le (Nat.two_pow_pos k), ← Nat.pow_add]
      exact (Nat.pow_le_pow_right (by decide) (by omega)).trans (Nat.log2_self_le hne)

/-- A number that is not below the least one keeps a bit. -/
lemma shiftToTargetExponent_pos (acc : Accuracy) (hbits : 2 ^ 52 ≤ m ∨ e ≤ -1074) (hm : m ≠ 0)
    (htotal : -1074 < totalExponent m e) :
    0 < (shiftToTargetExponent .binary64 m e acc).1.mantissa := by
  obtain ⟨hreach, -, hmantissa⟩ := shiftToTargetExponent_eq acc hbits
  change -1074 < (m.log2 : Int) + 1 + e at htotal
  have hlog : totalExponent m e = m.log2 + 1 + e := rfl
  rw [hmantissa]
  refine Nat.div_pos ((Nat.le_log2 hm).mp ?_) (Nat.two_pow_pos _)
  omega

/-- Rounding gives a number in the form that is stored, apart from an exponent that may be too
large, or zero if a number is below the least one. It carries into at most one more bit. -/
lemma roundWithAccuracy_full (s : Sign) (acc : Accuracy) (hbits : 2 ^ 52 ≤ m ∨ e ≤ -1074) :
    roundWithAccuracy .binary64 s m e acc = .zero s ∧ (m ≠ 0 → totalExponent m e ≤ -1074) ∨
    ∃ m' e' hm', roundWithAccuracy .binary64 s m e acc = .finite s m' e' hm' ∧
      m' < 2 ^ 53 ∧ (2 ^ 52 ≤ m' ∨ e' = -1074) ∧
      max (totalExponent m e - 53) (-1074) ≤ e' ∧
      e' ≤ max (totalExponent m e - 53) (-1074) + 1 := by
  obtain ⟨hlt, hexponent, hfull⟩ := shiftToTargetExponent_full acc hbits
  have hpos := shiftToTargetExponent_pos acc hbits
  generalize hfirst : shiftToTargetExponent .binary64 m e acc = first at hlt hexponent hfull hpos
  have hlow := mantissa_le_roundedMantissa first.1
  have hhigh := roundedMantissa_le first.1
  have hbits' : 2 ^ 52 ≤ first.1.roundedMantissa ∨ first.2 ≤ -1074 := by omega
  have htotal : totalExponent first.1.roundedMantissa first.2 =
      first.1.roundedMantissa.log2 + 1 + first.2 := rfl
  obtain ⟨hlt', hexponent', hfull'⟩ := shiftToTargetExponent_full .exact hbits'
  have hpos' := shiftToTargetExponent_pos .exact hbits'
  simp only [roundWithAccuracy, hfirst]
  split_ifs with hzero
  · refine .inl ⟨rfl, fun hm => ?_⟩
    by_contra hlarge
    have hfirst := hpos hm (by omega)
    have hsecond := hpos' (by omega) (by omega)
    omega
  · have hlog : first.1.roundedMantissa.log2 + 1 ≤ 54 :=
      log2_le_of_lt_two_pow (by omega) (by decide)
    have hreach := (shiftToTargetExponent_eq .exact hbits').1
    exact .inr ⟨_, _, Nat.pos_of_ne_zero hzero, rfl, hlt', hfull', by omega, by omega⟩

end Whereabouts.Binary64
