import Mathlib.Data.Prod.Lex
import Mathlib.Order.Compare
import Whereabouts.Proofs.Binary64

/-! Binary64 numbers other than NaN are in a linear order, up to the sign of zero. -/
namespace Whereabouts.Binary64
open Float.Model

/-- The place of a number in the order: its sign and kind, then its exponent and its mantissa. -/
def place : UnpackedFloat → ℤ ×ₗ ℤ ×ₗ ℤ
  | .infinity .negative => toLex (-2, toLex (0, 0))
  | .finite .negative m e _ => toLex (-1, toLex (-e, -(m : ℤ)))
  | .zero _ | .notANumber => toLex (0, toLex (0, 0))
  | .finite .positive m e _ => toLex (1, toLex (e, (m : ℤ)))
  | .infinity .positive => toLex (2, toLex (0, 0))

/-- The outcome of a comparison is how two places lie. -/
def Tells (o : Option Ordering) (p q : ℤ ×ₗ ℤ ×ₗ ℤ) : Prop :=
  (o = some .lt ↔ p < q) ∧ (o = some .eq ↔ p = q)

lemma tells_finite (s : UnpackedFloat.Sign) {m n : Nat} {e f : Int} (hm : 0 < m) (hn : 0 < n) :
    Tells (UnpackedFloat.compare (.finite s m e hm) (.finite s n f hn))
      (place (.finite s m e hm)) (place (.finite s n f hn)) := by
  cases s with
  | negative =>
    change Tells (some ((compare e f).then (compare m n)).swap) (toLex (-1, toLex (-e, -(m : ℤ))))
      (toLex (-1, toLex (-f, -(n : ℤ))))
    simp only [Tells, Option.some.injEq, Ordering.swap_eq_lt, Ordering.swap_eq_eq,
      Ordering.then_eq_gt, Ordering.then_eq_eq, compare_gt_iff_gt,
      Std.LawfulEqCmp.compare_eq_iff_eq, Prod.Lex.toLex_lt_toLex, EmbeddingLike.apply_eq_iff_eq,
      Prod.mk.injEq, true_and]
    omega
  | positive =>
    change Tells (some ((compare e f).then (compare m n))) (toLex (1, toLex (e, (m : ℤ))))
      (toLex (1, toLex (f, (n : ℤ))))
    simp only [Tells, Option.some.injEq, Ordering.then_eq_lt, Ordering.then_eq_eq,
      compare_lt_iff_lt, Std.LawfulEqCmp.compare_eq_iff_eq, Prod.Lex.toLex_lt_toLex,
      EmbeddingLike.apply_eq_iff_eq, Prod.mk.injEq, true_and]
    omega

/-- Numbers of different signs or kinds. -/
lemma tells_of_fst {o : Option Ordering} {a b : ℤ} {p q : ℤ ×ₗ ℤ} (ho : o = some (compare a b))
    (hne : a ≠ b) : Tells o (toLex (a, p)) (toLex (b, q)) := by
  subst ho
  rw [Tells, Option.some.injEq, Option.some.injEq, compare_lt_iff_lt,
    Std.LawfulEqCmp.compare_eq_iff_eq, Prod.Lex.toLex_lt_toLex, EmbeddingLike.apply_eq_iff_eq,
    Prod.mk.injEq]
  exact ⟨⟨.inl, fun h => h.resolve_right fun h => hne h.1⟩, fun h => absurd h hne, fun h => h.1⟩

lemma tells_eq (p : ℤ ×ₗ ℤ ×ₗ ℤ) : Tells (some .eq) p p :=
  ⟨iff_of_false nofun (lt_irrefl p), iff_of_true rfl rfl⟩

/-- Numbers compare as their places do. -/
lemma tells_compare {u v : UnpackedFloat} (hu : u.isNaN = false) (hv : v.isNaN = false) :
    Tells (u.compare v) (place u) (place v) := by
  -- Unless both are finite and of one sign, the first component decides.
  rcases u with s | _ | s | ⟨s, m, e, hm⟩ <;> rcases v with t | _ | t | ⟨t, n, f, hn⟩ <;>
    first
    | exact Bool.noConfusion hu
    | exact Bool.noConfusion hv
    | cases s <;> cases t <;>
        first
        | exact tells_finite _ hm hn
        | exact tells_eq _
        | exact tells_of_fst rfl (by decide)

variable {x y : Float}

lemma lt_iff_place (hx : x.isNaN = false) (hy : y.isNaN = false) :
    x < y ↔ place x.toModel.unpack < place y.toModel.unpack := by
  rw [← (tells_compare (u := x.toModel.unpack) (v := y.toModel.unpack) hx hy).1]
  exact lt_iff_compare

lemma le_iff_place (hx : x.isNaN = false) (hy : y.isNaN = false) :
    x ≤ y ↔ place x.toModel.unpack ≤ place y.toModel.unpack := by
  obtain ⟨hlt, heq⟩ := tells_compare (u := x.toModel.unpack) (v := y.toModel.unpack) hx hy
  rw [le_iff_lt_or_eq, ← hlt, ← heq, le_iff_compare]
  rcases x.toModel.unpack.compare y.toModel.unpack with _ | _ | _ | _ <;> decide

/-- NaN is not compared. -/
lemma not_isNaN_of_le (h : x ≤ y) : x.isNaN = false ∧ y.isNaN = false := by
  rw [le_iff_compare] at h
  change x.toModel.unpack.isNaN = false ∧ y.toModel.unpack.isNaN = false
  cases hx : x.toModel.unpack <;> cases hy : y.toModel.unpack <;> rw [hx, hy] at h <;>
    first
    | exact ⟨rfl, rfl⟩
    | cases h

lemma le_of_le_of_le {z : Float} (h : x ≤ y) (h' : y ≤ z) : x ≤ z := by
  obtain ⟨hx, hy⟩ := not_isNaN_of_le h
  have hz := (not_isNaN_of_le h').2
  rw [le_iff_place hx hy] at h
  rw [le_iff_place hy hz] at h'
  exact (le_iff_place hx hz).mpr (h.trans h')

lemma le_of_not_lt (hx : x.isNaN = false) (hy : y.isNaN = false) (h : ¬ x < y) : y ≤ x := by
  rw [lt_iff_place hx hy, not_lt] at h
  exact (le_iff_place hy hx).mpr h

lemma lt_of_not_le (hx : x.isNaN = false) (hy : y.isNaN = false) (h : ¬ x ≤ y) : y < x := by
  rw [le_iff_place hx hy, not_le] at h
  exact (lt_iff_place hy hx).mpr h

end Whereabouts.Binary64
