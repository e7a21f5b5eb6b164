import Whereabouts.Proofs.Binary64

/-! Binary64 arithmetic over any sine, cosine and arc tangent, since the ones of the platform have
no definition to look into. -/
namespace Whereabouts.Binary64

/-- The functions of a mathematical library. -/
structure Elementary where
  sin : Float → Float
  cos : Float → Float
  atan2 : Float → Float → Float

namespace Elementary

def native : Elementary := ⟨Float.sin, Float.cos, Float.atan2⟩

/-- The arithmetic that runs, with these functions in it. -/
@[reducible] def arith (m : Elementary) : Arith Float :=
  { (inferInstance : Arith Float) with sin := m.sin, cos := m.cos, atan2 := m.atan2 }

lemma arith_native : native.arith = inferInstanceAs (Arith Float) := rfl

/-- What mathematical libraries document of these functions: sine and cosine of a finite number lie
in the unit interval, others have none, and an arc tangent is at most a half turn either way. -/
structure Documented (m : Elementary) : Prop where
  sin_mem : ∀ x, x.isFinite = true → -1.0 ≤ m.sin x ∧ m.sin x ≤ 1.0
  cos_mem : ∀ x, x.isFinite = true → -1.0 ≤ m.cos x ∧ m.cos x ≤ 1.0
  sin_of_infinite : ∀ x, x.isFinite = false → (m.sin x).isNaN = true
  cos_of_infinite : ∀ x, x.isFinite = false → (m.cos x).isNaN = true
  atan2_mem : ∀ y x, y.isNaN = false → x.isNaN = false →
    -Arith.pi ≤ m.atan2 y x ∧ m.atan2 y x ≤ Arith.pi

/-- They also document that an arc tangent of what is not a number is none. -/
structure Strict (m : Elementary) : Prop extends m.Documented where
  atan2_of_nan : ∀ y x, y.isNaN = true ∨ x.isNaN = true → (m.atan2 y x).isNaN = true

end Elementary
end Whereabouts.Binary64
