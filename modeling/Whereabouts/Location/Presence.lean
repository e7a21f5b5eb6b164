/-! The attributes that a location supplies, as a pattern of six bits. -/
namespace Whereabouts

structure Presence where
  bits : BitVec 8
  deriving Repr, DecidableEq, Inhabited

namespace Presence

def none : Presence := ⟨0#8⟩

def position : Presence := ⟨1#8⟩

def speed : Presence := ⟨2#8⟩

def bearing : Presence := ⟨4#8⟩

def altitude : Presence := ⟨8#8⟩

def accuracy : Presence := ⟨16#8⟩

def satellites : Presence := ⟨32#8⟩

def all : Presence := ⟨63#8⟩

/-- The attributes of both. -/
def set (p q : Presence) : Presence := ⟨p.bits ||| q.bits⟩

/-- The attributes of the first that are not in the second. -/
def clear (p q : Presence) : Presence := ⟨p.bits &&& ~~~q.bits⟩

/-- Every attribute of the second is in the first. -/
def contains (p q : Presence) : Bool := p.bits &&& q.bits == q.bits

theorem contains_iff (p q : Presence) :
    p.contains q = true ↔ ∀ i, q.bits.getLsbD i = true → p.bits.getLsbD i = true := by
  simp only [contains, beq_iff_eq]
  constructor
  · intro h i hi
    have := congrArg (·.getLsbD i) h
    simp only [BitVec.getLsbD_and, hi, Bool.and_true] at this
    exact this
  · intro h
    apply BitVec.eq_of_getLsbD_eq
    intro i _
    rw [BitVec.getLsbD_and]
    cases hq : q.bits.getLsbD i with
    | false => simp
    | true => simp [h i hq]

@[simp] theorem contains_none (p : Presence) : p.contains none = true := by
  simp [contains, none]

@[simp] theorem contains_set_self (p q : Presence) : (p.set q).contains q = true := by
  rw [contains_iff]; intro i hi; simp [set, hi]

@[simp] theorem clear_none (p : Presence) : p.clear none = p := by
  show (⟨p.bits &&& BitVec.allOnes 8⟩ : Presence) = p
  rw [BitVec.and_allOnes]

@[simp] theorem set_none (p : Presence) : p.set none = p := by simp [set, none]

/-- Two changes of a pattern are one: what the second drops stays dropped. -/
theorem set_clear_set_clear (p a b c d : Presence) :
    (((p.clear a).set b).clear c).set d = (p.clear (a.set c)).set ((b.clear c).set d) := by
  simp only [set, clear, mk.injEq]
  apply BitVec.eq_of_getLsbD_eq
  intro i hi
  simp only [BitVec.getLsbD_or, BitVec.getLsbD_and, BitVec.getLsbD_not, hi, decide_true,
    Bool.true_and]
  cases p.bits.getLsbD i <;> cases a.bits.getLsbD i <;> cases b.bits.getLsbD i <;>
    cases c.bits.getLsbD i <;> cases d.bits.getLsbD i <;> rfl

/-- The same change a second time does nothing. -/
theorem set_clear_self (p a b : Presence) :
    (((p.clear a).set b).clear a).set b = (p.clear a).set b := by
  simp only [set, clear, mk.injEq]
  apply BitVec.eq_of_getLsbD_eq
  intro i hi
  simp only [BitVec.getLsbD_or, BitVec.getLsbD_and, BitVec.getLsbD_not, hi, decide_true,
    Bool.true_and]
  cases p.bits.getLsbD i <;> cases a.bits.getLsbD i <;> cases b.bits.getLsbD i <;> rfl

theorem contains_set (p q r : Presence) :
    (p.set q).contains r = (p.contains (r.clear q)) := by
  rw [Bool.eq_iff_iff, contains_iff, contains_iff]
  refine forall_congr' fun i => ?_
  simp only [set, clear, BitVec.getLsbD_or, BitVec.getLsbD_and, BitVec.getLsbD_not]
  by_cases h : i < 8
  · cases p.bits.getLsbD i <;> cases q.bits.getLsbD i <;> cases r.bits.getLsbD i <;> simp [h]
  · simp [BitVec.getLsbD_of_ge _ _ (Nat.le_of_not_lt h)]

theorem contains_set_of_contains {p r : Presence} (q : Presence) (h : p.contains r = true) :
    (p.set q).contains r = true := by
  rw [contains_iff] at h ⊢
  intro i hi
  simp [set, h i hi]

theorem contains_clear_of_contains {p q r : Presence} (h : p.contains r = true)
    (hq : r.clear q = r) : (p.clear q).contains r = true := by
  rw [contains_iff] at h ⊢
  intro i hi
  rw [← hq] at hi
  simp only [clear, BitVec.getLsbD_and, Bool.and_eq_true] at hi ⊢
  exact ⟨h i hi.1, hi.2⟩

end Presence
end Whereabouts
