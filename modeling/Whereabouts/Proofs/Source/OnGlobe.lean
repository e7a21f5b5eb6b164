import Whereabouts.Proofs.Source.Placement

/-! What positions that are set by hand do in exact arithmetic. Without rounding nothing else leads
off the globe. -/
namespace Whereabouts

namespace Reckoning

/-- Over the reals a leg between valid points has valid points only. -/
theorem confined_isValid :
    Confined (fun p : Geo.Point ℝ => p.isValid = true) fun left => 0 ≤ left := by
  have hzero : (0.0 : ℝ) = 0 := by norm_num
  refine ⟨rfl, fun x hx => ?_, fun p => id, fun time hpos => ?_, fun left time _ hle => ?_, ?_⟩
  · simpa [Arith.isNonneg] using ⟨rfl, (Arith.lt_of_isPositive hx).le⟩
  · exact (hzero ▸ hpos).le
  · exact sub_nonneg.mpr (not_lt.mp hle)
  · intro start goal left speed hstart hgoal hleft hlt
    have hvalid : start.isValid = true := by
      rcases hstart with hstart | ⟨q, a, b, ha, hb, rfl⟩
      · exact hstart
      · exact (Geo.Point.lies_point_project q a b).isValid ha hb
    have hfraction : left / legTime (start.distance goal) speed ∈ Set.Icc (0 : ℝ) 1 :=
      ⟨div_nonneg hleft (hleft.trans hlt.le), div_le_one_of_le₀ hlt.le (hleft.trans hlt.le)⟩
    exact ⟨Geo.Point.Lies.isValid ⟨_, hfraction, rfl⟩ hvalid hgoal, rfl⟩

end Reckoning

namespace Simulator

open Reckoning (confined_isValid)

/-- Only a position that was set by hand can be invalid. If all that is set by hand is valid, the
source stays on the globe and every store takes what it tells. -/
theorem invalid_only_by_hand {name : String} {d : Demo ℝ} {s₀ : Simulator ℝ}
    (hs₀ : Simulator.new name d = .ok s₀) {es : List (Event ℝ)} (hes : ∀ e ∈ es, e.OnGlobe) :
    let s := s₀.run es
    (∀ p, s.current.position? = some p →
      p.isValid = true ∨ (placements es).getLast? = some p) ∧
    ((∀ p ∈ placements es, p.isValid = true) →
      (∀ p, s.current.position? = some p → p.isValid = true) ∧
      ∀ route table now l, (∀ r, route = some r → r.OnGlobe) →
        (s.poll route table now).1 = some l → ∀ (store : Store ℝ) (slot : Nat),
          slot < store.size → ∃ store', store.update slot l = .ok store') := by
  intro s
  have hsane : s.Sane _ (placements es) := (sane_new confined_isValid hs₀).run confined_isValid hes
  refine ⟨hsane.position, fun hplaced => ?_⟩
  have hvalid {u : Simulator ℝ} (hu : u.Sane _ (placements es)) (p : Geo.Point ℝ)
      (hp : u.current.position? = some p) : p.isValid = true :=
    (hu.position p hp).elim id fun hlast => hplaced p (List.mem_of_getLast? hlast)
  refine ⟨hvalid hsane, fun route table now l hroute hl store slot hslot => ?_⟩
  rw [hsane.exists_update_iff confined_isValid hroute hl]
  refine ⟨hslot, fun p hp => hvalid (hsane.poll confined_isValid hroute table now) p ?_⟩
  rw [← s.eq_of_told route table now hl, hp]

end Simulator
end Whereabouts
