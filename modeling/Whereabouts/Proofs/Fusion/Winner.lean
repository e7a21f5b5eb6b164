import Whereabouts.Fusion.Winner
import Mathlib.Data.List.Count
import Mathlib.Tactic.Common

/-! The winner of a group is the highest rank among the locations that supply it, and its ties are
its contributors. -/
namespace Whereabouts

namespace Rank

lemma lt_trans {a b c : Rank} (h : a < b) (h' : b < c) : a < c := by
  cases a <;> cases b <;> cases c <;> simp_all
  omega

lemma lt_irrefl (a : Rank) : ¬ a < a := by cases a <;> simp

lemma lt_trichotomy (a b : Rank) : a < b ∨ a = b ∨ b < a := by
  cases a <;> cases b <;> simp
  omega

end Rank

namespace Fusion

variable {R : Type}

/-- A location that is not invalid and has the attribute of a group. -/
def supplies (g : Group) (l : Location R) : Bool := l.has g.presence && l.rank != .invalid

/-- The ranks that compete for a group. -/
def ranks (g : Group) (raw : List (Location R)) : List Rank :=
  (raw.filter (supplies g)).map Location.rank

lemma ranks_cons (g : Group) (l : Location R) (raw : List (Location R)) :
    ranks g (l :: raw) = if supplies g l then l.rank :: ranks g raw else ranks g raw := by
  by_cases h : supplies g l = true <;> simp [ranks, h]

lemma mem_ranks {g : Group} {l : Location R} {raw : List (Location R)} (hl : l ∈ raw)
    (hg : supplies g l = true) : l.rank ∈ ranks g raw :=
  List.mem_map_of_mem (List.mem_filter.mpr ⟨hl, hg⟩)

namespace Winner

/-- The winner of a list of ranks: none lies above it, and its ties are its copies. -/
structure Wins (w : Winner) (rs : List Rank) : Prop where
  not_lt : ∀ r ∈ rs, ¬ w.best < r
  ties_eq : w.ties = rs.count w.best
  attained : w.best = .invalid ∨ w.best ∈ rs

lemma wins_nil : ({} : Winner).Wins [] := ⟨by simp, rfl, .inl rfl⟩

theorem Wins.observe {w : Winner} {rs : List Rank} (h : w.Wins rs) (r : Rank) :
    (w.observe r).Wins (rs ++ [r]) := by
  unfold Winner.observe
  split_ifs with hlt heq
  · have hr : r ∉ rs := fun hr => h.not_lt r hr hlt
    refine ⟨?_, by simp [List.count_eq_zero_of_not_mem hr], .inr (by simp)⟩
    intro x hx hrx
    rcases List.mem_append.mp hx with hx | hx
    · exact h.not_lt x hx (Rank.lt_trans hlt hrx)
    · rw [List.mem_singleton.mp hx] at hrx
      exact Rank.lt_irrefl r hrx
  · subst heq
    refine ⟨?_, by simp [h.ties_eq], .inr (by simp)⟩
    intro x hx hrx
    rcases List.mem_append.mp hx with hx | hx
    · exact h.not_lt x hx hrx
    · exact hlt (List.mem_singleton.mp hx ▸ hrx)
  · refine ⟨?_, by simp [h.ties_eq, heq], h.attained.imp_right (List.mem_append_left _)⟩
    intro x hx hrx
    rcases List.mem_append.mp hx with hx | hx
    · exact h.not_lt x hx hrx
    · exact hlt (List.mem_singleton.mp hx ▸ hrx)

theorem Wins.foldl_observe {w : Winner} {rs : List Rank} (h : w.Wins rs) (rs' : List Rank) :
    (rs'.foldl Winner.observe w).Wins (rs ++ rs') := by
  induction rs' generalizing w rs with
  | nil => simpa using h
  | cons r rs' ih => simpa using ih (h.observe r)

lemma Wins.not_best_lt {v w : Winner} {rs : List Rank} (hv : v.Wins rs) (hw : w.Wins rs) :
    ¬ v.best < w.best := by
  intro hlt
  rcases hw.attained with h | h
  · rw [h] at hlt
    exact Rank.not_lt_invalid _ hlt
  · exact hv.not_lt _ h hlt

/-- A list of ranks has one winner only. -/
theorem Wins.unique {v w : Winner} {rs : List Rank} (hv : v.Wins rs) (hw : w.Wins rs) : v = w := by
  have hbest : v.best = w.best := by
    rcases Rank.lt_trichotomy v.best w.best with h | h | h
    · exact absurd h (hv.not_best_lt hw)
    · exact h
    · exact absurd h (hw.not_best_lt hv)
  have hties : v.ties = w.ties := by rw [hv.ties_eq, hw.ties_eq, hbest]
  cases v
  cases w
  simp_all

/-- The winner stays while nothing above it appears and no copy of it comes or goes. -/
theorem Wins.transfer {w : Winner} {rs rs' : List Rank} (h : w.Wins rs)
    (hle : ∀ r ∈ rs', ¬ w.best < r) (hc : rs'.count w.best = rs.count w.best) : w.Wins rs' := by
  refine ⟨hle, h.ties_eq.trans hc.symm, h.attained.imp_right fun hmem => ?_⟩
  rw [← List.count_pos_iff, hc]
  exact List.count_pos_iff.mpr hmem

end Winner

namespace Winners

lemma of_observe (w : Winners) (g : Group) (l : Location R) :
    (w.observe l).of g = if supplies g l then (w.of g).observe l.rank else w.of g := by
  unfold observe supplies
  by_cases h : l.rank = .invalid
  · simp [h]
  · by_cases hp : l.has g.presence = true <;> cases g <;> simp_all [of, Group.presence]

/-- Each group sees its own ranks only. -/
lemma of_foldl_observe (raw : List (Location R)) (w : Winners) (g : Group) :
    (raw.foldl observe w).of g = (ranks g raw).foldl Winner.observe (w.of g) := by
  induction raw generalizing w with
  | nil => rfl
  | cons l raw ih =>
    rw [List.foldl_cons, ih, of_observe, ranks_cons]
    split_ifs <;> rfl

theorem wins_among (raw : List (Location R)) (g : Group) :
    ((among raw).of g).Wins (ranks g raw) := by
  have hinit : (({} : Winners).of g).Wins [] := by cases g <;> exact Winner.wins_nil
  rw [among, of_foldl_observe]
  simpa using hinit.foldl_observe (ranks g raw)

lemma ext_of {v w : Winners} (h : ∀ g, v.of g = w.of g) : v = w := by
  cases v
  cases w
  simp only [mk.injEq]
  exact ⟨h .position, h .speed, h .bearing, h .altitude⟩

lemma uses_eq (w : Winners) (g : Group) (l : Location R) :
    w.uses g l = (supplies g l && l.rank == (w.of g).best) := by
  simp [uses, supplies, Winner.admits, Bool.and_assoc]

lemma usesAny_of_uses {w : Winners} {g : Group} {l : Location R} (h : w.uses g l = true) :
    w.usesAny l = true :=
  List.any_eq_true.mpr ⟨g, by cases g <;> decide, h⟩

lemma validity_of_uses {w : Winners} {g : Group} {l : Location R} (h : w.uses g l = true) :
    l.validity ≠ .invalid := by
  intro hv
  simp [uses_eq, supplies, Location.rank, hv, Rank.combine] at h

lemma filter_usesAny_filter_uses (w : Winners) (g : Group) (raw : List (Location R)) :
    (raw.filter w.usesAny).filter (w.uses g) = w.contributors g raw := by
  rw [contributors, List.filter_filter]
  refine List.filter_congr fun l _ => ?_
  cases h : w.uses g l with
  | false => rfl
  | true => exact usesAny_of_uses h

/-- The ties of a group are the number of its contributors. -/
theorem ties_eq_length (raw : List (Location R)) (g : Group) :
    ((among raw).of g).ties = ((among raw).contributors g raw).length := by
  rw [(wins_among raw g).ties_eq, ranks, List.count_eq_countP, List.countP_map,
    List.countP_filter, contributors, ← List.countP_eq_length_filter]
  refine List.countP_congr fun l _ => ?_
  simp [uses_eq, and_comm]

end Winners
end Fusion
end Whereabouts
