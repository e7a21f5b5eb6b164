import Whereabouts.Arith.Binary64
import Whereabouts.Fusion.Pass
import Whereabouts.Proofs.Fusion.Winner

/-! Locations below the winners have no influence: a pass cannot tell whether they were there. -/
namespace Whereabouts.Fusion

variable {R : Type}

/-- A location without a say: invalid, or strictly below the winner of every group that it
supplies. -/
def Winners.Outranks (w : Winners) (l : Location R) : Prop :=
  l.rank = .invalid ∨ ∀ g : Group, l.has g.presence = true → l.rank < (w.of g).best

namespace Winners

theorem Outranks.lt_best {w : Winners} {l : Location R} (h : w.Outranks l) {g : Group}
    (hg : supplies g l = true) : l.rank < (w.of g).best := by
  obtain ⟨hhas, hrank⟩ : l.has g.presence = true ∧ l.rank ≠ .invalid := by
    simpa [supplies] using hg
  rcases h with h | h
  · exact absurd h hrank
  · exact h g hhas

theorem Outranks.usesAny_eq_false {w : Winners} {l : Location R} (h : w.Outranks l) :
    w.usesAny l = false := by
  rw [usesAny, List.any_eq_false]
  intro g _ hu
  rw [uses_eq, Bool.and_eq_true, beq_iff_eq] at hu
  exact Rank.lt_irrefl _ (hu.2 ▸ h.lt_best hu.1)

/-- Among the locations themselves, those without a say are those that contribute nothing. -/
theorem outranks_iff {raw : List (Location R)} {l : Location R} (hl : l ∈ raw) :
    (among raw).Outranks l ↔ (among raw).usesAny l = false := by
  refine ⟨Outranks.usesAny_eq_false, fun h => ?_⟩
  by_cases hr : l.rank = .invalid
  · exact .inl hr
  right
  intro g hg
  have hs : supplies g l = true := by simp [supplies, hg, hr]
  have hu : (among raw).uses g l = false := by
    have := List.any_eq_false.mp h g (by cases g <;> decide)
    simpa using this
  have hne : l.rank ≠ ((among raw).of g).best := by simpa [uses_eq, hs] using hu
  have hnot := (wins_among raw g).not_lt _ (mem_ranks hl hs)
  rcases Rank.lt_trichotomy l.rank ((among raw).of g).best with h | h | h
  · exact h
  · exact absurd h hne
  · exact absurd h hnot

end Winners

/-- Locations taken out of a list and others put into it, where none of the first has a say
against the winners `w`, and none of the second against the winners `w'`. -/
inductive Edited (w w' : Winners) : List (Location R) → List (Location R) → Prop
  | nil : Edited w w' [] []
  | keep (l : Location R) {raw raw' : List (Location R)} :
      Edited w w' raw raw' → Edited w w' (l :: raw) (l :: raw')
  | remove {l : Location R} {raw raw' : List (Location R)} :
      w.Outranks l → Edited w w' raw raw' → Edited w w' (l :: raw) raw'
  | insert {l : Location R} {raw raw' : List (Location R)} :
      w'.Outranks l → Edited w w' raw raw' → Edited w w' raw (l :: raw')

namespace Edited

variable {w w' : Winners} {raw raw' : List (Location R)}

theorem symm (h : Edited w w' raw raw') : Edited w' w raw' raw := by
  induction h with
  | nil => exact .nil
  | keep l _ ih => exact .keep l ih
  | remove hl _ ih => exact .insert hl ih
  | insert hl _ ih => exact .remove hl ih

/-- An edit passes through the list of all locations that are kept. -/
theorem split (h : Edited w w' raw raw') :
    ∃ core, Edited w w raw core ∧ Edited w' w' core raw' := by
  induction h with
  | nil => exact ⟨[], .nil, .nil⟩
  | keep l _ ih =>
    obtain ⟨core, h, h'⟩ := ih
    exact ⟨l :: core, .keep l h, .keep l h'⟩
  | remove hl _ ih =>
    obtain ⟨core, h, h'⟩ := ih
    exact ⟨core, .remove hl h, h'⟩
  | insert hl _ ih =>
    obtain ⟨core, h, h'⟩ := ih
    exact ⟨core, h, .insert hl h'⟩

/-- The contributors are the same before and after. -/
theorem filter_usesAny (h : Edited w w raw raw') :
    raw.filter w.usesAny = raw'.filter w.usesAny := by
  induction h with
  | nil => rfl
  | keep l _ ih => simp only [List.filter_cons, ih]
  | remove hl _ ih => rw [List.filter_cons, hl.usesAny_eq_false, ih]; rfl
  | insert hl _ ih => rw [List.filter_cons, hl.usesAny_eq_false, ih]; rfl

/-- What an outranked location adds to the ranks of a group is below the winner. -/
lemma ranks_cons_outranked {l : Location R} (hl : w.Outranks l) (g : Group)
    (raw : List (Location R)) :
    ranks g (l :: raw) = ranks g raw ∨
      ranks g (l :: raw) = l.rank :: ranks g raw ∧ l.rank < (w.of g).best := by
  by_cases hs : supplies g l = true
  · exact .inr ⟨by simp [ranks, hs], hl.lt_best hs⟩
  · exact .inl (by simp [ranks, hs])

theorem count_ranks (h : Edited w w raw raw') (g : Group) :
    (ranks g raw').count (w.of g).best = (ranks g raw).count (w.of g).best := by
  have hcons {l : Location R} (hl : w.Outranks l) (raw : List (Location R)) :
      (ranks g (l :: raw)).count (w.of g).best = (ranks g raw).count (w.of g).best := by
    rcases ranks_cons_outranked hl g raw with h | ⟨h, hlt⟩ <;> rw [h]
    have hne : l.rank ≠ (w.of g).best := fun he => Rank.lt_irrefl _ (he ▸ hlt)
    simp [hne]
  induction h with
  | nil => rfl
  | keep l _ ih =>
    rw [ranks_cons, ranks_cons]
    split_ifs
    · rw [List.count_cons, List.count_cons, ih]
    · exact ih
  | remove hl _ ih => rw [ih, hcons hl]
  | insert hl _ ih => rw [hcons hl, ih]

theorem mem_ranks (h : Edited w w raw raw') {g : Group} {r : Rank} (hr : r ∈ ranks g raw') :
    r ∈ ranks g raw ∨ r < (w.of g).best := by
  induction h with
  | nil => exact .inl hr
  | keep l _ ih =>
    rw [ranks_cons] at hr ⊢
    split_ifs at hr ⊢ with hs
    · rcases List.mem_cons.mp hr with rfl | hr
      · exact .inl List.mem_cons_self
      · exact (ih hr).imp_left (List.mem_cons_of_mem _)
    · exact ih hr
  | @remove l raw _ hl _ ih =>
    refine (ih hr).imp_left fun hr => ?_
    rcases ranks_cons_outranked hl g raw with h | ⟨h, -⟩ <;> rw [h]
    · exact hr
    · exact List.mem_cons_of_mem _ hr
  | @insert l _ raw' hl _ ih =>
    rcases ranks_cons_outranked hl g raw' with h | ⟨h, hlt⟩ <;> rw [h] at hr
    · exact ih hr
    · rcases List.mem_cons.mp hr with rfl | hr
      · exact .inr hlt
      · exact ih hr

/-- Every group keeps its winner and its ties. -/
theorem among_eq (h : Edited (Winners.among raw) (Winners.among raw) raw raw') :
    Winners.among raw' = Winners.among raw := by
  apply Winners.ext_of
  intro g
  refine (Winners.wins_among raw' g).unique ((Winners.wins_among raw g).transfer ?_ ?_)
  · intro r hr hlt
    rcases h.mem_ranks hr with hr | hr
    · exact (Winners.wins_among raw g).not_lt r hr hlt
    · exact Rank.lt_irrefl _ (Rank.lt_trans hlt hr)
  · exact h.count_ranks g

/-- Neither the winners nor the contributors notice an edit, whether what is put in is judged
before or after it. -/
theorem winners_and_contributors (hw : w' = Winners.among raw ∨ w' = Winners.among raw')
    (h : Edited (Winners.among raw) w' raw raw') :
    Winners.among raw' = Winners.among raw ∧
      raw'.filter (Winners.among raw).usesAny = raw.filter (Winners.among raw).usesAny := by
  obtain ⟨core, hraw, hcore⟩ := h.split
  have hc := hraw.among_eq
  have heq : Winners.among raw' = Winners.among raw := by
    rcases hw with rfl | rfl
    · rw [← hc] at hcore
      rw [hcore.among_eq, hc]
    · rw [← hcore.symm.among_eq, hc]
  have hw' : w' = Winners.among raw := by
    rcases hw with rfl | rfl
    · rfl
    · exact heq
  subst hw'
  exact ⟨heq, hcore.filter_usesAny.symm.trans hraw.filter_usesAny.symm⟩

end Edited

/-- A pass looks at the winners and at the contributors and at nothing else. -/
theorem merge_congr [Arith R] {raw raw' : List (Location R)}
    (hw : Winners.among raw' = Winners.among raw)
    (hu : raw'.filter (Winners.among raw).usesAny = raw.filter (Winners.among raw).usesAny) :
    merge raw' = merge (R := R) raw := by
  have hg (g : Group) : (Winners.among raw).contributors g raw' =
      (Winners.among raw).contributors g raw := by
    rw [← Winners.filter_usesAny_filter_uses, hu, Winners.filter_usesAny_filter_uses]
  funext fused
  simp only [merge, provenance?, hw, hu, hg]

/-- Whatever locations without a say are taken out of the raw locations, put into them or put in
place of each other: the pass has the same result and announces the same. Among the raw locations
themselves, those without a say are exactly those that win no group. -/
theorem pass_of_edited [Arith R] (s : Settings R) (fused : Location R)
    {raw raw' : List (Location R)} {w' : Winners}
    (hw : w' = Winners.among raw ∨ w' = Winners.among raw')
    (h : Edited (Winners.among raw) w' raw raw') :
    (∀ slice : List (Location R), ∀ l ∈ slice,
      (Winners.among slice).Outranks l ↔ (Winners.among slice).usesAny l = false) ∧
    pass s raw' fused = pass s raw fused ∧
    s.announced (pass s raw' fused).2 = s.announced (pass s raw fused).2 := by
  obtain ⟨hwin, hused⟩ := h.winners_and_contributors hw
  have hpass : pass s raw' fused = pass s raw fused := by
    rw [pass, pass, merge_congr hwin hused]
  exact ⟨fun _ _ hl => Winners.outranks_iff hl, hpass, by rw [hpass]⟩

/-- A position of high preference outranks one of low preference, in whose place an invalid location
comes. -/
theorem pass_of_edited_positions :
    let fix (p : Preference) : Location Float :=
      { (Location.blank p).setPosition ⟨48.0, 11.0⟩ with validity := .valid }
    let lost : Location Float := Location.blank .high
    let w := Winners.among [fix .high, fix .low]
    Edited w w [fix .high, fix .low] [fix .high, lost] ∧
      pass {} [fix .high, lost] lost = pass {} [fix .high, fix .low] lost := by
  intro fix lost w
  have hlow : w.Outranks (fix .low) := by
    right
    intro g
    cases g <;> decide
  have hedit : Edited w w [fix .high, fix .low] [fix .high, lost] :=
    .keep _ (.remove hlow (.insert (.inl rfl) .nil))
  exact ⟨hedit, (pass_of_edited {} lost (.inl rfl) hedit).2.1⟩

end Whereabouts.Fusion
