import Whereabouts.Proofs.Fusion.Leaders
import Whereabouts.Proofs.Fusion.Order

/-! What the fused location takes over from the leaders besides their attributes: the greatest fix
type, fix time, validity and preference, and the newest satellite counts. -/
namespace Whereabouts

instance : Std.IsLinearOrder Validity where
  le_refl v := Nat.le_refl v.rank
  le_trans _ _ _ := Nat.le_trans
  le_antisymm _ _ h h' := Validity.rank_injective (Nat.le_antisymm h h')
  le_total v w := Nat.le_total v.rank w.rank

instance : Std.LawfulOrderMax Validity where
  max_eq_or v w := by
    change (if v ≤ w then w else v) = v ∨ (if v ≤ w then w else v) = w
    split_ifs <;> simp
  max_le_iff u v w := by
    change (max u v).rank ≤ w.rank ↔ u.rank ≤ w.rank ∧ v.rank ≤ w.rank
    rw [Validity.rank_max]
    omega

instance : Std.IsLinearOrder Preference where
  le_refl p := Int.le_refl p.level
  le_trans _ _ _ := Int.le_trans
  le_antisymm _ _ h h' := Preference.level_injective (Int.le_antisymm h h')
  le_total p q := Int.le_total p.level q.level

instance : Std.LawfulOrderMax Preference where
  max_eq_or p q := by
    change (if p ≤ q then q else p) = p ∨ (if p ≤ q then q else p) = q
    split_ifs <;> simp
  max_le_iff p q r := by
    change (max p q).level ≤ r.level ↔ p.level ≤ r.level ∧ q.level ≤ r.level
    rw [Preference.level_max]
    omega

namespace Fusion

variable {R : Type}

/-- A value that one of the locations has, and that none of them exceeds. -/
def Peak {α : Type} [LE α] (f : Location R → α) (ls : List (Location R)) (a : α) : Prop :=
  a ∈ ls.map f ∧ ∀ b ∈ ls.map f, b ≤ a

/-- The four maxima of the one walk are maxima by themselves. -/
lemma peaks?_cons (l : Location R) (ls : List (Location R)) :
    peaks? (l :: ls) = some
      { fixType := (ls.map Location.fixType).foldl max l.fixType
        fixTime := (ls.map Location.fixTime).foldl max l.fixTime
        validity := (ls.map Location.validity).foldl max l.validity
        preference := (ls.map Location.preference).foldl max l.preference
        satellites := none } := by
  have hfold (p : Provenance) :
      ls.foldl
        (fun (p : Provenance) (m : Location R) =>
          { p with
            fixType := max p.fixType m.fixType
            fixTime := max p.fixTime m.fixTime
            validity := max p.validity m.validity
            preference := max p.preference m.preference }) p =
      { fixType := (ls.map Location.fixType).foldl max p.fixType
        fixTime := (ls.map Location.fixTime).foldl max p.fixTime
        validity := (ls.map Location.validity).foldl max p.validity
        preference := (ls.map Location.preference).foldl max p.preference
        satellites := p.satellites } := by
    induction ls generalizing p with
    | nil => rfl
    | cons m ls ih => exact ih _
  exact congrArg some (hfold _)

theorem peak_of_peaks? {ls : List (Location R)} {p : Provenance} (h : peaks? ls = some p) :
    Peak Location.fixType ls p.fixType ∧ Peak Location.fixTime ls p.fixTime ∧
      Peak Location.validity ls p.validity ∧ Peak Location.preference ls p.preference := by
  cases ls with
  | nil => cases h
  | cons l ls =>
    rw [peaks?_cons] at h
    obtain rfl := Option.some.inj h
    exact ⟨List.max?_eq_some_iff.mp rfl, List.max?_eq_some_iff.mp rfl,
      List.max?_eq_some_iff.mp rfl, List.max?_eq_some_iff.mp rfl⟩

/-- The last one of the latest among the locations that have satellite counts. -/
def Newest (used : List (Location R)) (l : Location R) : Prop :=
  ∃ before behind, used = before ++ l :: behind ∧ l.has .satellites = true ∧
    (∀ m ∈ before, m.has .satellites = true → m.fixTime ≤ l.fixTime) ∧
    ∀ m ∈ behind, m.has .satellites = true → m.fixTime < l.fixTime

/-- What the walk remembers belongs to the newest location so far. -/
def Remembers (used : List (Location R)) : Option (Timestamp × (Nat × Nat)) → Prop
  | none => ∀ l ∈ used, l.has .satellites = false
  | some (t, s) => ∃ l, Newest used l ∧ l.fixTime = t ∧ l.satellites? = some s

lemma Newest.has {used : List (Location R)} {l : Location R} (h : Newest used l) :
    l.has .satellites = true := by
  obtain ⟨-, -, -, hl, -⟩ := h
  exact hl

lemma Newest.le {used : List (Location R)} {l : Location R} (h : Newest used l) :
    ∀ m ∈ used, m.has .satellites = true → m.fixTime ≤ l.fixTime := by
  obtain ⟨before, behind, rfl, -, hbefore, hbehind⟩ := h
  intro m hm hhas
  rcases List.mem_append.mp hm with hm | hm
  · exact hbefore m hm hhas
  · rcases List.mem_cons.mp hm with rfl | hm
    · exact Nat.le_refl _
    · exact Nat.le_of_lt (hbehind m hm hhas)

/-- An older location behind the newest one does not matter. -/
lemma Newest.snoc {used : List (Location R)} {l m : Location R} (h : Newest used l)
    (hm : m.has .satellites = true → m.fixTime < l.fixTime) : Newest (used ++ [m]) l := by
  obtain ⟨before, behind, rfl, hl, hbefore, hbehind⟩ := h
  refine ⟨before, behind ++ [m], by simp, hl, hbefore, fun n hn => ?_⟩
  rcases List.mem_append.mp hn with hn | hn
  · exact hbehind n hn
  · rw [List.mem_singleton.mp hn]
    exact hm

lemma newest_last {used : List (Location R)} {m : Location R} (hm : m.has .satellites = true)
    (h : ∀ l ∈ used, l.has .satellites = true → l.fixTime ≤ m.fixTime) :
    Newest (used ++ [m]) m :=
  ⟨used, [], rfl, hm, h, nofun⟩

lemma Remembers.newer {used : List (Location R)} {best : Option (Timestamp × (Nat × Nat))}
    (h : Remembers used best) (m : Location R) :
    Remembers (used ++ [m]) (Fusion.newer best m) := by
  cases hm : m.has .satellites with
  | false =>
    rw [newer_of_not_has hm]
    match best, h with
    | none, h =>
      intro l hl
      rcases List.mem_append.mp hl with hl | hl
      · exact h l hl
      · rw [List.mem_singleton.mp hl]
        exact hm
    | some (t, s), ⟨l, hl, ht, hs⟩ =>
      exact ⟨l, hl.snoc fun hhas => by simp [hm] at hhas, ht, hs⟩
  | true =>
    have hcounts : m.satellites? = some (m.satsInView, m.satsUsed) := if_pos hm
    match best, h with
    | none, h =>
      rw [newer_none hm]
      have hnone : ∀ l ∈ used, l.has .satellites = true → l.fixTime ≤ m.fixTime := by
        intro l hl hhas
        simp [h l hl] at hhas
      exact ⟨m, newest_last hm hnone, rfl, hcounts⟩
    | some (t, s), ⟨l, hl, ht, hs⟩ =>
      rw [newer_some hm]
      split_ifs with hle
      · have hlatest : ∀ n ∈ used, n.has .satellites = true → n.fixTime ≤ m.fixTime :=
          fun n hn hhas => (hl.le n hn hhas).trans (ht.trans_le hle)
        exact ⟨m, newest_last hm hlatest, rfl, hcounts⟩
      · have hlt : m.fixTime < l.fixTime := ht ▸ Nat.lt_of_not_le hle
        exact ⟨l, hl.snoc fun _ => hlt, ht, hs⟩

theorem remembers_foldl_newer (used : List (Location R)) :
    Remembers used (used.foldl newer none) := by
  induction used using List.reverseRecOn with
  | nil => exact nofun
  | append_singleton used m ih =>
    rw [List.foldl_append]
    exact ih.newer m

/-- The counts of the newest location, or none if no location has any. -/
theorem latestSatellites?_cases (used : List (Location R)) :
    (∃ l, Newest used l ∧ latestSatellites? used = l.satellites?) ∨
      (∀ l ∈ used, l.has .satellites = false) ∧ latestSatellites? used = none := by
  have h := remembers_foldl_newer used
  rw [latestSatellites?_eq]
  match used.foldl newer none, h with
  | none, h => exact .inr ⟨h, rfl⟩
  | some (_, _), ⟨l, hl, _, hs⟩ => exact .inl ⟨l, hl, hs.symm⟩

/-- The locations that lead some group. -/
def leading (raw : List (Location R)) : List (Location R) :=
  raw.filter fun l => ∃ g ∈ Group.all, Leads g raw l

/-- The leaders of the position, or all leaders if nothing has a position. -/
def deciding (raw : List (Location R)) : List (Location R) :=
  if (leaders .position raw).isEmpty then leading raw else leaders .position raw

lemma filter_usesAny_eq_leading (raw : List (Location R)) :
    raw.filter (Winners.among raw).usesAny = leading raw := by
  apply List.filter_congr
  intro l hl
  rw [Bool.eq_iff_iff, Winners.usesAny, List.any_eq_true, decide_eq_true_iff]
  simp only [uses_iff_leads hl]

lemma leading_eq_nil_iff {raw : List (Location R)} :
    leading raw = [] ↔
      ∀ l ∈ raw, l.validity ≠ .invalid → ∀ g : Group, l.has g.presence = false := by
  have hleaders : leading raw = [] ↔ ∀ g, leaders g raw = [] := by
    simp only [leading, leaders, List.filter_eq_nil_iff, decide_eq_true_iff, not_exists, not_and]
    constructor
    · intro h g l hl
      exact h l hl g (by cases g <;> decide)
    · intro h l hl g _
      exact h g l hl
  rw [hleaders]
  simp only [leaders_eq_nil_iff]
  constructor
  · intro h l hl hv g
    exact h g l hl hv
  · intro h g l hl hv
    exact h l hl hv g

lemma provenance?_eq (raw : List (Location R)) :
    provenance? (Winners.among raw) raw =
      (peaks? (deciding raw)).map fun p =>
        { p with satellites := latestSatellites? (leading raw) } := by
  have hties : (Winners.among raw).position.ties = 0 ↔ (leaders .position raw).isEmpty = true := by
    rw [List.isEmpty_iff_length_eq_zero, ← ties_eq_length_leaders]
    rfl
  simp only [provenance?, deciding, filter_usesAny_eq_leading, contributors_eq_leaders, hties]

variable [Arith R]

/-- What a pass takes over is told afterwards. -/
lemma merge_takes_over {raw : List (Location R)} {p : Provenance}
    (h : provenance? (Winners.among raw) raw = some p) (fused : Location R) :
    let after := merge raw fused
    after.fixType = p.fixType ∧ after.fixTime = p.fixTime ∧ after.validity = p.validity ∧
      after.preference = p.preference ∧
      after.satellites? = p.satellites.or fused.satellites? := by
  intro after
  have hreading := reading_merge raw fused
  simp only [h] at hreading
  exact ⟨congrArg Location.Reading.fixType hreading, congrArg Location.Reading.fixTime hreading,
    congrArg Location.Reading.validity hreading, congrArg Location.Reading.preference hreading,
    congrArg Location.Reading.satellites hreading⟩

/-- Without a leader the location after a pass is invalid and as it was. With leaders it has the
greatest fix type, fix time, validity and preference of those that decide, and the satellite counts
of the newest leader that has some. -/
theorem pass_inherits_from_leaders (s : Settings R) (raw : List (Location R))
    (fused : Location R) :
    let after := (pass s raw fused).1
    (leading raw = [] ↔
      ∀ l ∈ raw, l.validity ≠ .invalid → ∀ g : Group, l.has g.presence = false) ∧
    (leading raw = [] → after = { fused with validity := .invalid }) ∧
    (leading raw ≠ [] →
      Peak Location.fixType (deciding raw) after.fixType ∧
      Peak Location.fixTime (deciding raw) after.fixTime ∧
      Peak Location.validity (deciding raw) after.validity ∧
      Peak Location.preference (deciding raw) after.preference ∧
      after.validity ≠ .invalid ∧
      ((∃ l, Newest (leading raw) l ∧ after.satellites? = l.satellites?) ∨
        (∀ l ∈ leading raw, l.has .satellites = false) ∧
          after.satellites? = fused.satellites?)) := by
  intro after
  refine ⟨leading_eq_nil_iff, fun hnil => ?_, fun hne => ?_⟩
  · have hnone : provenance? (Winners.among raw) raw = none := by
      rw [provenance?_eq_none, filter_usesAny_eq_leading, hnil]
    apply merge_eq_of_invalid
    rw [validity_merge, hnone]
    rfl
  · have hsome : provenance? (Winners.among raw) raw ≠ none := by
      rwa [Ne, provenance?_eq_none, filter_usesAny_eq_leading]
    obtain ⟨p, hp⟩ := Option.ne_none_iff_exists'.mp hsome
    have hvalid : p.validity ≠ .invalid := validity_provenance? hp
    obtain ⟨hfixType, hfixTime, hvalidity, hpreference, hsatellites⟩ := merge_takes_over hp fused
    rw [provenance?_eq] at hp
    obtain ⟨q, hq, rfl⟩ := Option.map_eq_some_iff.mp hp
    obtain ⟨hpeakType, hpeakTime, hpeakValidity, hpeakPreference⟩ := peak_of_peaks? hq
    refine ⟨hfixType ▸ hpeakType, hfixTime ▸ hpeakTime, hvalidity ▸ hpeakValidity,
      hpreference ▸ hpeakPreference, hvalidity ▸ hvalid, ?_⟩
    change after.satellites? = (latestSatellites? (leading raw)).or fused.satellites? at hsatellites
    rw [hsatellites]
    rcases latestSatellites?_cases (leading raw) with ⟨l, hl, hlatest⟩ | ⟨hnone, hlatest⟩
    · left
      have hcounts : l.satellites? = some (l.satsInView, l.satsUsed) := if_pos hl.has
      exact ⟨l, hl, by rw [hlatest, hcounts]; rfl⟩
    · right
      exact ⟨hnone, by rw [hlatest]; rfl⟩

end Fusion
end Whereabouts
