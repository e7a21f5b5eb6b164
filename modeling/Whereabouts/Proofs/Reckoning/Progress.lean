import Whereabouts.Proofs.Reckoning.Meridian
import Whereabouts.Proofs.Binary64.Elementary

/-! Successive calls on the carried location: on a route that does not come back to itself, what an
earlier call has reached is not lost by a later one. -/
namespace Whereabouts.Reckoning

variable {r : Route ℝ} {c : Cursor ℝ}

/-- A leg that leads somewhere stays on one stretch of its item. -/
lemma exists_lies (hr : r.Joined) {s : Stretch ℝ} (hs : s ∈ stretches r) (hc : c.At s) {g : Leg ℝ}
    (hg : g ∈ legsFrom r c) (hne : g.start ≠ g.goal) {f : ℝ} (hf : f ∈ Set.Icc (0 : ℝ) 1) :
    ∃ t ∈ stretches r, t.item = g.item ∧ (g.start.towards g.goal f).Lies t.start t.stop := by
  rcases mem_legsFrom hr hs hc.item_eq hc.segment_eq hg with
    h | ⟨hitem, hstart, hgoal⟩ | ⟨u, hu, -, hgu⟩
  · exact absurd h hne
  · refine ⟨s, hs, hitem.symm, ?_⟩
    rw [hstart, hgoal]
    exact hc.lies.towards hf
  · refine ⟨u, hu, hgu.item_eq.symm, ?_⟩
    rw [hgu.start_eq, hgu.goal_eq]
    exact (Geo.Point.lies_start _ _).towards hf

section

variable {s : Settings ℝ} {table : Option (SpeedTable ℝ)} {now : Timestamp} {l : Location ℝ}

/-- The location after a call; a call that fails leaves it as it is. -/
def carried {R : Type} (l : Location R) : Except Obstacle (Outcome × Location R) → Location R
  | .ok (_, after) => after
  | .error _ => l

/-- A call before the time of the fix tells the item of the closest stretch. -/
lemma advance_of_le (hfix : l.fixTime ≠ Timestamp.never) (hnow : now ≤ l.fixTime)
    (hc : snap? r l.position? = some c) :
    advance s (some r) table now l = .ok (.enRoute c.item, l) := by
  have hzero : (0.0 : ℝ) = 0 := by norm_num
  have hbudget : ¬ (0.0 : ℝ) < Timestamp.deciseconds l.fixTime now := by
    rw [Exact.deciseconds_eq, hzero, Exact.deciseconds, Nat.sub_eq_zero_of_le hnow]
    simp
  simp only [advance, advanceBy, if_neg hfix, hc, if_neg hbudget]

lemma fixTime_of_advance (hfix : l.fixTime ≠ Timestamp.never) (hnow : l.fixTime < now)
    (hc : snap? r l.position? = some c) {outcome : Outcome} {after : Location ℝ}
    (h : advance s (some r) table now l = .ok (outcome, after)) : after.fixTime = now := by
  obtain ⟨road, hroad⟩ := onRoute_of_snap? hc
  rw [advance, advanceBy_eq_arrive _ hfix hnow hc hroad] at h
  rw [← fixTime_arrive s now l, Except.ok.inj h]

/-- A later call leads onto a leg that leads somewhere, or to the destination. -/
lemma advance_of_lt (s : Settings ℝ) (table : Option (SpeedTable ℝ))
    (hfix : l.fixTime ≠ Timestamp.never) (hnow : l.fixTime < now)
    (hc : snap? r l.position? = some c) :
    ∃ after, after.fixTime = now ∧
      ((∃ g ∈ legsFrom r c, g.start ≠ g.goal ∧ ∃ f ∈ Set.Icc (0 : ℝ) 1,
          advance s (some r) table now l = .ok (.enRoute g.item, after) ∧
            after.position? = some (g.start.towards g.goal f)) ∨
        advance s (some r) table now l = .ok (.destinationReached, after) ∧
          after.position? = r.destination?) := by
  obtain ⟨road, hroad⟩ := onRoute_of_snap? hc
  have htime {outcome : Outcome} {after : Location ℝ}
      (h : advance s (some r) table now l = .ok (outcome, after)) : after.fixTime = now :=
    fixTime_of_advance hfix hnow hc h
  rcases advanceBy_on_leg_or_at_end Geo.Point.distance s table hfix hnow hc hroad with
    ⟨g, hg, hcost, f, hf, after, hafter, hposition⟩ | ⟨g, hg, after, hafter, hposition⟩
  · refine ⟨after, htime hafter, .inl ⟨g, hg, ?_, f, ⟨hf.1, hf.2.le⟩, hafter, hposition⟩⟩
    intro heq
    rw [Leg.cost, heq, Geo.Point.distance_self, zero_div, zero_mul] at hcost
    exact hcost rfl
  · exact ⟨after, htime hafter, .inr ⟨hafter, hposition.trans (goal_eq_destination hroad hg).symm⟩⟩

end

/-- The results of successive calls at the given times. -/
def calls {R : Type} [Arith R] (s : Settings R) (r : Route R) (table : Option (SpeedTable R)) :
    Location R → List Timestamp → List (Except Obstacle (Outcome × Location R))
  | _, [] => []
  | l, now :: rest =>
    let result := advance s (some r) table now l
    result :: calls s r table (carried l result) rest

/-- The item that a later call tells is not before the one that an earlier call told. -/
def ItemLe {R : Type} (a b : Except Obstacle (Outcome × Location R)) : Prop :=
  ∀ i j l l', a = .ok (.enRoute i, l) → b = .ok (.enRoute j, l') → i ≤ j

/-- After a call has reached the destination, a later one does so, too. -/
def StaysArrived {R : Type} (r : Route R) (a b : Except Obstacle (Outcome × Location R)) : Prop :=
  ∀ l, a = .ok (.destinationReached, l) →
    ∃ l', b = .ok (.destinationReached, l') ∧ l'.position? = r.destination?

/-- The location is on an item of the route. -/
def On (r : Route ℝ) (i : Nat) (l : Location ℝ) : Prop :=
  ∃ t ∈ stretches r, t.item = i ∧ ∃ p, l.position? = some p ∧ p.Lies t.start t.stop

/-- All that is left to drive is on the given item or on later ones. -/
structure Beyond (r : Route ℝ) (i : Nat) (l : Location ℝ) : Prop where
  exists_le : ∃ t ∈ stretches r, i ≤ t.item
  item_le : ∀ c, snap? r l.position? = some c → ∀ g ∈ legsFrom r c, g.start ≠ g.goal → i ≤ g.item

lemma Beyond.mono {i j : Nat} {l : Location ℝ} (hij : i ≤ j) (h : Beyond r j l) :
    Beyond r i l := by
  obtain ⟨t, ht, hjt⟩ := h.exists_le
  exact ⟨⟨t, ht, hij.trans hjt⟩, fun c hc g hg hne => hij.trans (h.item_le c hc g hg hne)⟩

section

variable {s : Settings ℝ} {table : Option (SpeedTable ℝ)} {now : Timestamp} {l : Location ℝ}

lemma fixTime_carried (hfix : l.fixTime ≠ Timestamp.never) :
    (carried l (advance s (some r) table now l)).fixTime ≠ Timestamp.never := by
  cases hc : snap? r l.position? with
  | none =>
    rw [advance, advanceBy_of_snap?_eq_none hfix hc]
    exact hfix
  | some c =>
    rcases Nat.lt_or_ge l.fixTime now with hlt | hle
    · obtain ⟨after, htime, ⟨_, _, _, _, _, hafter, -⟩ | ⟨hafter, -⟩⟩ :=
        advance_of_lt s table hfix hlt hc
      all_goals
        rw [hafter]
        exact htime ▸ Timestamp.ne_never_of_lt hlt
    · rw [advance_of_le hfix hle hc]
      exact hfix

/-- What relates a call to all those that follow it holds along the calls. -/
lemma pairwise_calls {P : Except Obstacle (Outcome × Location ℝ) →
      Except Obstacle (Outcome × Location ℝ) → Prop}
    (hstep : ∀ (l : Location ℝ) (now : Timestamp) (rest : List Timestamp),
      l.fixTime ≠ Timestamp.never → (now :: rest).Pairwise (· < ·) →
        ∀ result ∈ calls s r table (carried l (advance s (some r) table now l)) rest,
          P (advance s (some r) table now l) result)
    (hfix : l.fixTime ≠ Timestamp.never) {times : List Timestamp}
    (htimes : times.Pairwise (· < ·)) : (calls s r table l times).Pairwise P := by
  induction times generalizing l with
  | nil => exact List.Pairwise.nil
  | cons now rest ih =>
    refine List.pairwise_cons.mpr ⟨hstep l now rest hfix htimes, ?_⟩
    exact ih (fixTime_carried hfix) (List.pairwise_cons.mp htimes).2

end

namespace Unbroken

variable (hr : Unbroken r) {s : Settings ℝ} {table : Option (SpeedTable ℝ)} {now : Timestamp}
  {l : Location ℝ}

include hr

/-- One call at a later time. -/
lemma advance_cases (s : Settings ℝ) (table : Option (SpeedTable ℝ))
    (hfix : l.fixTime ≠ Timestamp.never) (hnow : l.fixTime < now) :
    (snap? r l.position? = none ∧ ∃ e, advance s (some r) table now l = .error e) ∨
      ∃ outcome after, advance s (some r) table now l = .ok (outcome, after) ∧
        after.fixTime = now ∧
        ((∃ c, snap? r l.position? = some c ∧ ∃ g ∈ legsFrom r c, g.start ≠ g.goal ∧
            outcome = .enRoute g.item ∧ On r g.item after) ∨
          outcome = .destinationReached ∧ after.position? = r.destination?) := by
  cases hc : snap? r l.position? with
  | none => exact .inl ⟨rfl, _, advanceBy_of_snap?_eq_none hfix hc⟩
  | some c =>
    obtain ⟨after, htime, ⟨g, hg, hne, f, hf, hafter, hposition⟩ | ⟨hafter, hposition⟩⟩ :=
      advance_of_lt s table hfix hnow hc
    · obtain ⟨t₀, ht₀, hat⟩ := exists_at_of_snap? hc
      obtain ⟨t, ht, hitem, hlies⟩ := exists_lies hr.joined ht₀ hat hg hne hf
      exact .inr ⟨_, after, hafter, htime,
        .inl ⟨c, rfl, g, hg, hne, rfl, t, ht, hitem, _, hposition, hlies⟩⟩
    · exact .inr ⟨_, after, hafter, htime, .inr ⟨rfl, hposition⟩⟩

section

variable (honward : Onward r)

include honward

lemma beyond_of_on {i : Nat} (h : On r i l) : Beyond r i l := by
  obtain ⟨t, ht, rfl, p, hp, hlies⟩ := h
  refine ⟨⟨t, ht, le_rfl⟩, fun c hc g hg hne => ?_⟩
  rw [hp] at hc
  exact hr.item_le honward ht hlies hc hg hne

/-- The destination is on the last item. -/
lemma beyond_of_destination {i : Nat} (hi : ∃ t ∈ stretches r, i ≤ t.item)
    (hl : l.position? = r.destination?) : Beyond r i l := by
  refine ⟨hi, fun c hc g hg hne => ?_⟩
  obtain ⟨t, ht, hit⟩ := hi
  obtain ⟨road, hroad⟩ := onRoute_of_snap? hc
  have hlast := goal_eq_destination hroad
    (List.getLast?_eq_some_getLast (legsFrom_ne_nil hroad))
  obtain ⟨u, hu, hstop, hmax⟩ := exists_stop_eq_destination hlast
  rw [hl, hlast, ← hstop] at hc
  exact hit.trans ((hmax t ht).trans
    (hr.item_le honward hu (Geo.Point.lies_stop _ _) hc hg hne))

lemma item_le_calls (hfix : l.fixTime ≠ Timestamp.never) {i : Nat} (hl : Beyond r i l)
    {times : List Timestamp} (hlater : ∀ t ∈ times, l.fixTime < t)
    (htimes : times.Pairwise (· < ·)) {j : Nat} {after : Location ℝ}
    (h : .ok (.enRoute j, after) ∈ calls s r table l times) : i ≤ j := by
  -- One call hands `Beyond r i` on to the next, whether it ends on the way or at the destination.
  induction times generalizing l with
  | nil => cases h
  | cons now times ih =>
    obtain ⟨hnow, htimes⟩ := List.pairwise_cons.mp htimes
    have hlt := hlater now List.mem_cons_self
    rcases hr.advance_cases s table hfix hlt with
      ⟨-, e, he⟩ | ⟨outcome, l', hadvance, htime, hcase⟩
    · rcases List.mem_cons.mp h with h | h
      · rw [he] at h; cases h
      · rw [he] at h
        exact ih hfix hl (fun t ht => hlater t (List.mem_cons_of_mem now ht)) htimes h
    · rcases List.mem_cons.mp h with h | h
      · rw [hadvance] at h
        obtain ⟨rfl, rfl⟩ := Prod.mk.inj (Except.ok.inj h)
        rcases hcase with ⟨c, hc, g, hg, hne, hitem, -⟩ | ⟨hreached, -⟩
        · cases hitem
          exact hl.item_le c hc g hg hne
        · cases hreached
      · rw [hadvance] at h
        refine ih (htime ▸ Timestamp.ne_never_of_lt hlt) ?_ (fun t ht => htime ▸ hnow t ht)
          htimes h
        rcases hcase with ⟨c, hc, g, hg, hne, -, hon⟩ | ⟨-, hposition⟩
        · exact (hr.beyond_of_on honward hon).mono (hl.item_le c hc g hg hne)
        · exact hr.beyond_of_destination honward hl.exists_le hposition

omit honward in
/-- From a cursor, all that is left to drive is on its item or on later ones. -/
lemma beyond_of_snap? (hc : snap? r l.position? = some c) : Beyond r c.item l := by
  obtain ⟨t, ht, hat⟩ := exists_at_of_snap? hc
  refine ⟨⟨t, ht, hat.item_eq.le⟩, fun c' hc' g hg hne => ?_⟩
  obtain rfl := Option.some.inj (hc.symm.trans hc')
  rcases mem_legsFrom hr.joined ht hat.item_eq hat.segment_eq hg with
    h | ⟨hitem, -⟩ | ⟨u, -, htu, hgu⟩
  · exact absurd h hne
  · rw [hat.item_eq, hitem]
  · rw [hat.item_eq, hgu.item_eq]
    exact htu.item_le

/-- Calls before the time of the fix leave the location where it is. -/
lemma snapped_item_le_calls (hfix : l.fixTime ≠ Timestamp.never)
    (hc : snap? r l.position? = some c) {times : List Timestamp} (htimes : times.Pairwise (· < ·))
    {j : Nat} {after : Location ℝ} (h : .ok (.enRoute j, after) ∈ calls s r table l times) :
    c.item ≤ j := by
  -- The location is the same until the first call that is later than its fix.
  induction times with
  | nil => cases h
  | cons now times ih =>
    obtain ⟨hnow, hrest⟩ := List.pairwise_cons.mp htimes
    rcases Nat.lt_or_ge l.fixTime now with hlt | hle
    · refine hr.item_le_calls honward hfix (hr.beyond_of_snap? hc) ?_ htimes h
      intro t ht
      rcases List.mem_cons.mp ht with rfl | ht
      · exact hlt
      · exact hlt.trans (hnow t ht)
    · have hadvance : advance s (some r) table now l = .ok (.enRoute c.item, l) :=
        advance_of_le hfix hle hc
      rcases List.mem_cons.mp h with h | h
      · rw [hadvance] at h
        cases h
        exact le_rfl
      · rw [hadvance] at h
        exact ih hrest h

lemma itemLe_calls (hfix : l.fixTime ≠ Timestamp.never) {rest : List Timestamp}
    (htimes : (now :: rest).Pairwise (· < ·)) {result : Except Obstacle (Outcome × Location ℝ)}
    (h : result ∈ calls s r table (carried l (advance s (some r) table now l)) rest) :
    ItemLe (advance s (some r) table now l) result := by
  rintro i j l₁ l₂ h₁ rfl
  obtain ⟨hnow, hrest⟩ := List.pairwise_cons.mp htimes
  rw [h₁, carried] at h
  rcases Nat.lt_or_ge l.fixTime now with hlt | hle
  · rcases hr.advance_cases s table hfix hlt with
      ⟨-, e, he⟩ | ⟨outcome, l', hadvance, htime, hcase⟩
    · rw [he] at h₁
      cases h₁
    · rw [hadvance] at h₁
      obtain ⟨rfl, rfl⟩ := Prod.mk.inj (Except.ok.inj h₁)
      rcases hcase with ⟨c, -, g, -, -, hitem, hon⟩ | ⟨hreached, -⟩
      · cases hitem
        exact hr.item_le_calls honward (htime ▸ Timestamp.ne_never_of_lt hlt)
          (hr.beyond_of_on honward hon) (fun t ht => htime ▸ hnow t ht) hrest h
      · cases hreached
  · cases hc : snap? r l.position? with
    | none =>
      rw [advance, advanceBy_of_snap?_eq_none hfix hc] at h₁
      cases h₁
    | some c =>
      rw [advance_of_le hfix hle hc] at h₁
      cases h₁
      exact hr.snapped_item_le_calls honward hfix hc hrest h

end

section

variable (hends : EndsOnce r)

include hends

/-- At the destination nothing is left to drive. -/
lemma start_eq_goal_of_position? (hl : l.position? = r.destination?)
    (hc : snap? r l.position? = some c) {g : Leg ℝ} (hg : g ∈ legsFrom r c) :
    g.start = g.goal := by
  obtain ⟨road, hroad⟩ := onRoute_of_snap? hc
  have hlast := goal_eq_destination hroad
    (List.getLast?_eq_some_getLast (legsFrom_ne_nil hroad))
  rw [hl, hlast] at hc
  exact hr.start_eq_goal hends hlast hc hg

lemma arrived_calls (hfix : l.fixTime ≠ Timestamp.never) (hwalkable : r.walkable ≠ [])
    (hl : l.position? = r.destination?) {times : List Timestamp}
    (hlater : ∀ t ∈ times, l.fixTime < t) (htimes : times.Pairwise (· < ·))
    {result : Except Obstacle (Outcome × Location ℝ)} (h : result ∈ calls s r table l times) :
    ∃ after, result = .ok (.destinationReached, after) ∧ after.position? = r.destination? := by
  induction times generalizing l with
  | nil => cases h
  | cons now times ih =>
    obtain ⟨hnow, htimes⟩ := List.pairwise_cons.mp htimes
    have hlt := hlater now List.mem_cons_self
    rcases hr.advance_cases s table hfix hlt with
      ⟨hnone, -⟩ | ⟨outcome, l', hadvance, htime, ⟨c, hc, g, hg, hne, -⟩ | ⟨rfl, hposition⟩⟩
    · exact absurd (snap?_eq_none.mp hnone) hwalkable
    · exact absurd (hr.start_eq_goal_of_position? hends hl hc hg) hne
    · rcases List.mem_cons.mp h with h | h
      · exact ⟨l', h.trans hadvance, hposition⟩
      · rw [hadvance] at h
        exact ih (htime ▸ Timestamp.ne_never_of_lt hlt) hposition
          (fun t ht => htime ▸ hnow t ht) htimes h

lemma staysArrived_calls (hfix : l.fixTime ≠ Timestamp.never) {rest : List Timestamp}
    (htimes : (now :: rest).Pairwise (· < ·)) {result : Except Obstacle (Outcome × Location ℝ)}
    (h : result ∈ calls s r table (carried l (advance s (some r) table now l)) rest) :
    StaysArrived r (advance s (some r) table now l) result := by
  intro l₁ h₁
  obtain ⟨hnow, hrest⟩ := List.pairwise_cons.mp htimes
  rw [h₁, carried] at h
  cases hc : snap? r l.position? with
  | none =>
    rw [advance, advanceBy_of_snap?_eq_none hfix hc] at h₁
    cases h₁
  | some c =>
    have hwalkable : r.walkable ≠ [] := by
      intro hnil
      rw [snap?_eq_none.mpr hnil] at hc
      cases hc
    rcases Nat.lt_or_ge l.fixTime now with hlt | hle
    · obtain ⟨l', htime, ⟨_, _, _, _, _, hadvance, -⟩ | ⟨hadvance, hposition⟩⟩ :=
        advance_of_lt s table hfix hlt hc
      · rw [hadvance] at h₁
        cases h₁
      · rw [hadvance] at h₁
        cases h₁
        exact hr.arrived_calls hends (htime ▸ Timestamp.ne_never_of_lt hlt) hwalkable hposition
          (fun t ht => htime ▸ hnow t ht) hrest h
    · rw [advance_of_le hfix hle hc] at h₁
      cases h₁

end

end Unbroken

/-- The calls at later and later times along a route without gaps. If no item of it comes back to an
earlier one, the item that they tell does not go down. If it comes to its destination only once,
then after the destination is reached every call tells so and leaves the location there. -/
theorem progress_is_kept {r : Route ℝ} (hr : Unbroken r) (s : Settings ℝ)
    (table : Option (SpeedTable ℝ)) {l : Location ℝ} (hfix : l.fixTime ≠ Timestamp.never)
    {times : List Timestamp} (htimes : times.Pairwise (· < ·)) :
    (Onward r → (calls s r table l times).Pairwise ItemLe) ∧
      (EndsOnce r → (calls s r table l times).Pairwise (StaysArrived r)) := by
  constructor
  · intro honward
    exact pairwise_calls (fun _ _ _ hfix htimes _ h => hr.itemLe_calls honward hfix htimes h)
      hfix htimes
  · intro hends
    exact pairwise_calls (fun _ _ _ hfix htimes _ h => hr.staysArrived_calls hends hfix htimes h)
      hfix htimes

/-- Two streets one after the other, and calls before the fix, on the way and at the end. -/
theorem progress_is_kept_two_streets :
    let r : Route ℝ := ⟨[meridianStreet 0 1, meridianStreet 1 2]⟩
    let l : Location ℝ := { Location.blank .low with fixTime := 1000 }
    let results := calls Settings.default r none l [500, 16000, 1000000, 2000000]
    results.Pairwise ItemLe ∧ results.Pairwise (StaysArrived r) := by
  intro r l results
  have hstretches : stretches r = [⟨0, 0, ⟨0, 0⟩, ⟨1, 0⟩⟩, ⟨1, 0, ⟨1, 0⟩, ⟨2, 0⟩⟩] := rfl
  have hdestination : r.destination? = some ⟨2, 0⟩ := rfl
  have hr : Unbroken r := by
    refine ⟨?_, .cons_cons rfl (.singleton _)⟩
    simp only [hstretches, Geo.Point.isValid_iff]
    norm_num
  have honward : Onward r := by
    unfold Onward
    rw [hstretches]
    rintro s hs t ht hlt p ⟨f, ⟨-, hf⟩, rfl⟩ ⟨g, ⟨hg, -⟩, hp⟩
    simp only [List.mem_cons, List.not_mem_nil, or_false] at hs ht
    rcases hs with rfl | rfl <;> rcases ht with rfl | rfl <;> simp at hlt
    have hlat := congrArg Geo.Point.lat hp
    simp only [Geo.Point.towards] at hlat
    obtain rfl : f = 1 := by linarith
    exact ⟨Geo.Point.towards_one _ _, by simp [Stretch.Before]⟩
  have hends : EndsOnce r := by
    unfold EndsOnce
    rw [hstretches, hdestination]
    rintro s hs p ⟨⟩ ⟨f, ⟨-, hf⟩, hp⟩
    simp only [List.mem_cons, List.not_mem_nil, or_false] at hs
    rcases hs with rfl | rfl
    · have hlat := congrArg Geo.Point.lat hp
      simp only [Geo.Point.towards] at hlat
      linarith
    · exact ⟨rfl, by simp [Stretch.Before]⟩
  have hfix : l.fixTime ≠ Timestamp.never := by decide
  have htimes : [500, 16000, 1000000, 2000000].Pairwise (fun a b : Timestamp => a < b) := by
    decide
  obtain ⟨hitems, harrived⟩ := progress_is_kept hr Settings.default none hfix htimes
  exact ⟨hitems honward, harrived hends⟩

/-- The first degree of the meridian, and then the way back on it. -/
noncomputable def thereAndBack : Route ℝ := ⟨[meridianStreet 0 1, meridianStreet 1 0]⟩

section

variable {x : ℝ}

lemma snap?_thereAndBack (hx : x ∈ Set.Icc (0 : ℝ) 1) :
    snap? thereAndBack (some ⟨x, 0⟩) = some ⟨0, 0, ⟨x, 0⟩⟩ :=
  snap?_meridian [meridianStreet 1 0] hx

/-- The walk from a point of both streets: to the end of the first, and back. -/
lemma legs_thereAndBack (x : ℝ) :
    legsFrom thereAndBack ⟨0, 0, ⟨x, 0⟩⟩ =
      [⟨0, meridianStreet 0 1, ⟨x, 0⟩, ⟨1, 0⟩⟩, ⟨1, meridianStreet 1 0, ⟨1, 0⟩, ⟨1, 0⟩⟩,
        ⟨1, meridianStreet 1 0, ⟨1, 0⟩, ⟨0, 0⟩⟩] :=
  rfl

lemma spent_thereAndBack (hx : x ∈ Set.Icc (0 : ℝ) 1) :
    let spent := spent (Leg.cost Geo.Point.distance (fast.speedOn none))
      (legsFrom thereAndBack ⟨0, 0, ⟨x, 0⟩⟩)
    spent 1 = (1 - x) * degreeCost ∧ spent 2 = (1 - x) * degreeCost ∧
      spent 3 = (2 - x) * degreeCost := by
  have hthere : |1 - x| = 1 - x := abs_of_nonneg (sub_nonneg.mpr hx.2)
  have hback : |(0 : ℝ) - 1| = 1 := by norm_num
  have hstay : |(1 : ℝ) - 1| = 0 := by norm_num
  have h₀ := cost_meridian (by rw [hthere]; linarith [hx.1]) 0 (meridianStreet 0 1)
  have h₁ := cost_meridian (by rw [hstay]; norm_num) 1 (meridianStreet 1 0)
  have h₂ := cost_meridian (by rw [hback]; norm_num) 1 (meridianStreet 1 0)
  rw [hthere] at h₀
  rw [hstay] at h₁
  rw [hback] at h₂
  simp only [legs_thereAndBack, spent_cons_succ, spent_zero, h₀, h₁, h₂]
  refine ⟨by ring, by ring, by ring⟩

variable {l : Location ℝ} {now : Timestamp} (hx : x ∈ Set.Icc (0 : ℝ) 1)
  (hl : l.position? = some ⟨x, 0⟩) (hfix : l.fixTime ≠ Timestamp.never) (hnow : l.fixTime < now)

include hx hl hfix hnow

lemma advance_back (hthere : (1 - x) * degreeCost ≤ Exact.deciseconds l.fixTime now)
    (hback : Exact.deciseconds l.fixTime now < (2 - x) * degreeCost) :
    ∃ after, advance fast (some thereAndBack) none now l = .ok (.enRoute 1, after) ∧
      after.fixTime = now ∧ after.position? =
        some ⟨(2 - x) - Exact.deciseconds l.fixTime now / degreeCost, 0⟩ := by
  have hc := hl ▸ snap?_thereAndBack hx
  obtain ⟨road, hroad⟩ := onRoute_of_snap? hc
  obtain ⟨h₁, h₂, h₃⟩ := spent_thereAndBack hx
  have hstop : StopsIn (Leg.cost Geo.Point.distance (fast.speedOn none))
      (legsFrom thereAndBack ⟨0, 0, ⟨x, 0⟩⟩) (Exact.deciseconds l.fixTime now) 2 := by
    refine ⟨fun i hi => ?_, h₃ ▸ hback⟩
    obtain rfl | rfl : i = 0 ∨ i = 1 := by omega
    · rw [h₁]
      exact not_lt.mpr hthere
    · rw [h₂]
      exact not_lt.mpr hthere
  have hg : (legsFrom thereAndBack ⟨0, 0, ⟨x, 0⟩⟩)[2]? =
      some ⟨1, meridianStreet 1 0, ⟨1, 0⟩, ⟨0, 0⟩⟩ := rfl
  obtain ⟨after, hafter, hposition, -⟩ :=
    advanceBy_of_stopsIn Geo.Point.distance hfix hnow hc hroad hg hstop
  refine ⟨after, hafter, fixTime_of_advance hfix hnow hc hafter, hposition.trans ?_⟩
  have hone : |(0 : ℝ) - 1| = 1 := by norm_num
  have hcost := cost_meridian (by rw [hone]; norm_num) 1 (meridianStreet 1 0)
  rw [partOf, h₂, hcost, hone, one_mul, sub_div, mul_div_cancel_right₀ _ degreeCost_pos.ne',
    Geo.Point.towards]
  congr 2 <;> ring

lemma advance_home (hback : (2 - x) * degreeCost ≤ Exact.deciseconds l.fixTime now) :
    ∃ after, advance fast (some thereAndBack) none now l = .ok (.destinationReached, after) ∧
      after.fixTime = now ∧ after.position? = some ⟨0, 0⟩ := by
  have hc := hl ▸ snap?_thereAndBack hx
  obtain ⟨road, hroad⟩ := onRoute_of_snap? hc
  obtain ⟨h₁, h₂, h₃⟩ := spent_thereAndBack hx
  have hpos := degreeCost_pos
  have hthere : (1 - x) * degreeCost ≤ Exact.deciseconds l.fixTime now := by linarith
  have hpaid : ∀ j < (legsFrom thereAndBack ⟨0, 0, ⟨x, 0⟩⟩).length,
      ¬ StopsIn (Leg.cost Geo.Point.distance (fast.speedOn none))
        (legsFrom thereAndBack ⟨0, 0, ⟨x, 0⟩⟩) (Exact.deciseconds l.fixTime now) j := by
    rintro j hj ⟨-, hstop⟩
    have hlt : j < 3 := hj
    obtain rfl | rfl | rfl : j = 0 ∨ j = 1 ∨ j = 2 := by omega
    · rw [h₁] at hstop
      linarith
    · rw [h₂] at hstop
      linarith
    · rw [h₃] at hstop
      linarith
  obtain ⟨g, hg, after, hafter, hposition⟩ :=
    advanceBy_of_not_stopsIn Geo.Point.distance hfix hnow hc hroad hpaid
  obtain rfl := Option.some.inj (hg : some _ = some g)
  exact ⟨after, hafter, fixTime_of_advance hfix hnow hc hafter, hposition⟩

end

lemma second_of_pairwise {R : Type} [Arith R] {P : Except Obstacle (Outcome × Location R) →
      Except Obstacle (Outcome × Location R) → Prop}
    {r : Route R} {s : Settings R} {table : Option (SpeedTable R)} {l after : Location R}
    {t₁ t₂ : Timestamp} {outcome : Outcome} (h : (calls s r table l [t₁, t₂]).Pairwise P)
    (hfirst : advance s (some r) table t₁ l = .ok (outcome, after)) :
    P (.ok (outcome, after)) (advance s (some r) table t₂ after) := by
  simp only [calls, hfirst, carried] at h
  exact List.rel_of_pairwise_cons h List.mem_cons_self

/-- On a street there and back, a call on the way back is followed by one on the way there, and a
call that has reached the destination by one that starts again. -/
theorem there_and_back_loses_progress :
    let l : Location ℝ := { (Location.blank .low).setPosition ⟨0, 0⟩ with fixTime := 1000 }
    fast.validate = .ok () ∧
      ¬ (calls fast thereAndBack none l [16000, 17000]).Pairwise ItemLe ∧
      ¬ (calls fast thereAndBack none l [101000, 102000]).Pairwise
        (StaysArrived thereAndBack) := by
  intro l
  obtain ⟨hlow, hhigh⟩ := degreeCost_mem
  have hpos := degreeCost_pos
  have hl : l.position? = some ⟨0, 0⟩ := if_pos (Presence.contains_set_self _ _)
  have hfix : l.fixTime ≠ Timestamp.never := by decide
  have hx : (0 : ℝ) ∈ Set.Icc (0 : ℝ) 1 := ⟨le_rfl, zero_le_one⟩
  have hbudget {t₁ t₂ : Timestamp} {b : ℝ} (h : ((t₂ - t₁ : ℕ) : ℝ) = b * 100) :
      (Exact.deciseconds t₁ t₂ : ℝ) = b := by
    rw [Exact.deciseconds, h, mul_div_cancel_right₀ _ (by norm_num)]
  refine ⟨validate_fast, fun h => ?_, fun h => ?_⟩
  · have hfirst : (Exact.deciseconds l.fixTime 16000 : ℝ) = 150 := hbudget (by norm_num [l])
    obtain ⟨after, hafter, htime, hposition⟩ := advance_back hx hl hfix
      (by decide : l.fixTime < 16000) (by rw [hfirst]; linarith) (by rw [hfirst]; linarith)
    have hsecond : (Exact.deciseconds after.fixTime 17000 : ℝ) = 10 := by
      rw [htime]
      exact hbudget (by norm_num)
    rw [hfirst] at hposition
    have hx' : 2 - 0 - 150 / degreeCost ∈ Set.Icc (0 : ℝ) 1 := by
      have hle : 150 / degreeCost ≤ 2 := by rw [div_le_iff₀ hpos]; linarith
      have hge : 1 ≤ 150 / degreeCost := by rw [le_div_iff₀ hpos]; linarith
      constructor <;> linarith
    have hleft : (1 - (2 - 0 - 150 / degreeCost)) * degreeCost = 150 - degreeCost := by
      have := div_mul_cancel₀ 150 hpos.ne'
      linarith
    obtain ⟨after', hafter', -⟩ := advance_meridian [meridianStreet 1 0] hx' hposition
      (by rw [htime]; decide) (by rw [htime]; decide : after.fixTime < 17000)
      (by rw [hsecond, hleft]; linarith)
    have hle := second_of_pairwise h hafter _ _ _ _ rfl hafter'
    exact absurd hle (by decide)
  · have hfirst : (Exact.deciseconds l.fixTime 101000 : ℝ) = 1000 := hbudget (by norm_num [l])
    obtain ⟨after, hafter, htime, hposition⟩ := advance_home hx hl hfix
      (by decide : l.fixTime < 101000) (by rw [hfirst]; linarith)
    have hsecond : (Exact.deciseconds after.fixTime 102000 : ℝ) = 10 := by
      rw [htime]
      exact hbudget (by norm_num)
    obtain ⟨after', hafter', -⟩ := advance_meridian [meridianStreet 1 0] hx hposition
      (by rw [htime]; decide) (by rw [htime]; decide : after.fixTime < 102000)
      (by rw [hsecond]; linarith)
    obtain ⟨l', hl', -⟩ := second_of_pairwise h hafter _ rfl
    cases hl'.symm.trans hafter'

open Binary64 (Elementary) in
/-- In binary64 the end of a single street is lost by rounding: the foot of the destination on it is
`3.1999999999999993`. On a leg as short as the one from there a sine and an arc tangent are their
argument, and no length along a meridian depends on a cosine. -/
theorem rounding_loses_destination :
    let m : Elementary := ⟨fun x => x, fun _ => 1.0, fun y _ => y⟩
    let _ := m.arith
    let s : Settings Float := ⟨some 1e-9, 3.0, 5.0⟩
    let r : Route Float := ⟨[⟨.street, none, none, [⟨-5.0, 0.0⟩, ⟨3.2, 0.0⟩]⟩]⟩
    let l : Location Float := { (Location.blank .low).setPosition ⟨3.2, 0.0⟩ with fixTime := 1000 }
    s.validate = .ok () ∧ r.OnGlobe ∧ r.destination? = some ⟨3.2, 0.0⟩ ∧
      ¬ (calls s r none l [1000000, 1000001]).Pairwise (StaysArrived r) := by
  intro m _ s r l
  refine ⟨by decide +kernel, by decide +kernel, by decide +kernel, fun h => ?_⟩
  have hfirst : (advance s (some r) none 1000000 l).map Prod.fst = .ok .destinationReached := by
    decide +kernel
  have hsecond : (advance s (some r) none 1000001
      (carried l (advance s (some r) none 1000000 l))).map Prod.fst = .ok (.enRoute 0) := by
    decide +kernel
  cases hrun : advance s (some r) none 1000000 l with
  | error e =>
    rw [hrun] at hfirst
    cases hfirst
  | ok result =>
    obtain ⟨outcome, arrived⟩ := result
    rw [hrun] at hfirst hsecond
    obtain rfl : outcome = .destinationReached := Except.ok.inj hfirst
    obtain ⟨l', hl', -⟩ := second_of_pairwise h hrun _ rfl
    rw [carried, hl'] at hsecond
    cases hsecond

end Whereabouts.Reckoning
