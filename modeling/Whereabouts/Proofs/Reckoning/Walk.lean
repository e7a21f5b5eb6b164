import Whereabouts.Proofs.Exact
import Whereabouts.Proofs.Reckoning.Speed
import Whereabouts.Proofs.Reckoning.Start
import Mathlib.Algebra.BigOperators.Group.List.Basic
import Mathlib.Algebra.Order.BigOperators.Group.List
import Mathlib.Algebra.Order.Field.Rat
import Mathlib.Data.Rat.Floor
import Mathlib.Order.Interval.Set.Defs
import Mathlib.Tactic.Linarith

/-! A walk leg by leg: how far the elapsed time reaches, and where it leaves the location. -/
namespace Whereabouts.Reckoning

/-- A way from point to point that an item of the route leads along. -/
structure Leg (R : Type) where
  item : Nat
  road : Route.Item R
  start : Geo.Point R
  goal : Geo.Point R

/-- A point to reach, with the item that it belongs to. -/
abbrev Goal (R : Type) := (Route.Item R × Nat) × Geo.Point R

section

variable {R : Type}

/-- The legs through a list of points. -/
def legsVia (start : Geo.Point R) : List (Goal R) → List (Leg R)
  | [] => []
  | (i, p) :: rest => ⟨i.2, i.1, start, p⟩ :: legsVia p rest

/-- The points that remain of the cursor's item, then all points of the later walkable items. -/
def goalsBehind (r : Route R) (c : Cursor R) : List (Goal R) :=
  (r.items[c.item]?.toList.flatMap fun road =>
    (road.points.drop (c.segment + 1)).map ((road, c.item), ·)) ++
  ((r.items.zipIdx.drop (c.item + 1)).filter (·.1.isWalkable)).flatMap fun i =>
    i.1.points.map (i, ·)

def legsFrom (r : Route R) (c : Cursor R) : List (Leg R) := legsVia c.point (goalsBehind r c)

def Goal.waypoint (speedOn : Route.Item R → R) (g : Goal R) : Waypoint R :=
  ⟨g.1.2, speedOn g.1.1, g.2⟩

lemma filter_le_zipIdx {α : Type} (as : List α) (n k : Nat) :
    (as.zipIdx k).filter (fun i => decide (k + n ≤ i.2)) = (as.zipIdx k).drop n := by
  induction as generalizing n k with
  | nil => simp
  | cons a as ih =>
    cases n with
    | zero =>
      rw [List.drop_zero, List.filter_eq_self]
      intro i hi
      simpa using List.le_snd_of_mem_zipIdx hi
    | succ n =>
      have hhead : ¬ k + (n + 1) ≤ k := by omega
      rw [List.zipIdx_cons, List.filter_cons_of_neg (by simp), List.drop_succ_cons, ← ih n (k + 1)]
      simp only [Nat.add_assoc, Nat.add_comm 1 n]

lemma walkable_from {r : Route R} {c : Cursor R} {road : Route.Item R} (hc : c.OnRoute r road) :
    r.walkable.filter (fun i => decide (c.item ≤ i.2)) =
      (road, c.item) :: (r.items.zipIdx.drop (c.item + 1)).filter (·.1.isWalkable) := by
  have hdrop := filter_le_zipIdx r.items c.item 0
  rw [Nat.zero_add] at hdrop
  obtain ⟨hlt, hroad⟩ := List.getElem?_eq_some_iff.mp hc.item_eq
  rw [Route.walkable, List.filter_comm, hdrop,
    List.drop_eq_getElem_cons (by simpa using hlt), List.filter_cons_of_pos]
  · simp [hroad]
  · simpa [hroad] using hc.walkable

/-- The points ahead of a cursor are the goals of its legs. -/
lemma ahead_eq {r : Route R} {c : Cursor R} {road : Route.Item R} (hc : c.OnRoute r road)
    (speedOn : Route.Item R → R) :
    ahead speedOn r c = (goalsBehind r c).map (Goal.waypoint speedOn) := by
  have hlater (i : Route.Item R × Nat)
      (hi : i ∈ (r.items.zipIdx.drop (c.item + 1)).filter (·.1.isWalkable)) :
      i.2 ≠ c.item := by
    have hmem := List.mem_of_mem_filter hi
    have hle : c.item + 1 ≤ i.2 := by
      rw [← filter_le_zipIdx] at hmem
      simpa using (List.mem_filter.mp hmem).2
    omega
  rw [ahead, walkable_from hc, List.flatMap_cons, goalsBehind, hc.item_eq, List.map_append]
  congr 1
  · simp [Goal.waypoint, Function.comp_def]
  · rw [List.map_flatMap]
    refine List.flatMap_congr fun i hi => ?_
    simp [hlater i hi, Goal.waypoint, Function.comp_def]

lemma legsVia_eq_nil {start : Geo.Point R} {goals : List (Goal R)} :
    legsVia start goals = [] ↔ goals = [] := by
  cases goals <;> simp [legsVia]

lemma legsFrom_ne_nil {r : Route R} {c : Cursor R} {road : Route.Item R}
    (hc : c.OnRoute r road) : legsFrom r c ≠ [] := by
  intro h
  have hgoals := legsVia_eq_nil.mp h
  simp [goalsBehind, hc.item_eq] at hgoals
  have hlt := hc.segment_lt
  omega

end

section

variable {K : Type} [Field K]

/-- The deciseconds that a leg takes at the speed of its item, in km/h. -/
def Leg.cost (length : Geo.Point K → Geo.Point K → K) (speedOn : Route.Item K → K) (g : Leg K) :
    K :=
  length g.start g.goal / (speedOn g.road / 3.6) * 10

/-- What the first `j` legs cost together. -/
def spent (cost : Leg K → K) (legs : List (Leg K)) (j : ℕ) : K := ((legs.take j).map cost).sum

@[simp] lemma spent_zero (cost : Leg K → K) (legs : List (Leg K)) : spent cost legs 0 = 0 := by
  simp [spent]

@[simp] lemma spent_cons_succ (cost : Leg K → K) (g : Leg K) (legs : List (Leg K)) (j : ℕ) :
    spent cost (g :: legs) (j + 1) = cost g + spent cost legs j := by
  simp [spent]

lemma spent_succ {cost : Leg K → K} {legs : List (Leg K)} {j : ℕ} {g : Leg K}
    (hg : legs[j]? = some g) : spent cost legs (j + 1) = spent cost legs j + cost g := by
  rw [spent, List.take_add_one, hg]
  simp [spent]

/-- The part of leg `j` that the budget pays for. -/
def partOf (cost : Leg K → K) (legs : List (Leg K)) (budget : K) (j : ℕ) (g : Leg K) : K :=
  (budget - spent cost legs j) / cost g

lemma partOf_cons_succ (cost : Leg K → K) (g : Leg K) (legs : List (Leg K)) (budget : K) (j : ℕ)
    (g' : Leg K) :
    partOf cost (g :: legs) budget (j + 1) g' = partOf cost legs (budget - cost g) j g' := by
  rw [partOf, partOf, spent_cons_succ, sub_sub]

variable [LinearOrder K]

/-- A leg is travelled at a speed above zero, and its cost is not negative. -/
def Leg.Passable (length : Geo.Point K → Geo.Point K → K) (speedOn : Route.Item K → K)
    (g : Leg K) : Prop :=
  0 < speedOn g.road ∧ 0 ≤ g.cost length speedOn

/-- Leg `j` is the first one at whose end the budget is exceeded. -/
def StopsIn (cost : Leg K → K) (legs : List (Leg K)) (budget : K) (j : ℕ) : Prop :=
  (∀ i < j, ¬ budget < spent cost legs (i + 1)) ∧ budget < spent cost legs (j + 1)

/-- The budget pays for all legs. -/
def Covers (cost : Leg K → K) (legs : List (Leg K)) (budget : K) : Prop :=
  (legs.map cost).sum ≤ budget

variable {cost : Leg K → K} {legs : List (Leg K)} {budget : K} {j : ℕ} {g : Leg K}

lemma stopsIn_cons_zero : StopsIn cost (g :: legs) budget 0 ↔ budget < cost g := by
  simp [StopsIn]

/-- A budget that stops nowhere exceeds no prefix of the legs. -/
lemma not_lt_spent (h : ∀ j < legs.length, ¬ StopsIn cost legs budget j) (hj : j < legs.length) :
    ¬ budget < spent cost legs (j + 1) := by
  induction j using Nat.strong_induction_on with
  | _ j ih =>
    intro hlt
    exact h j hj ⟨fun i hi => ih i hi (by omega), hlt⟩

variable [IsStrictOrderedRing K]

lemma Leg.passable {length : Geo.Point K → Geo.Point K → K} {speedOn : Route.Item K → K}
    (hlength : ∀ p q, 0 ≤ length p q) (hspeed : 0 < speedOn g.road) :
    g.Passable length speedOn := by
  have hrate : 0 ≤ speedOn g.road / 3.6 := div_nonneg hspeed.le (by norm_num)
  exact ⟨hspeed, mul_nonneg (div_nonneg (hlength _ _) hrate) (by norm_num)⟩

lemma stopsIn_cons_succ :
    StopsIn cost (g :: legs) budget (j + 1) ↔
      ¬ budget < cost g ∧ StopsIn cost legs (budget - cost g) j := by
  have hshift (i : ℕ) : budget < spent cost (g :: legs) (i + 1) ↔
      budget - cost g < spent cost legs i := by
    rw [spent_cons_succ, sub_lt_iff_lt_add']
  simp only [StopsIn, hshift]
  constructor
  · rintro ⟨hbefore, hstop⟩
    refine ⟨?_, fun i hi => hbefore (i + 1) (by omega), hstop⟩
    simpa using hbefore 0 (by omega)
  · rintro ⟨hfirst, hbefore, hstop⟩
    refine ⟨fun i hi => ?_, hstop⟩
    cases i with
    | zero => simpa using hfirst
    | succ i => exact hbefore i (by omega)

omit [IsStrictOrderedRing K] in
lemma StopsIn.spent_le (h : StopsIn cost legs budget j) (hbudget : 0 ≤ budget) :
    spent cost legs j ≤ budget := by
  cases j with
  | zero => simpa using hbudget
  | succ i => exact not_lt.mp (h.1 i (by omega))

/-- A leg that costs nothing is passed. -/
lemma StopsIn.cost_pos (h : StopsIn cost legs budget j) (hbudget : 0 ≤ budget)
    (hg : legs[j]? = some g) : 0 < cost g := by
  have hspent := h.spent_le hbudget
  have hstop : budget < spent cost legs j + cost g := spent_succ hg ▸ h.2
  linarith

/-- The part of the leg that a budget stops in is a proper one. -/
lemma partOf_mem (hbudget : 0 ≤ budget) (hg : legs[j]? = some g)
    (h : StopsIn cost legs budget j) : partOf cost legs budget j g ∈ Set.Ico (0 : K) 1 := by
  have hcost := h.cost_pos hbudget hg
  have hstop : budget < spent cost legs j + cost g := spent_succ hg ▸ h.2
  constructor
  · exact div_nonneg (sub_nonneg.mpr (h.spent_le hbudget)) hcost.le
  · rw [partOf, div_lt_one hcost]
    linarith

/-- The budget either stops inside a leg or pays for all of them. -/
lemma covers_iff (hcost : ∀ g ∈ legs, 0 ≤ cost g) (hbudget : 0 ≤ budget) :
    Covers cost legs budget ↔ ∀ j < legs.length, ¬ StopsIn cost legs budget j := by
  have hall : spent cost legs legs.length = (legs.map cost).sum := by
    rw [spent, List.take_length]
  constructor
  · rintro h j - ⟨-, hstop⟩
    have hle : spent cost legs (j + 1) ≤ (legs.map cost).sum := by
      refine ((List.take_sublist _ _).map cost).sum_le_sum ?_
      simpa using hcost
    exact absurd (hstop.trans_le hle) (not_lt.mpr h)
  · intro h
    rw [Covers, ← hall]
    cases hn : legs.length with
    | zero => simpa using hbudget
    | succ n => exact not_lt.mp (not_lt_spent h (by omega))

end

section

variable {R : Type} [Arith R] {length : Geo.Point R → Geo.Point R → R} {budget : R}
  {start : Geo.Point R} {w : Waypoint R}

lemma drive_cons_of_lt (rest : List (Waypoint R))
    (h : budget < legTime (length start w.point) w.speed) :
    drive length budget start (w :: rest) =
      .onLeg w.item w.speed start w.point (budget / legTime (length start w.point) w.speed) :=
  if_pos h

lemma drive_cons_of_not_lt (rest : List (Waypoint R))
    (h : ¬ budget < legTime (length start w.point) w.speed) :
    drive length budget start (w :: rest) =
      drive length (budget - legTime (length start w.point) w.speed) w.point rest :=
  if_neg h

variable {s : Settings R} {table : Option (SpeedTable R)} {r : Route R} {now : Timestamp}
  {l : Location R}

lemma advanceBy_of_snap?_eq_none (hfix : l.fixTime ≠ Timestamp.never)
    (hc : snap? r l.position? = none) :
    advanceBy length s (some r) table now l = .error .noStreetGeometry := by
  simp [advanceBy, hfix, hc]

lemma advanceBy_of_snap? (hfix : l.fixTime ≠ Timestamp.never)
    {c : Cursor R} (hc : snap? r l.position? = some c)
    (hpos : (0.0 : R) < Timestamp.deciseconds l.fixTime now) :
    advanceBy length s (some r) table now l =
      .ok (arrive s now l (drive length (Timestamp.deciseconds l.fixTime now) c.point
        (ahead (s.speedOn table) r c))) := by
  simp [advanceBy, hfix, hc, hpos]

end

section

variable {K : Type} [Field K] [LinearOrder K] [FloorRing K] [Transcendental K]
  (length : Geo.Point K → Geo.Point K → K) (speedOn : Route.Item K → K)

lemma legTime_eq (start : Geo.Point K) (goal : Goal K) :
    legTime (length start (goal.waypoint speedOn).point) (goal.waypoint speedOn).speed =
      Leg.cost length speedOn ⟨goal.1.2, goal.1.1, start, goal.2⟩ := by
  have h : (10.0 : K) = 10 := by norm_num
  exact congrArg (length start goal.2 / (speedOn goal.1.1 / 3.6) * ·) h

variable [IsStrictOrderedRing K]

/-- A drive stops in the leg that the budget stops in. -/
lemma drive_of_stopsIn (goals : List (Goal K)) {start : Geo.Point K} {budget : K} {j : ℕ}
    {g : Leg K} (hg : (legsVia start goals)[j]? = some g)
    (h : StopsIn (Leg.cost length speedOn) (legsVia start goals) budget j) :
    drive length budget start (goals.map (Goal.waypoint speedOn)) =
      .onLeg g.item (speedOn g.road) g.start g.goal
        (partOf (Leg.cost length speedOn) (legsVia start goals) budget j g) := by
  induction goals generalizing start budget j with
  | nil => simp [legsVia] at hg
  | cons goal goals ih =>
    have htime := legTime_eq length speedOn start goal
    rw [legsVia] at hg h ⊢
    cases j with
    | zero =>
      obtain rfl := Option.some.inj hg
      have hstop := (stopsIn_cons_zero.mp h).trans_eq htime.symm
      rw [List.map_cons, drive_cons_of_lt _ hstop, htime, partOf, spent_zero, sub_zero]
      rfl
    | succ j =>
      obtain ⟨hfirst, h⟩ := stopsIn_cons_succ.mp h
      rw [← htime] at hfirst
      rw [List.map_cons, drive_cons_of_not_lt _ hfirst, htime, partOf_cons_succ]
      exact ih hg h

/-- A drive whose budget stops in no leg ends at the last goal. -/
lemma drive_of_not_stopsIn (goals : List (Goal K)) {start : Geo.Point K} {budget : K}
    (h : ∀ j < (legsVia start goals).length,
      ¬ StopsIn (Leg.cost length speedOn) (legsVia start goals) budget j) :
    drive length budget start (goals.map (Goal.waypoint speedOn)) =
      .atEnd (((legsVia start goals).getLast?.map Leg.goal).getD start) := by
  induction goals generalizing start budget with
  | nil => rfl
  | cons goal goals ih =>
    have htime := legTime_eq length speedOn start goal
    rw [legsVia] at h ⊢
    have hfirst := mt stopsIn_cons_zero.mpr (h 0 (by simp))
    have hpaid := hfirst
    rw [← htime] at hpaid
    rw [List.map_cons, drive_cons_of_not_lt _ hpaid, htime]
    have hrest (j : ℕ) (hj : j < (legsVia goal.2 goals).length) :=
      fun hstop => h (j + 1) (by simpa using hj) (stopsIn_cons_succ.mpr ⟨hfirst, hstop⟩)
    refine (ih hrest).trans ?_
    rw [List.getLast?_cons]
    cases (legsVia goal.2 goals).getLast? <;> rfl

variable {s : Settings K} {table : Option (SpeedTable K)} {r : Route K} {now : Timestamp}
  {l : Location K} {c : Cursor K} {road : Route.Item K}

lemma advanceBy_eq_arrive (hfix : l.fixTime ≠ Timestamp.never) (hnow : l.fixTime < now)
    (hc : snap? r l.position? = some c) (hroad : c.OnRoute r road) :
    advanceBy length s (some r) table now l =
      .ok (arrive s now l (drive length (Exact.deciseconds l.fixTime now) c.point
        ((goalsBehind r c).map (Goal.waypoint (s.speedOn table))))) := by
  have hzero : (0.0 : K) = 0 := by norm_num
  have hpos : (0.0 : K) < Timestamp.deciseconds l.fixTime now := by
    rw [Exact.deciseconds_eq, hzero]
    exact Exact.deciseconds_pos hnow
  rw [advanceBy_of_snap? hfix hc hpos, Exact.deciseconds_eq, ahead_eq hroad]

lemma advanceBy_of_stopsIn (hfix : l.fixTime ≠ Timestamp.never) (hnow : l.fixTime < now)
    (hc : snap? r l.position? = some c) (hroad : c.OnRoute r road) {j : ℕ} {g : Leg K}
    (hg : (legsFrom r c)[j]? = some g)
    (hstop : StopsIn (Leg.cost length (s.speedOn table)) (legsFrom r c)
      (Exact.deciseconds l.fixTime now) j) :
    ∃ after, advanceBy length s (some r) table now l = .ok (.enRoute g.item, after) ∧
      after.position? = some (g.start.towards g.goal
        (partOf (Leg.cost length (s.speedOn table)) (legsFrom r c)
          (Exact.deciseconds l.fixTime now) j g)) ∧
      after.speed? = some (s.speedOn table g.road) ∧
      after.bearing? = some (g.start.bearing g.goal) := by
  rw [advanceBy_eq_arrive length hfix hnow hc hroad,
    drive_of_stopsIn length (s.speedOn table) _ hg hstop]
  obtain ⟨after, harrive, hafter⟩ := arrive_onLeg s now l g.item (s.speedOn table g.road)
    g.start g.goal (partOf (Leg.cost length (s.speedOn table)) (legsFrom r c)
      (Exact.deciseconds l.fixTime now) j g)
  exact ⟨after, congrArg Except.ok harrive, hafter⟩

lemma advanceBy_of_not_stopsIn (hfix : l.fixTime ≠ Timestamp.never) (hnow : l.fixTime < now)
    (hc : snap? r l.position? = some c) (hroad : c.OnRoute r road)
    (hstop : ∀ j < (legsFrom r c).length, ¬ StopsIn (Leg.cost length (s.speedOn table))
      (legsFrom r c) (Exact.deciseconds l.fixTime now) j) :
    ∃ g ∈ (legsFrom r c).getLast?, ∃ after,
      advanceBy length s (some r) table now l = .ok (.destinationReached, after) ∧
      after.position? = some g.goal := by
  obtain ⟨g, hg⟩ : ∃ g, (legsFrom r c).getLast? = some g :=
    ⟨_, List.getLast?_eq_some_getLast (legsFrom_ne_nil hroad)⟩
  have hend : ((legsVia c.point (goalsBehind r c)).getLast?.map Leg.goal).getD c.point =
      g.goal := by
    rw [← legsFrom, hg]
    rfl
  rw [advanceBy_eq_arrive length hfix hnow hc hroad,
    drive_of_not_stopsIn length (s.speedOn table) _ hstop, hend]
  obtain ⟨after, harrive, hafter⟩ := arrive_atEnd s now l g.goal
  exact ⟨g, hg, after, congrArg Except.ok harrive, hafter⟩

/-- A location that moves gets onto a leg that takes time, or to the end of the last one. -/
lemma advanceBy_on_leg_or_at_end (s : Settings K) (table : Option (SpeedTable K))
    (hfix : l.fixTime ≠ Timestamp.never) (hnow : l.fixTime < now)
    (hc : snap? r l.position? = some c) (hroad : c.OnRoute r road) :
    (∃ g ∈ legsFrom r c, g.cost length (s.speedOn table) ≠ 0 ∧ ∃ f ∈ Set.Ico (0 : K) 1,
      ∃ after, advanceBy length s (some r) table now l = .ok (.enRoute g.item, after) ∧
        after.position? = some (g.start.towards g.goal f)) ∨
    ∃ g ∈ (legsFrom r c).getLast?, ∃ after,
      advanceBy length s (some r) table now l = .ok (.destinationReached, after) ∧
        after.position? = some g.goal := by
  have hbudget : 0 ≤ (Exact.deciseconds l.fixTime now : K) := (Exact.deciseconds_pos hnow).le
  by_cases hstop : ∃ j < (legsFrom r c).length, StopsIn (Leg.cost length (s.speedOn table))
      (legsFrom r c) (Exact.deciseconds l.fixTime now) j
  · obtain ⟨j, hj, hstop⟩ := hstop
    have hg := List.getElem?_eq_getElem hj
    obtain ⟨after, hafter, hposition, -⟩ :=
      advanceBy_of_stopsIn length hfix hnow hc hroad hg hstop
    exact .inl ⟨_, List.getElem_mem hj, (hstop.cost_pos hbudget hg).ne', _,
      partOf_mem hbudget hg hstop, after, hafter, hposition⟩
  · push Not at hstop
    exact .inr (advanceBy_of_not_stopsIn length hfix hnow hc hroad hstop)

end

/-- The walk along a route charges exactly the elapsed time. Without a walkable item there is no
start. From a start, if the elapsed time stops inside a leg, the location moves to the part of that
leg that is paid for, with the speed and the bearing there; otherwise all legs are paid for, and the
location moves to the end of the last one. -/
theorem advanceBy_charges_elapsed_time {K : Type} [Field K] [LinearOrder K]
    [IsStrictOrderedRing K] [FloorRing K] {length : Geo.Point K → Geo.Point K → K}
    (hlength : ∀ p q, 0 ≤ length p q) [Transcendental K] {s : Settings K}
    (hs : s.validate = .ok ()) (table : Option (SpeedTable K)) (r : Route K) {now : Timestamp}
    {l : Location K} (hfix : l.fixTime ≠ Timestamp.never) (hnow : l.fixTime < now) :
    (r.walkable = [] ∧ advanceBy length s (some r) table now l = .error .noStreetGeometry) ∨
    ∃ c, snap? r l.position? = some c ∧
      let legs := legsFrom r c
      let cost := Leg.cost length (s.speedOn table)
      let budget := Exact.deciseconds l.fixTime now
      (∀ g ∈ legs, g.Passable length (s.speedOn table)) ∧
      (∀ j g, legs[j]? = some g → StopsIn cost legs budget j →
        partOf cost legs budget j g ∈ Set.Ico (0 : K) 1 ∧
        ∃ after, advanceBy length s (some r) table now l = .ok (.enRoute g.item, after) ∧
          after.position? = some (g.start.towards g.goal (partOf cost legs budget j g)) ∧
          after.speed? = some (s.speedOn table g.road) ∧
          after.bearing? = some (g.start.bearing g.goal)) ∧
      ((∀ j < legs.length, ¬ StopsIn cost legs budget j) ↔ Covers cost legs budget) ∧
      (Covers cost legs budget →
        ∃ g ∈ legs.getLast?, ∃ after,
          advanceBy length s (some r) table now l = .ok (.destinationReached, after) ∧
          after.position? = some g.goal) := by
  have hpassable (g : Leg K) : g.Passable length (s.speedOn table) := by
    have hspeed := s.lt_speedOn hs table g.road
    rw [show (0.0 : K) = 0 by norm_num] at hspeed
    exact Leg.passable hlength hspeed
  cases hc : snap? r l.position? with
  | none => exact .inl ⟨snap?_eq_none.mp hc, advanceBy_of_snap?_eq_none hfix hc⟩
  | some c =>
    obtain ⟨road, hroad⟩ := onRoute_of_snap? hc
    refine .inr ⟨c, rfl, ?_⟩
    intro legs cost budget
    have hbudget : 0 ≤ budget := (Exact.deciseconds_pos hnow).le
    have hcovers : Covers cost legs budget ↔ ∀ j < legs.length, ¬ StopsIn cost legs budget j :=
      covers_iff (fun g _ => (hpassable g).2) hbudget
    refine ⟨fun g _ => hpassable g, ?_, hcovers.symm, ?_⟩
    · intro j g hg hstop
      exact ⟨partOf_mem hbudget hg hstop, advanceBy_of_stopsIn length hfix hnow hc hroad hg hstop⟩
    · intro hall
      exact advanceBy_of_not_stopsIn length hfix hnow hc hroad (hcovers.mp hall)

/-- Six seconds at one meter per second: the first street takes four of them, and the other two are
half of the way to the second street. -/
theorem advanceBy_charges_elapsed_time_two_streets :
    let _ : Transcendental ℚ := ⟨id, id, id, fun y _ => y, fun x _ => x⟩
    let street (points : List (Geo.Point ℚ)) : Route.Item ℚ := ⟨.street, none, none, points⟩
    let r : Route ℚ := ⟨[street [⟨0, 0⟩, ⟨4, 0⟩], street [⟨8, 0⟩, ⟨10, 0⟩]]⟩
    let s : Settings ℚ := ⟨some 3.6, 1, 1⟩
    let l : Location ℚ := { Location.blank .low with fixTime := 1000 }
    ∃ after, advanceBy (fun p q => |q.lat - p.lat|) s (some r) none 7000 l =
        .ok (.enRoute 1, after) ∧ after.position? = some ⟨6, 0⟩ := by
  intro _ street r s l
  have hlength (p q : Geo.Point ℚ) : 0 ≤ |q.lat - p.lat| := abs_nonneg _
  have hs : s.validate = .ok () := by decide +kernel
  have hstart : snap? r l.position? = some ⟨0, 0, ⟨0, 0⟩⟩ := by
    rw [show l.position? = none from if_neg (by decide)]
    rfl
  have hsecond : (legsFrom r ⟨0, 0, ⟨0, 0⟩⟩)[1]? =
      some ⟨1, street [⟨8, 0⟩, ⟨10, 0⟩], ⟨4, 0⟩, ⟨8, 0⟩⟩ := by rfl
  have hfix : l.fixTime ≠ Timestamp.never := by decide
  have hnow : l.fixTime < 7000 := by decide
  rcases advanceBy_charges_elapsed_time hlength hs none r hfix hnow with
    ⟨hnil, -⟩ | ⟨c, hc, -, hstops, -⟩
  · cases hnil
  · rw [hstart] at hc
    obtain rfl := Option.some.inj hc
    have hstop : StopsIn (Leg.cost (fun p q => |q.lat - p.lat|) (s.speedOn none))
        (legsFrom r ⟨0, 0, ⟨0, 0⟩⟩) (Exact.deciseconds 1000 7000) 1 := by
      unfold StopsIn
      decide +kernel
    obtain ⟨-, after, hafter, hposition, -⟩ := hstops 1 _ hsecond hstop
    refine ⟨after, hafter, hposition.trans ?_⟩
    decide +kernel

end Whereabouts.Reckoning
