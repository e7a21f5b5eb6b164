import Whereabouts.Proofs.Location.Reading
import Whereabouts.Proofs.Reckoning.Meridian
import Whereabouts.Source.Simulator

/-! Runs of the simulated source: when a route starts its clock, and from when it counts then. -/
namespace Whereabouts.Simulator

open Reckoning (advance advanceBy stamp)

/-- What happens to a simulated source. -/
inductive Event (R : Type) where
  | poll (route : Option (Route R)) (table : Option (SpeedTable R)) (now : Timestamp)
  | place (p : Geo.Point R) (now : Timestamp)

namespace Event

variable {R : Type}

def time : Event R → Timestamp
  | .poll _ _ now => now
  | .place _ now => now

end Event

section

variable {R : Type}

/-- Whether the polls that look for a route are given one, in order. A poll that finds the position
set by hand tells it and does not look. -/
def looks (placed : Bool) : List (Event R) → List Bool
  | [] => []
  | .place _ _ :: es => looks true es
  | .poll route _ _ :: es => if placed then looks false es else route.isSome :: looks false es

end

variable {R : Type} [Arith R]

def step (s : Simulator R) : Event R → Simulator R
  | .poll route table now => (s.poll route table now).2
  | .place p now => s.setPosition p now

def run (s : Simulator R) (es : List (Event R)) : Simulator R := es.foldl step s

section

variable {s : Simulator R} (route : Option (Route R)) (table : Option (SpeedTable R))
  (now : Timestamp)

/-- A position that was set is told; only the first fix gets the time of the poll. -/
lemma poll_of_placed (h : s.placed = true) :
    (s.poll route table now).2 =
      { s with
        current := if s.current.fixTime = Timestamp.never then s.fixed now else s.current
        placed := false } := by
  simp [poll, h]

lemma poll_none (h : s.placed = false) :
    s.poll none table now = (none, { s with routeReady := false }) := by
  simp [poll, h]

/-- The first poll that sees a route starts the clock. -/
lemma poll_of_not_routeReady (h : s.placed = false) (hready : s.routeReady = false)
    (r : Route R) :
    s.poll (some r) table now =
      (none, { s with routeReady := true, current := { s.current with fixTime := now } }) := by
  simp [poll, h, hready]

/-- Any other poll that sees a route drives, unless there is an obstacle. -/
lemma poll_of_routeReady (h : s.placed = false) (hready : s.routeReady = true) (r : Route R) :
    (∃ outcome l, advance s.settings (some r) table now s.current = .ok (outcome, l) ∧
      s.poll (some r) table now = (some l, { s with current := l })) ∨
    s.poll (some r) table now = (none, s) := by
  cases hadvance : advance s.settings (some r) table now s.current with
  | error e => exact .inr (by simp [poll, h, hready, hadvance])
  | ok x => exact .inl ⟨x.1, x.2, rfl, by simp [poll, h, hready, hadvance]⟩

end

/-- The flag tells whether the last poll that looked was given a route. -/
lemma routeReady_run (s : Simulator R) (es : List (Event R)) :
    (run s es).routeReady = (looks s.placed es).getLast?.getD s.routeReady := by
  -- Whether a poll looks depends on the event before it, so `looks` starts from `s.placed`.
  induction es generalizing s with
  | nil => rfl
  | cons e es ih =>
    refine (ih (step s e)).trans ?_
    cases e with
    | place p now => rfl
    | poll route table now =>
      cases hplaced : s.placed with
      | true => simp [step, looks, poll_of_placed _ _ _ hplaced]
      | false =>
        have hnext : (s.poll route table now).2.routeReady = route.isSome ∧
            (s.poll route table now).2.placed = false := by
          cases route with
          | none => simp [poll_none _ _ hplaced, hplaced]
          | some r =>
            cases hready : s.routeReady with
            | false => simp [poll_of_not_routeReady _ _ hplaced hready, hplaced]
            | true =>
              rcases poll_of_routeReady table now hplaced hready r with ⟨_, l, -, hl⟩ | hl <;>
                simp [hl, hready, hplaced]
        simp [step, looks, hnext, List.getLast?_cons]

/-- Once the route is seen, the fix is not older than the given time. -/
def Since (t : Timestamp) (s : Simulator R) : Prop :=
  s.routeReady = true → t ≤ s.current.fixTime

lemma fixTime_advance {settings : Reckoning.Settings R} {route : Option (Route R)}
    {table : Option (SpeedTable R)} {now : Timestamp} {l l' : Location R}
    {outcome : Reckoning.Outcome}
    (h : advance settings route table now l = .ok (outcome, l')) :
    l'.fixTime = now ∨ l' = l := by
  rcases Reckoning.arrive_of_advance h with hstays | ⟨stop, harrive⟩
  · exact .inr hstays
  · left
    rw [← Reckoning.fixTime_arrive settings now l stop, harrive]

/-- Whatever gives the source a fix gives it one of its own time. -/
lemma Since.step {t : Timestamp} {s : Simulator R} (h : s.Since t) {e : Event R}
    (he : t ≤ e.time) : (s.step e).Since t := by
  cases e with
  | place p now => exact fun _ => he
  | poll route table now =>
    cases hplaced : s.placed with
    | true =>
      simp only [Simulator.step, poll_of_placed _ _ _ hplaced]
      intro hready
      dsimp only
      split_ifs
      · exact he
      · exact h hready
    | false =>
      cases route with
      | none => simp [Simulator.step, poll_none _ _ hplaced, Since]
      | some r =>
        cases hready : s.routeReady with
        | false =>
          simp only [Simulator.step, poll_of_not_routeReady _ _ hplaced hready]
          exact fun _ => he
        | true =>
          rcases poll_of_routeReady table now hplaced hready r with ⟨_, l, hl, hpoll⟩ | hpoll
          · simp only [Simulator.step, hpoll]
            intro _
            rcases fixTime_advance hl with htime | rfl
            · exact htime.symm ▸ he
            · exact h hready
          · simp only [Simulator.step, hpoll]
            exact h

lemma Since.run {t : Timestamp} {s : Simulator R} (h : s.Since t) {es : List (Event R)}
    (hes : ∀ e ∈ es, t ≤ e.time) : (s.run es).Since t := by
  induction es generalizing s with
  | nil => exact h
  | cons e es ih =>
    exact ih (h.step (hes e List.mem_cons_self)) fun e' he' => hes e' (List.mem_cons_of_mem e he')

omit [Arith R] in
lemma position?_stamp (settings : Reckoning.Settings R) (now : Timestamp) (l : Location R) :
    (stamp settings now l).position? = l.position? :=
  congrArg Location.Reading.position (l.reading_setAccuracy settings.accuracy)

lemma position?_poll_of_placed {s : Simulator R} (h : s.placed = true)
    (route : Option (Route R)) (table : Option (SpeedTable R)) (now : Timestamp) :
    (s.poll route table now).2.current.position? = s.current.position? := by
  rw [poll_of_placed _ _ _ h]
  dsimp only
  split_ifs
  · exact position?_stamp s.settings now s.current
  · rfl

/-- A poll moves the source only along a route that an earlier poll has seen. -/
theorem poll_moves {s : Simulator R} (route : Option (Route R)) (table : Option (SpeedTable R))
    (now : Timestamp) :
    (s.poll route table now).2.current.position? = s.current.position? ∨
      s.routeReady = true ∧ ∃ outcome,
        advance s.settings route table now s.current =
          .ok (outcome, (s.poll route table now).2.current) := by
  cases hplaced : s.placed with
  | true => exact .inl (position?_poll_of_placed hplaced route table now)
  | false =>
    cases route with
    | none => rw [poll_none _ _ hplaced]; exact .inl rfl
    | some r =>
      cases hready : s.routeReady with
      | false => rw [poll_of_not_routeReady _ _ hplaced hready]; exact .inl rfl
      | true =>
        rcases poll_of_routeReady table now hplaced hready r with ⟨outcome, l, hl, hpoll⟩ | hpoll
        · rw [hpoll]; exact .inr ⟨rfl, outcome, hl⟩
        · rw [hpoll]; exact .inl rfl

lemma eq_of_new {name : String} {d : Demo R} {s : Simulator R}
    (h : Simulator.new name d = .ok s) : s.placed = d.start.isSome ∧ s.routeReady = false := by
  unfold Simulator.new at h
  cases hvalid : d.validate with
  | error e => rw [hvalid] at h; cases h
  | ok _ => rw [hvalid] at h; cases h; exact ⟨rfl, rfl⟩

/-- When the last poll that looked for a route was given none, or none has looked yet, a poll that
is given a route does not move the source, and whatever moves it later counts from a fix that is not
older than that poll. -/
theorem route_starts_clock {name : String} {d : Demo R} {s₀ : Simulator R}
    (hs₀ : Simulator.new name d = .ok s₀) {es : List (Event R)}
    (hes : (looks d.start.isSome es).getLast? ≠ some true) (r : Route R)
    (table : Option (SpeedTable R)) (now : Timestamp) :
    let s := s₀.run es
    let started := (s.poll (some r) table now).2
    started.current.position? = s.current.position? ∧
    ∀ later : List (Event R), (∀ e ∈ later, now ≤ e.time) →
      let u := started.run later
      ∀ route table' now', let v := (u.poll route table' now').2
        v.current.position? = u.current.position? ∨
          now ≤ u.current.fixTime ∧ ∃ outcome,
            advance u.settings route table' now' u.current = .ok (outcome, v.current) := by
  intro s started
  obtain ⟨hplaced, hready⟩ := eq_of_new hs₀
  have hunready : s.routeReady = false := by
    rw [routeReady_run, hplaced, hready]
    cases hlast : (looks d.start.isSome es).getLast? with
    | none => rfl
    | some b =>
      cases b with
      | false => rfl
      | true => exact absurd hlast hes
  have hsince : started.Since now := Since.step (e := .poll (some r) table now)
    (fun h => absurd h (by simp [hunready])) (Nat.le_refl now)
  refine ⟨?_, ?_⟩
  · rcases s.poll_moves (some r) table now with h | ⟨h, -⟩
    · exact h
    · simp [hunready] at h
  · intro later hlater u route table' now'
    exact (u.poll_moves route table' now').imp_right fun h => ⟨hsince.run hlater h.1, h.2⟩

/-- A position is placed and told, then a poll finds the route gone, and then it comes back. -/
theorem route_starts_clock_again :
    let r : Route Float := ⟨[⟨.street, none, none, [⟨0.0, 0.0⟩, ⟨0.0, 0.1⟩]⟩]⟩
    ∃ s₀ : Simulator Float, Simulator.new "demo" Demo.default = .ok s₀ ∧
      let s := s₀.run [.poll (some r) none 1000, .place ⟨0.0, 0.05⟩ 2000, .poll (some r) none 3000,
        .poll none none 4000]
      let started := (s.poll (some r) none 31000).2
      started.current.position? = s.current.position? ∧
        ((started.poll (some r) none 32000).2.current.position? = started.current.position? ∨
          31000 ≤ started.current.fixTime) := by
  intro r
  obtain ⟨s₀, hs₀⟩ : ∃ s₀ : Simulator Float, Simulator.new "demo" Demo.default = .ok s₀ :=
    ⟨_, rfl⟩
  have hlook : (looks false [.poll (some r) none 1000, .place ⟨0.0, 0.05⟩ 2000,
      .poll (some r) none 3000, .poll none none 4000]).getLast? ≠ some true := by
    decide
  obtain ⟨hstays, hlater⟩ := route_starts_clock hs₀ hlook r none 31000
  exact ⟨s₀, hs₀, hstays, (hlater [] (by simp) (some r) none 32000).imp_right And.left⟩

open Reckoning in
/-- A source without a start. -/
lemma new_fast :
    Simulator.new "demo" (⟨36000, 3, none⟩ : Demo ℝ) =
      .ok ⟨"demo", fast, Location.blank preference, false, false⟩ := by
  have hpos : (0.0 : ℝ) < 36000 := by norm_num
  have hsettings : Demo.reckoning ⟨36000, 3, none⟩ = fast :=
    congrArg (fun speed => (⟨speed, 3, offroadSpeed⟩ : Settings ℝ)) (if_pos hpos)
  have hvalid : Demo.validate (⟨36000, 3, none⟩ : Demo ℝ) = .ok () := by
    have hnonneg : Arith.isNonneg (36000 : ℝ) = true := by
      simpa [Arith.isNonneg] using ⟨rfl, hpos.le⟩
    rw [Demo.validate, hsettings]
    simp [hnonneg, validate_fast]
  rw [Simulator.new, hvalid, hsettings]
  rfl

open Reckoning in
/-- A poll that tells a placed position does not see that the route is gone, so the next one drives
for all the time since the placement. -/
theorem placement_hides_lost_route :
    let r : Route ℝ := ⟨[meridianStreet 0 1]⟩
    let d : Demo ℝ := ⟨36000, 3, none⟩
    ∃ s₀, Simulator.new "demo" d = .ok s₀ ∧
      let s := s₀.run [.poll (some r) none 1000, .place ⟨0, 0⟩ 2000, .poll none none 3000]
      s.current.fixTime = 2000 ∧
        (s.poll (some r) none 12000).2.current.position? ≠ s.current.position? := by
  intro r d
  refine ⟨_, new_fast, ?_⟩
  intro s
  have hfix : s.current.fixTime = 2000 := rfl
  have hplaced : s.placed = false := rfl
  have hready : s.routeReady = true := rfl
  have hposition : s.current.position? = some ⟨0, 0⟩ :=
    (position?_stamp fast 2000 _).trans (if_pos (Presence.contains_set_self _ _))
  have hbudget : (Exact.deciseconds s.current.fixTime 12000 : ℝ) = 100 := by
    norm_num [hfix, Exact.deciseconds]
  obtain ⟨after, hafter, hmoved⟩ := advance_meridian [] ⟨le_rfl, zero_le_one⟩ hposition
    (by rw [hfix]; decide) (by rw [hfix]; decide : s.current.fixTime < 12000)
    (by rw [hbudget]; linarith [degreeCost_mem.1])
  have hadvance : advance s.settings (some r) none 12000 s.current = .ok (.enRoute 0, after) :=
    hafter
  have hpoll : (s.poll (some r) none 12000).2.current = after := by
    simp [poll, hplaced, hready, hadvance]
  have hfraction : 0 < 100 / degreeCost := div_pos (by norm_num) degreeCost_pos
  refine ⟨hfix, ?_⟩
  rw [hpoll, hmoved, hposition, hbudget]
  intro hsame
  have hlat := congrArg Geo.Point.lat (Option.some.inj hsame)
  simp only [zero_add] at hlat
  exact hfraction.ne' hlat

end Whereabouts.Simulator
