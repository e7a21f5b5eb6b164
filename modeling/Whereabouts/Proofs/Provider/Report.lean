import Whereabouts.Proofs.Location.Reading
import Whereabouts.Source.Provider
import Mathlib.Data.List.Induction

/-! What the messages of a provider add up to: the last sound fix, the last satellite counts, and
whether the fix was lost since. -/
namespace Whereabouts

open Arith

variable {R : Type} [Arith R]

/-- Every value of a fix can be stored. -/
def ProviderFix.isSound (f : ProviderFix R) : Bool :=
  f.position.isValid && f.accuracy.all isNonneg
    && (f.speed.map (· * Reckoning.kmhPerMps)).all isFinite && f.bearing.all isFinite
    && f.altitude.all isFinite

namespace ProviderMessage

def soundFix? : ProviderMessage R → Option (ProviderFix R)
  | .fix f => if f.isSound then some f else none
  | _ => none

omit [Arith R]

def counts? : ProviderMessage R → Option (Nat × Nat)
  | .satellites inView used => some (inView, used)
  | _ => none

def isLost : ProviderMessage R → Bool
  | .lost => true
  | _ => false

end ProviderMessage

namespace Provider

open Location (Reading raisedRadius)

/-- A message with the time of the poll that takes it in. -/
abbrev Intake (R : Type) := Timestamp × ProviderMessage R

def lastCounts? (ms : List (Intake R)) : Option (Nat × Nat) :=
  ms.reverse.findSome? fun m => m.2.counts?

def lastFix? (ms : List (Intake R)) : Option (Timestamp × ProviderFix R) :=
  ms.reverse.findSome? fun m => m.2.soundFix?.map (m.1, ·)

/-- The fix was lost after the last sound one. -/
def lostSince (ms : List (Intake R)) : Bool :=
  (ms.reverse.takeWhile fun m => m.2.soundFix?.isNone).any fun m => m.2.isLost

/-- All that a provider tells after its messages. -/
def report (kind : ProviderKind) (ms : List (Intake R)) : Reading R :=
  match lastFix? ms with
  | none =>
    { position := none
      speed := none
      bearing := none
      altitude := none
      accuracy := none
      satellites := lastCounts? ms
      fixType := 0
      fixTime := Timestamp.never
      validity := .invalid
      preference := kind.preference }
  | some (taken, f) =>
    { position := some f.position
      speed := f.speed.map (· * Reckoning.kmhPerMps)
      bearing := f.bearing
      altitude := f.altitude
      accuracy := f.accuracy.map raisedRadius
      satellites := lastCounts? ms
      fixType := if lostSince ms then 0 else f.fixType
      fixTime := if kind.restamps then taken else f.time
      validity := if lostSince ms then .invalid else .valid
      preference := kind.preference }

/-- The location after one message. -/
def take (kind : ProviderKind) (l : Location R) (m : Intake R) : Location R :=
  (after? kind m.1 l m.2).getD l

/-- The location after each of the messages has been applied once, in order. -/
def replay (kind : ProviderKind) (ms : List (Intake R)) : Location R :=
  ms.foldl (take kind) (Location.blank kind.preference)

lemma replay_append (kind : ProviderKind) (ms : List (Intake R)) (m : Intake R) :
    replay kind (ms ++ [m]) = take kind (replay kind ms) m := by
  simp [replay]

section

omit [Arith R]

variable (l : Location R)

lemma reading_supply_accuracy (o : Option R) :
    (supply Location.setAccuracy o l).reading =
      { l.reading with accuracy := o.or l.reading.accuracy } := by
  cases o <;> simp [supply]

lemma reading_supply_speed (o : Option R) :
    (supply Location.setSpeed o l).reading =
      { l.reading with speed := o.or l.reading.speed } := by
  cases o <;> simp [supply]

lemma reading_supply_bearing (o : Option R) :
    (supply Location.setBearing o l).reading =
      { l.reading with bearing := o.or l.reading.bearing } := by
  cases o <;> simp [supply]

lemma reading_supply_altitude (o : Option R) :
    (supply Location.setAltitude o l).reading =
      { l.reading with altitude := o.or l.reading.altitude } := by
  cases o <;> simp [supply]

lemma reading_supply_satellites (o : Option (Nat × Nat)) :
    (supply (fun l s => l.setSatellites s.1 s.2) o l).reading =
      { l.reading with satellites := o.or l.reading.satellites } := by
  cases o <;> simp [supply]

lemma reading_setFix (fixType : Int) (fixTime : Timestamp) (v : Validity) :
    ({ l with fixType := fixType, fixTime := fixTime, validity := v } : Location R).reading =
      { l.reading with fixType := fixType, fixTime := fixTime, validity := v } :=
  rfl

end

/-- A fix tells its own attributes, the satellite counts from before, and nothing else. -/
theorem reading_located (kind : ProviderKind) (before : Location R) (now : Timestamp)
    (f : ProviderFix R) :
    (located kind before now f).reading =
      { position := some f.position
        speed := f.speed.map (· * Reckoning.kmhPerMps)
        bearing := f.bearing
        altitude := f.altitude
        accuracy := f.accuracy
        satellites := before.reading.satellites
        fixType := f.fixType
        fixTime := if kind.restamps then now else f.time
        validity := .valid
        preference := kind.preference } := by
  simp only [located, reading_setFix, reading_supply_satellites, reading_supply_altitude,
    reading_supply_bearing, reading_supply_speed, reading_supply_accuracy,
    Location.reading_setPosition, Location.reading_blank, Option.or_none]
  rfl

/-- A fix passes the check for storing exactly when each of its values does. -/
theorem snd_sanitize_located (kind : ProviderKind) (before : Location R) (now : Timestamp)
    (f : ProviderFix R) :
    (located kind before now f).sanitize.2 = none ↔ f.isSound = true := by
  rw [Location.snd_sanitize_eq_none, reading_located]
  rfl

section

variable (kind : ProviderKind) (now : Timestamp) (l : Location R)

lemma take_sound {f : ProviderFix R} (hf : f.isSound = true) :
    take kind l (now, .fix f) = (located kind l now f).sanitize.1 := by
  have hnone := (snd_sanitize_located kind l now f).mpr hf
  simp only [take, after?]
  split
  · next h => rw [h]; rfl
  · next h => rw [h] at hnone; cases hnone

/-- A fix with a fault is ignored. -/
lemma take_unsound {f : ProviderFix R} (hf : f.isSound = false) :
    take kind l (now, .fix f) = l := by
  have hsome : (located kind l now f).sanitize.2 ≠ none := by
    rw [Ne, snd_sanitize_located, hf]
    exact Bool.false_ne_true
  simp only [take, after?]
  split
  · next h => rw [h] at hsome; exact absurd rfl hsome
  · rfl

/-- A sound fix replaces all but the satellite counts. -/
lemma reading_take_sound {f : ProviderFix R} (hf : f.isSound = true) :
    (take kind l (now, .fix f)).reading =
      { position := some f.position
        speed := f.speed.map (· * Reckoning.kmhPerMps)
        bearing := f.bearing
        altitude := f.altitude
        accuracy := f.accuracy.map raisedRadius
        satellites := l.reading.satellites
        fixType := f.fixType
        fixTime := if kind.restamps then now else f.time
        validity := .valid
        preference := kind.preference } := by
  rw [take_sound kind now l hf,
    Location.reading_sanitize ((snd_sanitize_located kind l now f).mpr hf), reading_located]

lemma reading_take_satellites (inView used : Nat) :
    (take kind l (now, .satellites inView used)).reading =
      { l.reading with satellites := some (inView, used) } := by
  simp only [take, after?]
  split_ifs with h
  · have hsame : l.reading.satellites = some (inView, used) := h
    rw [← hsame]
    rfl
  · exact l.reading_setSatellites inView used

/-- A lost fix keeps the attributes. -/
lemma reading_take_lost (h : l.validity = .invalid → l.fixType = 0) :
    (take kind l (now, .lost)).reading =
      { l.reading with fixType := 0, validity := .invalid } := by
  simp only [take, after?]
  split_ifs with hv
  · have hreading : l.reading = { l.reading with fixType := l.fixType, validity := l.validity } :=
      rfl
    rw [Option.getD_none, hreading, h hv, hv]
  · rfl

end

section

variable (ms : List (Intake R)) (now : Timestamp) (m : ProviderMessage R)

omit [Arith R] in
lemma lastCounts?_append : lastCounts? (ms ++ [(now, m)]) = m.counts?.or (lastCounts? ms) := by
  simp only [lastCounts?, List.reverse_append, List.reverse_singleton, List.singleton_append,
    List.findSome?_cons]
  cases m.counts? <;> rfl

lemma lastFix?_append :
    lastFix? (ms ++ [(now, m)]) = (m.soundFix?.map (now, ·)).or (lastFix? ms) := by
  simp only [lastFix?, List.reverse_append, List.reverse_singleton, List.singleton_append,
    List.findSome?_cons]
  cases m.soundFix? <;> rfl

lemma lostSince_append :
    lostSince (ms ++ [(now, m)]) = (m.soundFix?.isNone && (m.isLost || lostSince ms)) := by
  simp only [lostSince, List.reverse_append, List.reverse_singleton, List.singleton_append,
    List.takeWhile_cons]
  cases m.soundFix? <;> simp

end

lemma satellites_report (kind : ProviderKind) (ms : List (Intake R)) :
    (report kind ms).satellites = lastCounts? ms := by
  unfold report
  split <;> rfl

lemma fixType_report_of_invalid {kind : ProviderKind} {ms : List (Intake R)}
    (h : (report kind ms).validity = .invalid) : (report kind ms).fixType = 0 := by
  unfold report at h ⊢
  cases hfix : lastFix? ms with
  | none => rfl
  | some x =>
    simp only [hfix] at h ⊢
    cases hlost : lostSince ms with
    | true => rfl
    | false => rw [hlost] at h; cases h

/-- The location after all messages tells what they add up to. -/
theorem reading_replay (kind : ProviderKind) (ms : List (Intake R)) :
    (replay kind ms).reading = report kind ms := by
  -- The newest message decides first, so the induction adds messages at the end.
  induction ms using List.reverseRecOn with
  | nil => exact Location.reading_blank kind.preference
  | append_singleton ms m ih =>
    obtain ⟨now, m⟩ := m
    rw [replay_append]
    cases m with
    | fix f =>
      cases hf : f.isSound with
      | true =>
        have hsound : (ProviderMessage.fix f).soundFix? = some f := if_pos hf
        rw [reading_take_sound kind now _ hf, ih, satellites_report]
        simp only [report, lastFix?_append, lastCounts?_append, lostSince_append, hsound]
        rfl
      | false =>
        have hunsound : (ProviderMessage.fix f).soundFix? = none := if_neg (by simp [hf])
        rw [take_unsound kind now _ hf, ih]
        simp only [report, lastFix?_append, lastCounts?_append, lostSince_append, hunsound]
        rfl
    | satellites inView used =>
      rw [reading_take_satellites, ih]
      simp only [report, lastFix?_append, lastCounts?_append, lostSince_append]
      cases lastFix? ms <;> rfl
    | lost =>
      have hinvalid : (replay kind ms).validity = .invalid → (replay kind ms).fixType = 0 := by
        change (replay kind ms).reading.validity = .invalid → (replay kind ms).reading.fixType = 0
        rw [ih]
        exact fixType_report_of_invalid
      rw [reading_take_lost kind now _ hinvalid, ih]
      simp only [report, lastFix?_append, lastCounts?_append, lostSince_append]
      cases lastFix? ms <;> rfl

lemma receive?_eq_none_iff (p : Provider R) (poll : Poll) :
    p.receive? poll = none ↔ p.channel.waiting = [] := by
  rw [receive?, Option.map_eq_none_iff, Channel.receive?_eq_none_iff]

/-- The oldest message is taken out and applied, and a change is recorded. -/
lemma receive?_of_cons {p : Provider R} {m : ProviderMessage R} {rest : List (ProviderMessage R)}
    (h : p.channel.waiting = m :: rest) (poll : Poll) :
    p.receive? poll = some
      ({ p with
          channel := { p.channel with waiting := rest }
          current := take p.kind p.current (poll.now, m) },
        { poll with changed := poll.changed || (after? p.kind poll.now p.current m).isSome }) := by
  simp only [receive?, Channel.receive?_of_cons h, Option.map_some, take]
  cases after? p.kind poll.now p.current m <;> simp

/-- The provider after all that waits has been applied in order. -/
def emptied (p : Provider R) (now : Timestamp) : Provider R :=
  { p with
    channel := { p.channel with waiting := [] }
    current := (p.channel.waiting.map (now, ·)).foldl (take p.kind) p.current }

lemma emptied_of_nil {p : Provider R} (h : p.channel.waiting = []) (now : Timestamp) :
    p.emptied now = p := by
  obtain ⟨name, kind, ⟨capacity, waiting, connected⟩, handles, current⟩ := p
  obtain rfl : waiting = [] := h
  rfl

lemma receiveUpTo_eq {n : Nat} {p : Provider R} (h : p.channel.waiting.length ≤ n) (poll : Poll) :
    (receiveUpTo n (p, poll)).1 = p.emptied poll.now := by
  induction n generalizing p poll with
  | zero => exact (emptied_of_nil (List.length_eq_zero_iff.mp (Nat.le_zero.mp h)) poll.now).symm
  | succ n ih =>
    cases hwaiting : p.channel.waiting with
    | nil =>
      simp only [receiveUpTo, (p.receive?_eq_none_iff poll).mpr hwaiting]
      exact (emptied_of_nil hwaiting poll.now).symm
    | cons m rest =>
      have hrest : rest.length ≤ n := by simpa [hwaiting] using h
      simp only [receiveUpTo, receive?_of_cons hwaiting poll]
      rw [ih hrest]
      simp [emptied, hwaiting]

/-- A change that is recorded stays recorded, so without one there was none. -/
lemma receiveUpTo_of_changed {n : Nat} {x : Provider R × Poll}
    (h : (receiveUpTo n x).2.changed = false) :
    (receiveUpTo n x).1.current = x.1.current ∧ x.2.changed = false := by
  induction n generalizing x with
  | zero => exact ⟨rfl, h⟩
  | succ n ih =>
    cases hwaiting : x.1.channel.waiting with
    | nil =>
      have hnone := (x.1.receive?_eq_none_iff x.2).mpr hwaiting
      simp only [receiveUpTo, hnone] at h ⊢
      exact ⟨trivial, h⟩
    | cons m rest =>
      simp only [receiveUpTo, receive?_of_cons hwaiting x.2] at h ⊢
      obtain ⟨hkeep, hchanged⟩ := ih h
      obtain ⟨hbefore, hafter⟩ := Bool.or_eq_false_iff.mp hchanged
      have hnone : after? x.1.kind x.2.now x.1.current m = none := by simpa using hafter
      have hsame : take x.1.kind x.1.current (x.2.now, m) = x.1.current := by
        rw [take, hnone, Option.getD_none]
      exact ⟨hkeep.trans hsame, hbefore⟩

/-- A poll takes in all that waits. -/
theorem snd_poll (p : Provider R) (now : Timestamp) : (p.poll now).2 = p.emptied now :=
  receiveUpTo_eq (Nat.le_refl _) { now := now }

lemma kind_poll (p : Provider R) (now : Timestamp) : (p.poll now).2.kind = p.kind := by
  rw [snd_poll]
  rfl

/-- A poll tells the location that it leaves, or leaves the location. -/
theorem poll_cases (p : Provider R) (now : Timestamp) :
    (p.poll now).1 = some (p.poll now).2.current ∨
      (p.poll now).1 = none ∧ (p.poll now).2.current = p.current := by
  let x := receiveUpTo p.channel.waiting.length (p, { now := now })
  have htold : (p.poll now).1 = if x.2.changed then some (p.poll now).2.current else none := rfl
  cases hchanged : x.2.changed with
  | true => exact .inl (htold.trans (if_pos hchanged))
  | false =>
    exact .inr ⟨htold.trans (if_neg (by simp [hchanged])), (receiveUpTo_of_changed hchanged).1⟩

end Provider
end Whereabouts
