import Whereabouts.Proofs.Location.Agreement

/-! A location is a record of optional attributes: after any calls of its setters, each getter tells
what the last call on its own attribute left, and the presence pattern tells which of them do. -/
namespace Whereabouts

variable {R : Type}

/-- A pattern is above the attributes of two patterns exactly if it is above both of them. -/
lemma Presence.contains_set_right (p q r : Presence) :
    r.contains (p.set q) = (r.contains p && r.contains q) := by
  rw [Bool.eq_iff_iff, Bool.and_eq_true, contains_iff, contains_iff, contains_iff]
  simp only [set, BitVec.getLsbD_or, Bool.or_eq_true]
  exact ⟨fun h => ⟨fun i hi => h i (.inl hi), fun i hi => h i (.inr hi)⟩,
    fun h i hi => hi.elim (h.1 i) (h.2 i)⟩

lemma Presence.getLsbD_all (i : Nat) : all.bits.getLsbD i = decide (i < 6) := by
  by_cases h : i < 8
  · interval_cases i <;> rfl
  · rw [BitVec.getLsbD_of_ge _ _ (Nat.le_of_not_lt h), decide_eq_false (by omega)]

/-- Without spare bits a pattern has no bit but the six. -/
lemma Presence.lt_six_of_spare_eq_zero {p : Presence} (h : p.spare = 0#8) {i : Nat}
    (hi : p.bits.getLsbD i = true) : i < 6 := by
  have hi8 : i < 8 := BitVec.lt_of_getLsbD hi
  have hspare : p.spare.getLsbD i = false := by rw [h, BitVec.getLsbD_zero]
  rw [spare, BitVec.getLsbD_and, BitVec.getLsbD_not, getLsbD_all, hi] at hspare
  simpa [hi8] using hspare

namespace Location

/-- The attributes that a location may lack. -/
inductive Part where
  | position
  | speed
  | bearing
  | altitude
  | accuracy
  | satellites
  deriving DecidableEq, Repr

namespace Part

abbrev Value (R : Type) : Part → Type
  | position => Geo.Point R
  | speed => R
  | bearing => R
  | altitude => R
  | accuracy => R
  | satellites => Nat × Nat

def presence : Part → Presence
  | position => .position
  | speed => .speed
  | bearing => .bearing
  | altitude => .altitude
  | accuracy => .accuracy
  | satellites => .satellites

/-- The pattern of several attributes. -/
def union (parts : List Part) : Presence := parts.foldl (fun p a => p.set a.presence) .none

lemma presence_ne_none (a : Part) : a.presence ≠ .none := by cases a <;> decide

lemma none_contains_presence (a : Part) : Presence.none.contains a.presence = false := by
  cases a <;> decide

lemma all_contains_presence (a : Part) : Presence.all.contains a.presence = true := by
  cases a <;> decide

lemma clear_presence_of_ne {a b : Part} (h : a ≠ b) :
    a.presence.clear b.presence = a.presence := by
  cases a <;> cases b <;> first | exact absurd rfl h | rfl

end Part

def get? (l : Location R) : (a : Part) → Option (a.Value R)
  | .position => l.position?
  | .speed => l.speed?
  | .bearing => l.bearing?
  | .altitude => l.altitude?
  | .accuracy => l.accuracy?
  | .satellites => l.satellites?

def set (l : Location R) : (a : Part) → a.Value R → Location R
  | .position, p => l.setPosition p
  | .speed, kmh => l.setSpeed kmh
  | .bearing, degrees => l.setBearing degrees
  | .altitude, meters => l.setAltitude meters
  | .accuracy, radius => l.setAccuracy radius
  | .satellites, counts => l.setSatellites counts.1 counts.2

/-- What is stored for an attribute, whether it is present or not. -/
def field (l : Location R) : (a : Part) → a.Value R
  | .position => l.position
  | .speed => l.speed
  | .bearing => l.bearing
  | .altitude => l.altitude
  | .accuracy => l.accuracy
  | .satellites => (l.satsInView, l.satsUsed)

lemma get?_eq (l : Location R) (a : Part) :
    l.get? a = if l.has a.presence then some (l.field a) else none := by
  cases a <;> rfl

lemma isSome_get? (l : Location R) (a : Part) : (l.get? a).isSome = l.has a.presence := by
  rw [get?_eq]
  cases l.has a.presence <;> rfl

lemma presence_set (l : Location R) (a : Part) (v : a.Value R) :
    (l.set a v).presence = l.presence.set a.presence := by
  cases a <;> rfl

lemma field_set_self (l : Location R) (a : Part) (v : a.Value R) : (l.set a v).field a = v := by
  cases a <;> rfl

lemma field_set_of_ne (l : Location R) {a b : Part} (h : b ≠ a) (v : a.Value R) :
    (l.set a v).field b = l.field b := by
  cases a <;> cases b <;> first | exact absurd rfl h | rfl

lemma field_clear (l : Location R) (a b : Part) :
    (l.clear a.presence).field b = l.field b := by
  cases b <;> rfl

@[simp] lemma get?_set_self (l : Location R) (a : Part) (v : a.Value R) :
    (l.set a v).get? a = some v := by
  rw [get?_eq, field_set_self, has, presence_set, Presence.contains_set_self, if_pos rfl]

lemma get?_set_of_ne (l : Location R) {a b : Part} (h : b ≠ a) (v : a.Value R) :
    (l.set a v).get? b = l.get? b := by
  rw [get?_eq, get?_eq, field_set_of_ne l h, has, presence_set,
    Presence.contains_set_of_disjoint (Part.clear_presence_of_ne h)]
  rfl

@[simp] lemma get?_clear_self (l : Location R) (a : Part) :
    (l.clear a.presence).get? a = none := by
  have habsent : (l.clear a.presence).has a.presence = false :=
    Presence.contains_clear_self a.presence_ne_none l.presence
  rw [get?_eq, habsent]
  rfl

lemma get?_clear_of_ne (l : Location R) {a b : Part} (h : b ≠ a) :
    (l.clear a.presence).get? b = l.get? b := by
  have hsame : (l.clear a.presence).has b.presence = l.has b.presence :=
    Presence.contains_clear_of_disjoint (Part.clear_presence_of_ne h) l.presence
  rw [get?_eq, get?_eq, field_clear, hsame]

lemma contains_foldl_set (p q : Presence) (parts : List Part) :
    q.contains (parts.foldl (fun p a => p.set a.presence) p) =
      (q.contains p && parts.all fun a => q.contains a.presence) := by
  induction parts generalizing p with
  | nil => simp
  | cons a parts ih =>
    rw [List.foldl_cons, ih, Presence.contains_set_right, List.all_cons, Bool.and_assoc]

/-- All of several attributes are present exactly if each of their getters tells a value. -/
theorem has_union (l : Location R) (parts : List Part) :
    l.has (Part.union parts) = parts.all fun a => (l.get? a).isSome := by
  simp only [isSome_get?]
  exact (contains_foldl_set .none l.presence parts).trans (by simp [has])

/-- The calls that write to a location. -/
inductive Call (R : Type) where
  /-- Set an attribute, or clear it. -/
  | put (a : Part) (v : Option (a.Value R))
  | setFixType (n : Int)
  | setFixTime (t : Timestamp)
  | setValidity (v : Validity)
  | setPreference (p : Preference)

namespace Call

/-- What the call leaves of an attribute, if it is a call on that attribute. -/
def put? (a : Part) : Call R → Option (Option (a.Value R))
  | put b v => if h : b = a then some (h ▸ v) else none
  | _ => none

def fixType? : Call R → Option Int
  | setFixType n => some n
  | _ => none

def fixTime? : Call R → Option Timestamp
  | setFixTime t => some t
  | _ => none

def validity? : Call R → Option Validity
  | setValidity v => some v
  | _ => none

def preference? : Call R → Option Preference
  | setPreference p => some p
  | _ => none

/-- What the last of the calls on something left of it, and `initial` without such a call. -/
def last {β : Type} (of? : Call R → Option β) (calls : List (Call R)) (initial : β) : β :=
  (calls.filterMap of?).getLast?.getD initial

lemma last_cons {β : Type} (of? : Call R → Option β) (c : Call R) (calls : List (Call R))
    (initial : β) : last of? (c :: calls) initial = last of? calls ((of? c).getD initial) := by
  unfold last
  cases h : of? c with
  | none => rw [List.filterMap_cons_none h, Option.getD_none]
  | some b =>
    rw [List.filterMap_cons_some h, List.getLast?_cons, Option.getD_some, Option.getD_some]

end Call

def call (l : Location R) : Call R → Location R
  | .put a (some v) => l.set a v
  | .put a none => l.clear a.presence
  | .setFixType n => { l with fixType := n }
  | .setFixTime t => { l with fixTime := t }
  | .setValidity v => { l with validity := v }
  | .setPreference p => { l with preference := p }

def run (l : Location R) (calls : List (Call R)) : Location R := calls.foldl call l

/-- What each call either leaves of something or does not touch, a run leaves by its last call. -/
lemma run_eq_last {β : Type} (told : Location R → β) {of? : Call R → Option β}
    (hcall : ∀ l c, told (l.call c) = (of? c).getD (told l)) (l : Location R)
    (calls : List (Call R)) : told (l.run calls) = Call.last of? calls (told l) := by
  induction calls generalizing l with
  | nil => rfl
  | cons c calls ih => rw [Call.last_cons, ← hcall]; exact ih (l.call c)

lemma get?_call (a : Part) (l : Location R) (c : Call R) :
    (l.call c).get? a = (c.put? a).getD (l.get? a) := by
  cases c with
  | put b v =>
    rw [Call.put?]
    by_cases h : b = a
    · subst h
      cases v with
      | some v => simp [call]
      | none => simp [call]
    · rw [dif_neg h, Option.getD_none]
      cases v with
      | some v => exact get?_set_of_ne l (Ne.symm h) v
      | none => exact get?_clear_of_ne l (Ne.symm h)
  | _ => cases a <;> rfl

lemma fixType_call (l : Location R) (c : Call R) :
    (l.call c).fixType = c.fixType?.getD l.fixType := by
  rcases c with ⟨a, _ | v⟩ | _ | _ | _ | _ <;> first | rfl | cases a <;> rfl

lemma fixTime_call (l : Location R) (c : Call R) :
    (l.call c).fixTime = c.fixTime?.getD l.fixTime := by
  rcases c with ⟨a, _ | v⟩ | _ | _ | _ | _ <;> first | rfl | cases a <;> rfl

lemma validity_call (l : Location R) (c : Call R) :
    (l.call c).validity = c.validity?.getD l.validity := by
  rcases c with ⟨a, _ | v⟩ | _ | _ | _ | _ <;> first | rfl | cases a <;> rfl

lemma preference_call (l : Location R) (c : Call R) :
    (l.call c).preference = c.preference?.getD l.preference := by
  rcases c with ⟨a, _ | v⟩ | _ | _ | _ | _ <;> first | rfl | cases a <;> rfl

lemma spare_call (l : Location R) (c : Call R) : (l.call c).presence.spare = l.presence.spare := by
  rcases c with ⟨a, _ | v⟩ | _ | _ | _ | _
  · exact Presence.spare_clear a.all_contains_presence _
  · rw [call, presence_set]
    exact Presence.spare_set a.all_contains_presence _
  all_goals rfl

lemma spare_run (l : Location R) (calls : List (Call R)) :
    (l.run calls).presence.spare = l.presence.spare := by
  induction calls generalizing l with
  | nil => rfl
  | cons c calls ih => exact (ih (l.call c)).trans (spare_call l c)

variable [Arith R]

lemma get?_blank (p : Preference) (a : Part) : (blank p : Location R).get? a = none := by
  rw [get?_eq, show (blank p : Location R).has a.presence = false from a.none_contains_presence]
  rfl

lemma presence_sanitize (l : Location R) : l.sanitize.1.presence = l.presence := by
  unfold sanitize
  cases l.placeFault? with
  | none => exact presence_floored l
  | some e => rfl

lemma get?_sanitize_of_ne {l : Location R} (h : l.sanitize.2 = none) {a : Part}
    (ha : a ≠ .accuracy) : l.sanitize.1.get? a = l.get? a := by
  have hread := reading_sanitize h
  cases a with
  | position => exact congrArg Reading.position hread
  | speed => exact congrArg Reading.speed hread
  | bearing => exact congrArg Reading.bearing hread
  | altitude => exact congrArg Reading.altitude hread
  | accuracy => exact absurd rfl ha
  | satellites => exact congrArg Reading.satellites hread

/-- A location is a record of optional attributes. After any calls on a blank one, each getter tells
what the last call on its own attribute or property left, and the pattern has no bit but the six.
The pattern tells which attributes there are, and sanitizing raises a low accuracy and changes
nothing else. -/
theorem record_of_attributes :
    (∀ calls, let l : Location R := (blank .low).run calls
      (∀ a, l.get? a = Call.last (Call.put? a) calls none) ∧
      l.fixType = Call.last Call.fixType? calls 0 ∧
      l.fixTime = Call.last Call.fixTime? calls Timestamp.never ∧
      l.validity = Call.last Call.validity? calls .invalid ∧
      l.preference = Call.last Call.preference? calls .low ∧
      ∀ i, l.presence.bits.getLsbD i = true → i < 6) ∧
    (∀ l : Location R, (∀ a : Part, l.has a.presence = (l.get? a).isSome) ∧
      ∀ parts, l.presence.contains (Part.union parts) = parts.all fun a => (l.get? a).isSome) ∧
    (∀ l : Location R, l.sanitize.2 = none →
      (∀ a ≠ .accuracy, l.sanitize.1.get? a = l.get? a) ∧
      l.sanitize.1.accuracy? = l.accuracy?.map (fun r => if r < minRadius then minRadius else r) ∧
      l.sanitize.1.presence = l.presence ∧ l.sanitize.1.fixType = l.fixType ∧
      l.sanitize.1.fixTime = l.fixTime ∧ l.sanitize.1.validity = l.validity ∧
      l.sanitize.1.preference = l.preference) := by
  refine ⟨fun calls => ⟨fun a => ?_, run_eq_last fixType fixType_call _ _,
    run_eq_last fixTime fixTime_call _ _, run_eq_last validity validity_call _ _,
    run_eq_last preference preference_call _ _, fun i => ?_⟩,
    fun l => ⟨fun a => (isSome_get? l a).symm, has_union l⟩, fun l h => ?_⟩
  · rw [← get?_blank .low a]
    exact run_eq_last (·.get? a) (get?_call a) _ _
  · have hspare : ((blank .low : Location R).run calls).presence.spare = Presence.none.spare :=
      spare_run (blank .low) calls
    exact Presence.lt_six_of_spare_eq_zero (hspare.trans (by decide))
  · have hread := reading_sanitize h
    exact ⟨fun a ha => get?_sanitize_of_ne h ha, congrArg Reading.accuracy hread,
      presence_sanitize l, congrArg Reading.fixType hread, congrArg Reading.fixTime hread,
      congrArg Reading.validity hread, congrArg Reading.preference hread⟩

/-- A speed that is set and cleared is gone, and an accuracy of a quarter meter becomes one. -/
theorem record_of_attributes_low_accuracy :
    let calls : List (Call Float) :=
      [.put .accuracy (some 0.25), .put .speed (some 50.0), .setFixType 3, .put .speed none]
    let l := (blank .low).run calls
    l.get? .accuracy = some 0.25 ∧ l.get? .speed = none ∧ l.fixType = 3 ∧
      l.sanitize.2 = none ∧ l.sanitize.1.accuracy? = some 1.0 ∧
      l.sanitize.1.get? .speed = none := by
  intro calls l
  have hsound : l.sanitize.2 = none := by decide +kernel
  obtain ⟨hcalls, -, hsanitize⟩ := record_of_attributes (R := Float)
  obtain ⟨hget, htype, -⟩ := hcalls calls
  obtain ⟨hkept, haccuracy, -⟩ := hsanitize l hsound
  refine ⟨hget .accuracy, hget .speed, htype, hsound, haccuracy.trans ?_,
    (hkept .speed (by decide)).trans (hget .speed)⟩
  rw [show l.accuracy? = some 0.25 from hget .accuracy]
  decide +kernel

end Location
end Whereabouts
