import Whereabouts.Proofs.Store.Run

/-! Calls that work on a store in place, with one copy of a location as their scratch. The copy may
be changed when a call is refused, but the slots are not: they are written last. -/
namespace Whereabouts

variable {R : Type}

namespace Location

variable [Arith R]

lemma motionFault?_floored (l : Location R) : l.floored.motionFault? = l.motionFault? := by
  unfold floored
  split_ifs <;> rfl

/-- Sanitizing does not look at the preference. -/
lemma sanitize_setPreference (l : Location R) (p : Preference) :
    ({ l with preference := p } : Location R).sanitize =
      ({ l.sanitize.1 with preference := p }, l.sanitize.2) := by
  have hplace : ({ l with preference := p } : Location R).placeFault? = l.placeFault? := rfl
  unfold sanitize
  rw [hplace]
  cases l.placeFault? with
  | some e => rfl
  | none => exact Prod.ext (floored_setPreference l p) rfl

end Location

namespace Store

section

variable [Arith R] {s : Store R} {slot : Nat}

/-- The store that a call leads to, or why it fails. -/
def attempt (s : Store R) : Call R → Except (Fault R) (Store R)
  | .register p => (s.register p).map Prod.snd
  | .update slot l => s.update slot l
  | .edit slot f => s.edit slot f

/-- The slot that a call changes, and what it makes of the location there. -/
def Call.edits? : Call R → Option (Nat × (Location R → Location R))
  | .register _ => none
  | .update slot l => some (slot, fun _ => l)
  | .edit slot f => some (slot, f)

lemma attempt_of_edits? {c : Call R} {f : Location R → Location R}
    (h : c.edits? = some (slot, f)) (s : Store R) : s.attempt c = s.edit slot f := by
  cases c with
  | register p => cases h
  | update slot l | edit slot f => cases h; rfl

lemma fst_call (s : Store R) (c : Call R) : (s.call c).1 = (s.attempt c).toOption.getD s := by
  cases c with
  | register p =>
    rw [call, attempt]
    cases s.register p <;> rfl
  | update slot l | edit slot f => rfl

lemma edit_of_unknown (h : s.get? slot = none) (f : Location R → Location R) :
    s.edit slot f = .error (.unknownSlot slot) := by
  rw [edit, h]

lemma edit_of_fault {l : Location R} {f : Location R → Location R} {e : Fault R}
    (h : s.get? slot = some l) (he : (f l).sanitize.2 = some e) : s.edit slot f = .error e := by
  have hm : (f l).sanitize = ((f l).sanitize.1, some e) := Prod.ext rfl he
  rw [edit, h]
  dsimp only
  rw [hm]

lemma edit_of_sound {l : Location R} {f : Location R → Location R} (h : s.get? slot = some l)
    (hnone : (f l).sanitize.2 = none) :
    s.edit slot f =
      .ok ⟨s.slots.set slot { (f l).sanitize.1 with preference := l.preference }⟩ := by
  have hm : (f l).sanitize = ((f l).sanitize.1, none) := Prod.ext rfl hnone
  rw [edit, h]
  dsimp only
  rw [hm]

end

/-- A store and the copy of a location that a call works on. -/
structure Draft (R : Type) where
  store : Store R
  copy : Location R

abbrev InPlace (R : Type) := EStateM (Fault R) (Draft R)

namespace InPlace

variable [Arith R]

def register (p : Preference) : InPlace R Nat := do
  let s := (← get).store
  if s.size < capacity then
    modify fun d => { d with store := ⟨s.slots ++ [Location.blank p]⟩ }
    return s.size
  else
    throw (.storeFull capacity)

/-- The location of a slot, which has to be known. -/
def current (slot : Nat) : InPlace R (Location R) := do
  match (← get).store.get? slot with
  | none => throw (.unknownSlot slot)
  | some l => return l

def refuse : Option (Fault R) → InPlace R Unit
  | none => return
  | some e => throw e

/-- A fault of the motion is found when the accuracy of the copy is raised already. -/
def sanitize : InPlace R Unit := do
  refuse (← get).copy.placeFault?
  modify fun d => { d with copy := d.copy.floored }
  refuse (← get).copy.motionFault?

def write (slot : Nat) : InPlace R Unit :=
  modify fun d => { d with store := ⟨d.store.slots.set slot d.copy⟩ }

def edit (slot : Nat) (f : Location R → Location R) : InPlace R Unit := do
  let l ← current slot
  modify fun d => { d with copy := f l }
  sanitize
  modify fun d => { d with copy := { d.copy with preference := l.preference } }
  write slot

def call : Call R → InPlace R Unit
  | .register p => discard (register p)
  | .update slot l => edit slot fun _ => l
  | .edit slot f => edit slot f

/-- The draft that a program leaves, whether or not it fails. -/
def left {α : Type} : EStateM.Result (Fault R) (Draft R) α → Draft R
  | .ok _ d | .error _ d => d

/-- The draft after calls, of which any may fail. -/
def after (d : Draft R) (cs : List (Call R)) : Draft R :=
  cs.foldl (fun d c => left ((call c).run d)) d

/-- A program ends as a function does that returns a new store, or leaves the old one as it is. -/
def ended {α : Type} (s : Store R) (copy : Location R) :
    Except (Fault R) (α × Store R) → EStateM.Result (Fault R) (Draft R) α
  | .ok (a, s') => .ok a ⟨s', copy⟩
  | .error e => .error e ⟨s, copy⟩

lemma register_run (p : Preference) (d : Draft R) :
    (register p).run d = ended d.store d.copy (d.store.register p) := by
  simp only [register, Store.register, EStateM.run_bind, EStateM.run_get]
  split_ifs <;> rfl

lemma sanitize_run (d : Draft R) :
    (sanitize : InPlace R Unit).run d =
      (refuse d.copy.sanitize.2).run { d with copy := d.copy.sanitize.1 } := by
  simp only [sanitize, EStateM.run_bind, EStateM.run_get, EStateM.run_modify, Location.sanitize]
  cases d.copy.placeFault? with
  | some e => rfl
  | none =>
    change (refuse d.copy.floored.motionFault?).run { d with copy := d.copy.floored } = _
    rw [Location.motionFault?_floored]

section

variable {slot : Nat} {d : Draft R} {l : Location R} {f : Location R → Location R}

lemma edit_run_of_unknown (h : d.store.get? slot = none) (f : Location R → Location R) :
    (edit slot f).run d = .error (.unknownSlot slot) d := by
  simp only [edit, current, EStateM.run_bind, EStateM.run_get, h]
  rfl

/-- A failure leaves the copy as sanitizing left it, perhaps with its accuracy raised. -/
lemma edit_run_of_fault {e : Fault R} (h : d.store.get? slot = some l)
    (he : (f l).sanitize.2 = some e) :
    (edit slot f).run d = .error e { d with copy := (f l).sanitize.1 } := by
  simp only [edit, current, EStateM.run_bind, EStateM.run_get, h, EStateM.run_pure,
    EStateM.run_modify, sanitize_run, he]
  rfl

lemma edit_run_of_sound (h : d.store.get? slot = some l) (hnone : (f l).sanitize.2 = none) :
    (edit slot f).run d =
      let stored := { (f l).sanitize.1 with preference := l.preference }
      .ok () ⟨⟨d.store.slots.set slot stored⟩, stored⟩ := by
  simp only [edit, current, EStateM.run_bind, EStateM.run_get, h, EStateM.run_pure,
    EStateM.run_modify, sanitize_run, hnone]
  rfl

end

theorem edit_run (slot : Nat) (f : Location R → Location R) (d : Draft R) :
    ∃ copy, (edit slot f).run d =
      ended d.store copy ((d.store.edit slot f).map fun s => ((), s)) := by
  cases h : d.store.get? slot with
  | none =>
    rw [edit_run_of_unknown h, edit_of_unknown h]
    exact ⟨d.copy, rfl⟩
  | some l =>
    cases hfault : (f l).sanitize.2 with
    | some e =>
      rw [edit_run_of_fault h hfault, edit_of_fault h hfault]
      exact ⟨(f l).sanitize.1, rfl⟩
    | none =>
      rw [edit_run_of_sound h hfault, edit_of_sound h hfault]
      exact ⟨{ (f l).sanitize.1 with preference := l.preference }, rfl⟩

lemma call_of_edits? {c : Call R} {slot : Nat} {f : Location R → Location R}
    (h : c.edits? = some (slot, f)) : call c = edit slot f := by
  cases c with
  | register p => cases h
  | update slot l | edit slot f => cases h; rfl

/-- A call in place that fails leaves the slots as they were. -/
theorem call_run (c : Call R) (d : Draft R) :
    ∃ copy, (call c).run d = ended d.store copy ((d.store.attempt c).map fun s => ((), s)) := by
  cases c with
  | register p =>
    refine ⟨d.copy, ?_⟩
    change (Function.const Nat () <$> register p).run d = _
    rw [EStateM.run_map, register_run, attempt]
    cases d.store.register p <;> rfl
  | update slot l => exact edit_run slot _ d
  | edit slot f => exact edit_run slot f d

lemma left_call (c : Call R) (d : Draft R) :
    (left ((call c).run d)).store = (d.store.call c).1 := by
  obtain ⟨copy, h⟩ := call_run c d
  rw [h, fst_call]
  cases d.store.attempt c <;> rfl

theorem store_after (d : Draft R) (cs : List (Call R)) :
    (after d cs).store = (d.store.run cs).1 := by
  induction cs generalizing d with
  | nil => rfl
  | cons c cs ih =>
    rw [after, List.foldl_cons, ← after, ih, left_call]
    rfl

end InPlace

section

variable [Arith R]

/-- Calls that differ at most in the preference of what is to be stored. -/
inductive SameButPreference : Call R → Call R → Prop
  | register (p : Preference) : SameButPreference (.register p) (.register p)
  | update (slot : Nat) (l : Location R) (p : Preference) :
    SameButPreference (.update slot l) (.update slot { l with preference := p })
  | edit (slot : Nat) {f g : Location R → Location R}
    (h : ∀ l, ∃ p, g l = { f l with preference := p }) :
    SameButPreference (.edit slot f) (.edit slot g)

lemma edit_congr (s : Store R) (slot : Nat) {f g : Location R → Location R}
    (h : ∀ l, ∃ p, g l = { f l with preference := p }) : s.edit slot f = s.edit slot g := by
  cases hslot : s.get? slot with
  | none => rw [edit_of_unknown hslot, edit_of_unknown hslot]
  | some l =>
    obtain ⟨p, hp⟩ := h l
    have hsanitize : (g l).sanitize = ({ (f l).sanitize.1 with preference := p },
        (f l).sanitize.2) := by
      rw [hp, Location.sanitize_setPreference (f l) p]
    cases hfault : (f l).sanitize.2 with
    | some e =>
      have hfault' : (g l).sanitize.2 = some e := (congrArg Prod.snd hsanitize).trans hfault
      rw [edit_of_fault hslot hfault, edit_of_fault hslot hfault']
    | none =>
      have hfault' : (g l).sanitize.2 = none := (congrArg Prod.snd hsanitize).trans hfault
      rw [edit_of_sound hslot hfault, edit_of_sound hslot hfault', hsanitize]

lemma SameButPreference.call_eq {c c' : Call R} (h : SameButPreference c c') (s : Store R) :
    s.call c = s.call c' := by
  cases h with
  | register p => rfl
  | update slot l p =>
    have hupdate : s.update slot l = s.update slot { l with preference := p } :=
      edit_congr s slot fun _ => ⟨p, rfl⟩
    rw [call, call, hupdate]
  | edit slot h => rw [call, call, edit_congr s slot h]

theorem run_congr {cs cs' : List (Call R)} (h : List.Forall₂ SameButPreference cs cs')
    (s : Store R) : s.run cs = s.run cs' := by
  induction h generalizing s with
  | nil => rfl
  | cons hc _ ih => rw [run, run, hc.call_eq s, ih]

end

/-- One slot holds a location, and the others are as before. -/
structure Replaces (before : Store R) (slot : Nat) (l : Location R) (after : Store R) : Prop where
  size_eq : after.size = before.size
  get?_slot : after.get? slot = some l
  get?_other : ∀ other, other ≠ slot → after.get? other = before.get? other

lemma replaces_set {s : Store R} {slot : Nat} {current : Location R}
    (h : s.get? slot = some current) (l : Location R) :
    s.Replaces slot l ⟨s.slots.set slot l⟩ where
  size_eq := List.length_set
  get?_slot := by
    obtain ⟨hslot, -⟩ := List.getElem?_eq_some_iff.mp h
    exact List.getElem?_set_self hslot
  get?_other _ hother := List.getElem?_set_ne hother.symm

/-- A slot that was handed out is one of the store, which has its preference. -/
lemma mem_handed_iff {s : Store R} {handed : List (Nat × Preference)}
    (hslots : handed.map Prod.fst = List.range handed.length)
    (hpreferences : s.slots.map Location.preference = handed.map Prod.snd)
    {slot : Nat} {p : Preference} :
    (slot, p) ∈ handed ↔ (s.get? slot).map Location.preference = some p := by
  have hget : (s.get? slot).map Location.preference = handed[slot]?.map Prod.snd := by
    rw [get?, ← List.getElem?_map, hpreferences, List.getElem?_map]
  have hfst (i : Nat) (x : Nat × Preference) (hx : handed[i]? = some x) : x.1 = i := by
    have hrange : (List.range handed.length)[i]? = some x.1 := by
      rw [← hslots, List.getElem?_map, hx]
      rfl
    obtain ⟨hi, hvalue⟩ := List.getElem?_eq_some_iff.mp hrange
    rw [← hvalue, List.getElem_range]
  rw [hget, Option.map_eq_some_iff]
  constructor
  · intro h
    obtain ⟨i, hi⟩ := List.mem_iff_getElem?.mp h
    obtain rfl : slot = i := hfst i _ hi
    exact ⟨(slot, p), hi, rfl⟩
  · rintro ⟨⟨i, q⟩, hi, rfl⟩
    obtain rfl : i = slot := hfst slot _ hi
    exact List.mem_of_getElem? hi

/-- Calls in place lead to the stores that calls lead to, and one that fails leaves every slot as it
was, even if it raised the accuracy of its copy before. In a store that was reached by calls, a
registration fails exactly if there are sixteen slots, and an update or edit exactly if its slot was
not handed out or what is to be stored cannot be sanitized. A success changes one slot, to what was
sanitized with the preference that the slot was registered with. Calls that differ in the
preferences of what is to be stored lead to the same store. -/
theorem calls_all_or_nothing (cs : List (Call Float)) :
    let s := ((empty : Store Float).run cs).1
    let handed := ((empty : Store Float).run cs).2
    (∀ copy, (InPlace.after ⟨empty, copy⟩ cs).store = s) ∧
    (∀ c copy, ∃ copy', (InPlace.call c).run ⟨s, copy⟩ =
      InPlace.ended s copy' ((s.attempt c).map fun s' => ((), s'))) ∧
    (∀ p, (s.register p = if s.size = 16 then .error (.storeFull 16)
        else .ok (s.size, ⟨s.slots ++ [Location.blank p]⟩)) ∧
      ∀ copy, (InPlace.register p).run ⟨s, copy⟩ = InPlace.ended s copy (s.register p)) ∧
    (∀ c slot f, c.edits? = some (slot, f) →
      ((∀ p, (slot, p) ∉ handed) → s.attempt c = .error (.unknownSlot slot)) ∧
      ∀ p, (slot, p) ∈ handed → ∃ l, s.get? slot = some l ∧
        (∀ e, (f l).sanitize.2 = some e → s.attempt c = .error e ∧
          ∀ copy, (InPlace.call c).run ⟨s, copy⟩ = .error e ⟨s, (f l).sanitize.1⟩) ∧
        ((f l).sanitize.2 = none → ∃ s', s.attempt c = .ok s' ∧
          s.Replaces slot { (f l).sanitize.1 with preference := p } s')) ∧
    ∀ (t : Store Float) (cs' : List (Call Float)),
      List.Forall₂ SameButPreference cs cs' → t.run cs = t.run cs' := by
  intro s handed
  obtain ⟨hholds, hslots, -⟩ := (holds_empty (R := Float)).run (by decide) (by decide) cs
  have hrange : handed.map Prod.fst = List.range handed.length := by
    rw [List.range_eq_range']
    exact hslots
  refine ⟨fun copy => InPlace.store_after _ cs, fun c copy => InPlace.call_run c _,
    fun p => ⟨?_, fun copy => InPlace.register_run p _⟩, fun c slot f hc => ?_,
    fun t cs' h => run_congr h t⟩
  · have hbounded : s.size ≤ capacity := hholds.bounded
    have hroom : s.size < capacity ↔ ¬ s.size = 16 := by
      unfold capacity at hbounded ⊢
      omega
    simp only [register, hroom, ite_not]
    rfl
  · have hmem (p : Preference) :
        (slot, p) ∈ handed ↔ (s.get? slot).map Location.preference = some p :=
      mem_handed_iff hrange hholds.preferences
    rw [attempt_of_edits? hc, InPlace.call_of_edits? hc]
    constructor
    · intro hunknown
      apply edit_of_unknown
      cases h : s.get? slot with
      | none => rfl
      | some l => exact absurd ((hmem _).mpr (congrArg _ h)) (hunknown l.preference)
    · intro p hp
      obtain ⟨l, hl, rfl⟩ := Option.map_eq_some_iff.mp ((hmem p).mp hp)
      refine ⟨l, hl, fun e he => ⟨?_, fun copy => ?_⟩, fun hnone => ?_⟩
      · exact edit_of_fault hl he
      · exact InPlace.edit_run_of_fault hl he
      · exact ⟨_, edit_of_sound hl hnone, replaces_set hl _⟩

/-- The accuracy was raised before the speed was refused. -/
example :
    let s : Store Float := ⟨[Location.blank .low]⟩
    let l := ((Location.blank .high).setAccuracy 0.5).setSpeed Binary64.nan
    (InPlace.call (.update 0 l)).run ⟨s, l⟩ = .error .invalidSpeed ⟨s, l.setAccuracy 1.0⟩ := by
  rfl

end Store
end Whereabouts
