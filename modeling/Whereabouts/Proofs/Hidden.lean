import Whereabouts.Proofs.Location.Agreement
import Whereabouts.Proofs.Change
import Whereabouts.Fusion.Pass
import Whereabouts.Reckoning.Drive

/-! What is stored behind absent attributes stays hidden: no pass, no sanitizing, no update of a
store and no dead reckoning lets it show. -/
namespace Whereabouts

open Location

variable {R : Type}

section

variable {raw raw' : List (Location R)}

lemma agreeing_filter (h : List.Forall₂ Agrees raw raw') {p : Location R → Bool}
    (hp : ∀ l m, l.Agrees m → p l = p m) : List.Forall₂ Agrees (raw.filter p) (raw'.filter p) := by
  induction h with
  | nil => exact .nil
  | @cons l m _ _ hlm _ ih =>
    rw [List.filter_cons, List.filter_cons, hp l m hlm]
    split_ifs
    · exact .cons hlm ih
    · exact ih

lemma agreeing_filterMap {α : Type} (h : List.Forall₂ Agrees raw raw') {f : Location R → Option α}
    (hf : ∀ l m, l.Agrees m → f l = f m) : raw.filterMap f = raw'.filterMap f := by
  induction h with
  | nil => rfl
  | @cons l m _ _ hlm _ ih => rw [List.filterMap_cons, List.filterMap_cons, hf l m hlm, ih]

lemma agreeing_foldl {β : Type} (h : List.Forall₂ Agrees raw raw') {f : β → Location R → β}
    (hf : ∀ b l m, l.Agrees m → f b l = f b m) (b : β) : raw.foldl f b = raw'.foldl f b := by
  induction h generalizing b with
  | nil => rfl
  | @cons l m _ _ hlm _ ih => rw [List.foldl_cons, List.foldl_cons, hf b l m hlm, ih]

end

namespace Fusion

lemma Winners.observe_congr (w : Winners) {l m : Location R} (h : l.Agrees m) :
    w.observe l = w.observe m := by
  simp only [observe, h.rank_eq, h.has_eq]

lemma Winners.uses_congr (w : Winners) (g : Group) {l m : Location R} (h : l.Agrees m) :
    w.uses g l = w.uses g m := by
  rw [uses, uses, h.has_eq, h.rank_eq]

lemma Winners.usesAny_congr (w : Winners) {l m : Location R} (h : l.Agrees m) :
    w.usesAny l = w.usesAny m := by
  simp only [usesAny, w.uses_congr _ h]

lemma peaks?_congr {ls ms : List (Location R)} (h : List.Forall₂ Agrees ls ms) :
    peaks? ls = peaks? ms := by
  cases h with
  | nil => rfl
  | cons hlm h =>
    rw [peaks?, peaks?, hlm.fixType_eq, hlm.fixTime_eq, hlm.validity_eq, hlm.preference_eq]
    refine congrArg some (agreeing_foldl h (fun p l m hlm => ?_) _)
    rw [hlm.fixType_eq, hlm.fixTime_eq, hlm.validity_eq, hlm.preference_eq]

lemma latestSatellites?_congr {ls ms : List (Location R)} (h : List.Forall₂ Agrees ls ms) :
    latestSatellites? ls = latestSatellites? ms := by
  unfold latestSatellites?
  rw [agreeing_foldl h fun best l m hlm => ?_]
  rw [hlm.satellites?_eq, hlm.fixTime_eq]

variable {raw raw' : List (Location R)}

lemma Winners.among_congr (h : List.Forall₂ Agrees raw raw') : among raw = among raw' :=
  agreeing_foldl h (fun w _ _ hlm => w.observe_congr hlm) _

lemma Winners.contributors_congr (w : Winners) (h : List.Forall₂ Agrees raw raw') (g : Group) :
    List.Forall₂ Agrees (w.contributors g raw) (w.contributors g raw') :=
  agreeing_filter h fun _ _ => w.uses_congr g

lemma provenance?_congr (w : Winners) (h : List.Forall₂ Agrees raw raw') :
    provenance? w raw = provenance? w raw' := by
  have hused : List.Forall₂ Agrees (raw.filter w.usesAny) (raw'.filter w.usesAny) :=
    agreeing_filter h fun _ _ => w.usesAny_congr
  unfold provenance?
  simp only [latestSatellites?_congr hused]
  split_ifs
  · rw [peaks?_congr hused]
  · rw [peaks?_congr (w.contributors_congr h .position)]

variable {fused fused' : Location R}

lemma agrees_inherit (h : fused.Agrees fused') (p : Option Provenance) :
    (inherit p fused).Agrees (inherit p fused') := by
  match p with
  | none => exact h.setValidity .invalid
  | some ⟨fixType, fixTime, validity, preference, satellites⟩ =>
    have hmeta := (((h.setFixType fixType).setFixTime fixTime).setValidity validity).setPreference
      preference
    match satellites with
    | none => exact hmeta
    | some (inView, used) => exact hmeta.setSatellites inView used

lemma agrees_place (h : fused.Agrees fused') (e : Option (Geo.Point R × Option R)) :
    (place e fused).Agrees (place e fused') := by
  match e with
  | none => exact h
  | some (p, none) => exact (h.setPosition p).clearAccuracy
  | some (p, some radius) => exact (h.setPosition p).setAccuracy radius

lemma agrees_setIfSome {α : Type} {set : Location R → α → Location R}
    (hset : ∀ {l m : Location R}, l.Agrees m → ∀ v, (set l v).Agrees (set m v))
    (h : fused.Agrees fused') (value : Option α) :
    (setIfSome set value fused).Agrees (setIfSome set value fused') := by
  cases value with
  | none => exact h
  | some v => exact hset h v

variable [Arith R]

lemma samples_congr {get? : Location R → Option R} (hget : ∀ l m, l.Agrees m → get? l = get? m)
    (h : List.Forall₂ Agrees raw raw') : samples get? raw = samples get? raw' :=
  agreeing_filterMap h fun l m hlm => by rw [hget l m hlm, hlm.weighingRadius_eq]

lemma sightings_congr (h : List.Forall₂ Agrees raw raw') :
    raw.filterMap sighting? = raw'.filterMap sighting? :=
  agreeing_filterMap h fun l m hlm => by
    rw [sighting?, sighting?, hlm.position?_eq, hlm.weighingRadius_eq, hlm.accuracy?_eq]

theorem agrees_merge (h : List.Forall₂ Agrees raw raw') (hfused : fused.Agrees fused') :
    (merge raw fused).Agrees (merge raw' fused') := by
  have hused := (Winners.among raw').contributors_congr h
  simp only [merge, Winners.among_congr h, provenance?_congr _ h, sightings_congr (hused .position),
    samples_congr (fun _ _ => Agrees.speed?_eq) (hused .speed),
    samples_congr (fun _ _ => Agrees.bearing?_eq) (hused .bearing),
    samples_congr (fun _ _ => Agrees.altitude?_eq) (hused .altitude)]
  exact agrees_setIfSome Agrees.setBearing
    (agrees_setIfSome Agrees.setAltitude
      (agrees_setIfSome Agrees.setSpeed (agrees_place (agrees_inherit hfused _) _) _) _) _

end Fusion

section

variable [Arith R] {before before' after after' : Location R}

lemma Aspect.differs_congr (h : before.Agrees before') (h' : after.Agrees after')
    (epsilon : Option R) (a : Aspect) :
    a.differs epsilon before after = a.differs epsilon before' after' := by
  cases a <;> simp only [differs, h.validity_eq, h'.validity_eq, h.fixType_eq, h'.fixType_eq,
    h.fixTime_eq, h'.fixTime_eq, h.satellites?_eq, h'.satellites?_eq, h.position?_eq,
    h'.position?_eq, h.speed?_eq, h'.speed?_eq, h.bearing?_eq, h'.bearing?_eq, h.altitude?_eq,
    h'.altitude?_eq, h.accuracy?_eq, h'.accuracy?_eq]

lemma Changes.between_congr (h : before.Agrees before') (h' : after.Agrees after')
    (epsilon : Option R) : between epsilon before after = between epsilon before' after' := by
  simp only [between, Aspect.differs_congr h h', h'.validity_eq]

end

/-- Two calls with the same error, or with results that are related. -/
inductive SameResult {ε α : Type} (related : α → α → Prop) : Except ε α → Except ε α → Prop
  | error (e : ε) : SameResult related (.error e) (.error e)
  | ok {a b : α} : related a b → SameResult related (.ok a) (.ok b)

lemma agreeing_set {ls ms : List (Location R)} (h : List.Forall₂ Agrees ls ms)
    {l m : Location R} (hlm : l.Agrees m) (i : Nat) :
    List.Forall₂ Agrees (ls.set i l) (ms.set i m) := by
  induction h generalizing i with
  | nil => exact .nil
  | cons hhead htail ih =>
    cases i with
    | zero => exact .cons hlm htail
    | succ i => exact .cons hhead (ih i)

lemma agreeing_preferences {ls ms : List (Location R)} (h : List.Forall₂ Agrees ls ms) :
    ls.map Location.preference = ms.map Location.preference := by
  induction h with
  | nil => rfl
  | cons hlm _ ih => rw [List.map_cons, List.map_cons, hlm.preference_eq, ih]

section

variable [Arith R] {l m : Location R}

lemma Store.update_eq (s : Store R) (slot : Nat) (l : Location R) :
    s.update slot l =
      match s.get? slot, l.sanitize.2 with
      | none, _ => .error (.unknownSlot slot)
      | some _, some e => .error e
      | some current, none =>
        .ok ⟨s.slots.set slot { l.sanitize.1 with preference := current.preference }⟩ := by
  simp only [update, edit]
  cases s.get? slot with
  | none => rfl
  | some current =>
    obtain ⟨l', fault⟩ := l.sanitize
    cases fault <;> rfl

theorem Store.update_congr {s s' : Store R} (hs : List.Forall₂ Agrees s.slots s'.slots)
    (h : l.Agrees m) (slot : Nat) :
    SameResult (fun t t' => List.Forall₂ Agrees t.slots t'.slots) (s.update slot l)
      (s'.update slot m) := by
  have hpreference : (s.get? slot).map Location.preference =
      (s'.get? slot).map Location.preference := by
    rw [get?, get?, ← List.getElem?_map, ← List.getElem?_map, agreeing_preferences hs]
  obtain ⟨hagrees, hfault⟩ := h.sanitize
  rw [update_eq, update_eq, hfault]
  cases hcurrent : s.get? slot with
  | none =>
    rw [hcurrent, Option.map_none, eq_comm, Option.map_eq_none_iff] at hpreference
    rw [hpreference]
    exact .error _
  | some current =>
    rw [hcurrent, Option.map_some, eq_comm, Option.map_eq_some_iff] at hpreference
    obtain ⟨current', hcurrent', hp⟩ := hpreference
    rw [hcurrent']
    cases m.sanitize.2 with
    | some e => exact .error e
    | none =>
      refine .ok (agreeing_set hs ?_ slot)
      rw [hp]
      exact hagrees.setPreference _

end

namespace Reckoning

variable {l m : Location R}

lemma agrees_stamp (h : l.Agrees m) (s : Settings R) (now : Timestamp) :
    (stamp s now l).Agrees (stamp s now m) :=
  ((h.setAccuracy s.accuracy).setFixTime now).setValidity .valid

variable [Arith R]

lemma agrees_arrive (h : l.Agrees m) (s : Settings R) (now : Timestamp) (stop : Stop R) :
    (arrive s now l stop).1 = (arrive s now m stop).1 ∧
      (arrive s now l stop).2.Agrees (arrive s now m stop).2 := by
  cases stop with
  | onLeg item speed start goal fraction =>
    exact ⟨rfl, agrees_stamp (((h.setPosition _).setSpeed speed).setBearing _) s now⟩
  | atEnd point =>
    exact ⟨rfl, agrees_stamp (((h.setPosition point).setSpeed 0.0).clearBearing) s now⟩

theorem advance_congr (h : l.Agrees m) (s : Settings R) (route : Option (Route R))
    (table : Option (SpeedTable R)) (now : Timestamp) :
    SameResult (fun a b => a.1 = b.1 ∧ a.2.Agrees b.2) (advance s route table now l)
      (advance s route table now m) := by
  unfold advance advanceBy
  rw [h.fixTime_eq, h.position?_eq]
  split_ifs with hnever
  · exact .error _
  match route with
  | none => exact .error _
  | some r =>
    dsimp only
    cases snap? r m.position? with
    | none => exact .error _
    | some c =>
      dsimp only
      split_ifs
      · exact .ok (agrees_arrive h s now _)
      · exact .ok ⟨rfl, h⟩

end Reckoning

/-- Values behind absent attributes are never read. Locations that agree lead to the same changes,
announcements, faults, errors and outcomes, and again to locations that agree. -/
theorem hidden_values_stay_hidden [Arith R] {raw raw' : List (Location R)}
    {fused fused' l m : Location R}
    {store store' : Store R} (hraw : List.Forall₂ Agrees raw raw') (hfused : fused.Agrees fused')
    (hstore : List.Forall₂ Agrees store.slots store'.slots) (h : l.Agrees m) :
    (∀ s : Fusion.Settings R,
      let first := Fusion.pass s raw fused
      let second := Fusion.pass s raw' fused'
      first.2 = second.2 ∧ s.announced first.2 = s.announced second.2 ∧
        first.1.Agrees second.1) ∧
      (l.sanitize.1.Agrees m.sanitize.1 ∧ l.sanitize.2 = m.sanitize.2) ∧
      (∀ slot, SameResult (fun t t' : Store R => List.Forall₂ Agrees t.slots t'.slots)
        (store.update slot l) (store'.update slot m)) ∧
      ∀ s route table now, SameResult (fun a b => a.1 = b.1 ∧ a.2.Agrees b.2)
        (Reckoning.advance s route table now l) (Reckoning.advance s route table now m) := by
  refine ⟨fun s => ?_, h.sanitize, Store.update_congr hstore h, Reckoning.advance_congr h⟩
  have hmerge := Fusion.agrees_merge hraw hfused
  have hchanges : (Fusion.pass s raw fused).2 = (Fusion.pass s raw' fused').2 :=
    Changes.between_congr hfused hmerge _
  exact ⟨hchanges, congrArg _ hchanges, hmerge⟩

/-- A fix whose speed was dropped, over a zero and over a NaN. -/
theorem hidden_values_stay_hidden_nan :
    let dropped (speed : Float) : Location Float :=
      { ((Location.blank .low).setPosition ⟨48.0, 11.0⟩).setSpeed speed |>.clear .speed with
        validity := .valid, fixTime := 1000 }
    let zero := dropped 0.0
    let nan := dropped Binary64.nan
    zero ≠ nan ∧ zero.Agrees nan ∧
      (Fusion.pass {} [zero] zero).1.Agrees (Fusion.pass {} [nan] nan).1 ∧
      zero.sanitize.2 = nan.sanitize.2 := by
  intro dropped zero nan
  have hagrees : zero.Agrees nan := ⟨by decide, rfl⟩
  have hlist : List.Forall₂ Agrees [zero] [nan] := .cons hagrees .nil
  have hstore : List.Forall₂ Agrees (⟨[zero]⟩ : Store Float).slots (⟨[nan]⟩ : Store Float).slots :=
    hlist
  obtain ⟨hpass, hsanitize, -, -⟩ := hidden_values_stay_hidden hlist hagrees hstore hagrees
  exact ⟨by decide, hagrees, (hpass {}).2.2, hsanitize.2⟩

end Whereabouts
