import Whereabouts.Proofs.Provider.Steady
import Whereabouts.Proofs.Vehicle.Run
import Mathlib.Data.List.Nodup

/-! The slots of a vehicle: each belongs to one source, and the slot of a provider holds what the
provider holds. -/
namespace Whereabouts.Vehicle

open Arith
open Provider (Steady)

variable {R : Type} [Arith R]

/-- The vehicle after calls. -/
def run (v : Vehicle R) (cs : List (Call R)) : Vehicle R := cs.foldl (fun v c => (v.call c).2) v

/-- What a slot holds after its source told something. -/
def settled (told : Option (Location R)) (held : Location R) : Location R :=
  match told with
  | none => held
  | some l =>
    match l.sanitize with
    | (_, some _) => held
    | (l, none) => { l with preference := held.preference }

/-- A delivery is to one slot. -/
theorem deliver_eq_modify (store : Store R) (i : Nat) (told : Option (Location R)) :
    deliver store i told = ⟨store.slots.modify i (settled told)⟩ := by
  cases told with
  | none => exact congrArg Store.mk (List.modify_id i store.slots).symm
  | some l =>
    rw [List.modify_eq_set_getElem?]
    cases hheld : store.slots[i]? with
    | none => simp only [deliver, Store.update, Store.edit, Store.get?, hheld]; rfl
    | some held =>
      rcases hl : l.sanitize with ⟨l', _ | e⟩
      · simp only [deliver, Store.update, Store.edit, Store.get?, hheld, hl, settled]
        rfl
      · obtain ⟨hlt, rfl⟩ := List.getElem?_eq_some_iff.mp hheld
        simp only [deliver, Store.update, Store.edit, Store.get?, hheld, hl, settled]
        exact congrArg Store.mk (List.set_getElem_self hlt).symm

lemma get?_deliver_self (store : Store R) (i : Nat) (told : Option (Location R)) :
    (deliver store i told).get? i = (store.get? i).map (settled told) := by
  simp [deliver_eq_modify, Store.get?]

lemma get?_deliver_of_ne (store : Store R) {i j : Nat} (h : j ≠ i) (told : Option (Location R)) :
    (deliver store j told).get? i = store.get? i := by
  simp [deliver_eq_modify, Store.get?, h]

lemma size_deliver (store : Store R) (i : Nat) (told : Option (Location R)) :
    (deliver store i told).size = store.size := by
  simp [deliver_eq_modify, Store.size]

/-- Deliveries one after the other. -/
def deliverAll (store : Store R) (ds : List (Nat × Option (Location R))) : Store R :=
  ds.foldl (fun store d => deliver store d.1 d.2) store

lemma size_deliverAll (store : Store R) (ds : List (Nat × Option (Location R))) :
    (deliverAll store ds).size = store.size := by
  induction ds generalizing store with
  | nil => rfl
  | cons d ds ih => exact (ih _).trans (size_deliver store d.1 d.2)

lemma get?_deliverAll_of_notMem (store : Store R) {ds : List (Nat × Option (Location R))} {i : Nat}
    (h : i ∉ ds.map (·.1)) : (deliverAll store ds).get? i = store.get? i := by
  induction ds generalizing store with
  | nil => rfl
  | cons d ds ih =>
    rw [List.map_cons, List.mem_cons, not_or] at h
    exact (ih _ h.2).trans (get?_deliver_of_ne store (Ne.symm h.1) d.2)

/-- When no two deliveries are to the same slot, each slot gets its own. -/
theorem get?_deliverAll (store : Store R) {ds : List (Nat × Option (Location R))}
    (hds : (ds.map (·.1)).Nodup) {i : Nat} {told : Option (Location R)} (h : (i, told) ∈ ds) :
    (deliverAll store ds).get? i = (store.get? i).map (settled told) := by
  induction ds generalizing store with
  | nil => cases h
  | cons d ds ih =>
    rw [List.map_cons, List.nodup_cons] at hds
    rcases List.mem_cons.mp h with rfl | h
    · exact (get?_deliverAll_of_notMem _ hds.1).trans (get?_deliver_self store i told)
    · have hne : d.1 ≠ i := fun hd => hds.1 (hd ▸ List.mem_map_of_mem h)
      exact (ih _ hds.2 h).trans
        (congrArg (Option.map (settled told)) (get?_deliver_of_ne store hne d.2))

/-- What a provider tells is stored as it is. -/
lemma settled_of_steady {kind : ProviderKind} {l held : Location R} (hl : Steady kind l)
    (hheld : Steady kind held) : settled (some l) held = l := by
  have hstored : l.sanitize = (l, none) := hl.storable
  simp only [settled, hstored, hheld.preference_eq, ← hl.preference_eq]

lemma update_of_steady {kind : ProviderKind} {l held : Location R} (hl : Steady kind l)
    (hheld : Steady kind held) {store : Store R} {i : Nat} (hi : store.get? i = some held) :
    ∃ store', store.update i l = .ok store' ∧ store'.get? i = some l := by
  have hstored : l.sanitize = (l, none) := hl.storable
  have hlt : i < store.slots.length := (List.getElem?_eq_some_iff.mp hi).1
  refine ⟨⟨store.slots.set i l⟩, ?_, List.getElem?_set_self hlt⟩
  simp only [Store.update, Store.edit, hi, hstored, hheld.preference_eq, ← hl.preference_eq]

/-- Source and slot have the same number, and the slot of each provider holds what the provider
holds, which can be stored as it is. -/
structure Reflects (v : Vehicle R) : Prop where
  slots_eq : v.sources.map (·.1) = List.range v.store.size
  size_le : v.store.size ≤ Store.capacity
  get?_eq : ∀ {i p}, (i, Source.provider p) ∈ v.sources → v.store.get? i = some p.current
  steady : ∀ {i p}, (i, Source.provider p) ∈ v.sources → Steady p.kind p.current

namespace Reflects

variable {v w : Vehicle R}

/-- Only the slots, the kinds and the locations of the providers matter. -/
lemma of_eq (h : v.Reflects) (hstore : w.store = v.store)
    (hslots : w.sources.map (·.1) = v.sources.map (·.1))
    (hproviders : ∀ {i p}, (i, Source.provider p) ∈ w.sources →
      ∃ q, (i, Source.provider q) ∈ v.sources ∧ p.kind = q.kind ∧ p.current = q.current) :
    w.Reflects := by
  refine ⟨?_, hstore ▸ h.size_le, ?_, ?_⟩
  · rw [hslots, h.slots_eq, hstore]
  · intro i p hp
    obtain ⟨q, hq, -, hcurrent⟩ := hproviders hp
    rw [hstore, h.get?_eq hq, hcurrent]
  · intro i p hp
    obtain ⟨q, hq, hkind, hcurrent⟩ := hproviders hp
    rw [hkind, hcurrent]
    exact h.steady hq

lemma get?_lt (h : v.Reflects) {i : Nat} {s : Source R} (hs : (i, s) ∈ v.sources) :
    i < v.store.size := by
  have hmem : i ∈ v.sources.map (·.1) := List.mem_map_of_mem hs
  rw [h.slots_eq] at hmem
  exact List.mem_range.mp hmem

lemma nodup (h : v.Reflects) : (v.sources.map (·.1)).Nodup := by
  rw [h.slots_eq]
  exact List.nodup_range

/-- A source that is added gets the next number; a provider that is added is new. -/
lemma addSource (h : v.Reflects) {s : Source R}
    (hs : ∀ p, s = .provider p → p.current = Location.blank p.kind.preference) :
    Reflects (((v.addSource s).map (·.2)).toOption.getD v) := by
  unfold Vehicle.addSource Store.register
  split_ifs with hroom
  · have hsize : Store.size ⟨v.store.slots ++ [Location.blank s.preference]⟩ =
        v.store.size + 1 := by
      simp [Store.size]
    refine ⟨?_, hsize ▸ hroom, ?_, ?_⟩
    · change (v.sources ++ [(v.store.size, s)]).map (·.1) =
        List.range (Store.size ⟨v.store.slots ++ [Location.blank s.preference]⟩)
      rw [hsize, List.range_succ, List.map_append, h.slots_eq]
      rfl
    · intro i p hp
      change (v.store.slots ++ [Location.blank s.preference])[i]? = some p.current
      rcases List.mem_append.mp hp with hp | hp
      · rw [List.getElem?_append_left (h.get?_lt hp)]
        exact h.get?_eq hp
      · obtain ⟨rfl, rfl⟩ := Prod.mk.inj (List.mem_singleton.mp hp)
        rw [hs p rfl]
        exact List.getElem?_concat_length
    · intro i p hp
      rcases List.mem_append.mp hp with hp | hp
      · exact h.steady hp
      · obtain ⟨-, rfl⟩ := Prod.mk.inj (List.mem_singleton.mp hp)
        rw [hs p rfl]
        exact Provider.steady_blank p.kind
  · exact h

/-- Messages and handles do not change what a provider holds. -/
lemma set (h : v.Reflects) {slot id : Nat} {p q : Provider R}
    (hp : v.sources[slot]? = some (id, .provider p)) (hkind : q.kind = p.kind)
    (hcurrent : q.current = p.current) :
    Reflects { v with sources := v.sources.set slot (id, .provider q) } := by
  obtain ⟨hslot, hp⟩ := List.getElem?_eq_some_iff.mp hp
  refine h.of_eq rfl ?_ ?_
  · have hlt : slot < (v.sources.map (·.1)).length := by simpa using hslot
    have hid : (v.sources.map (·.1))[slot] = id := by simp [hp]
    change (v.sources.set slot (id, .provider q)).map (·.1) = _
    rw [List.map_set, ← hid, List.set_getElem_self]
  · intro i r hr
    rcases List.mem_or_eq_of_mem_set hr with hr | hr
    · exact ⟨r, hr, rfl, rfl⟩
    · cases hr
      exact ⟨p, hp ▸ List.getElem_mem hslot, hkind, hcurrent⟩

lemma withProvider (h : v.Reflects) (slot : Nat) {f : Provider R → Provider R}
    (hf : ∀ p, (f p).kind = p.kind ∧ (f p).current = p.current) :
    (v.withProvider slot f).Reflects := by
  unfold Vehicle.withProvider
  split
  · next p hp => exact h.set hp (hf p).1 (hf p).2
  · exact h

lemma send (h : v.Reflects) (slot : Nat) (m : ProviderMessage R) :
    Reflects (((v.send? slot m).bind Except.toOption).getD v) := by
  unfold send?
  split
  · next p hp =>
    unfold Provider.send
    cases p.channel.send m with
    | error e => exact h
    | ok c => exact h.set hp rfl rfl
  · exact h

lemma setPosition (h : v.Reflects) (p : Geo.Point R) (now : Timestamp) :
    (v.setPosition p now).2.Reflects := by
  refine h.of_eq rfl ?_ ?_
  · simp [Vehicle.setPosition, Function.comp_def]
  · intro i q hq
    simp only [Vehicle.setPosition, List.map_map, List.mem_map] at hq
    obtain ⟨⟨j, s⟩, hs, heq⟩ := hq
    cases s with
    | provider r => cases heq; exact ⟨q, hs, rfl, rfl⟩
    | simulator r => cases heq
    | replay r => cases heq

end Reflects

/-- What the sources tell at a time. -/
def told (v : Vehicle R) (now : Timestamp) : List (Nat × Option (Location R)) :=
  v.sources.map fun x => (x.1, (x.2.poll (v.context now)).1)

lemma store_pollAll (v : Vehicle R) (now : Timestamp) :
    (v.pollAll now).store = deliverAll v.store (v.told now) := by
  simp only [pollAll, deliverAll, told, List.foldl_map]

lemma map_fst_told (v : Vehicle R) (now : Timestamp) :
    (v.told now).map (·.1) = v.sources.map (·.1) := by
  simp [told, Function.comp_def]

/-- A provider after an update is one from before, polled. -/
lemma mem_sources_pollAll_iff {v : Vehicle R} {now : Timestamp} {i : Nat} {q : Provider R} :
    (i, Source.provider q) ∈ (v.pollAll now).sources ↔
      ∃ p, (i, Source.provider p) ∈ v.sources ∧ (p.poll now).2 = q := by
  simp only [pollAll, List.map_map, List.mem_map]
  constructor
  · rintro ⟨⟨j, s⟩, hs, heq⟩
    cases s with
    | provider p => cases heq; exact ⟨p, hs, rfl⟩
    | simulator s => cases heq
    | replay s => cases heq
  · rintro ⟨p, hp, rfl⟩
    exact ⟨_, hp, rfl⟩

lemma mem_told {v : Vehicle R} (now : Timestamp) {i : Nat} {p : Provider R}
    (h : (i, Source.provider p) ∈ v.sources) : (i, (p.poll now).1) ∈ v.told now :=
  List.mem_map_of_mem (f := fun x => (x.1, (x.2.poll (v.context now)).1)) h

namespace Reflects

variable (hmin : isNonneg (Location.minRadius : R) = true)
  (hraise : ¬ (Location.minRadius : R) < Location.minRadius)

include hmin hraise

/-- An update writes what a provider tells into its slot, and no other source writes there. -/
lemma pollAll {v : Vehicle R} (h : v.Reflects) (now : Timestamp) : (v.pollAll now).Reflects := by
  have hsize : (v.pollAll now).store.size = v.store.size := by
    rw [store_pollAll, size_deliverAll]
  refine ⟨?_, hsize ▸ h.size_le, ?_, ?_⟩
  · rw [hsize, ← h.slots_eq]
    simp [Vehicle.pollAll, Function.comp_def]
  · intro i q hq
    obtain ⟨p, hp, rfl⟩ := mem_sources_pollAll_iff.mp hq
    have hnodup : ((v.told now).map (·.1)).Nodup := map_fst_told v now ▸ h.nodup
    rw [store_pollAll, get?_deliverAll v.store hnodup (mem_told now hp), h.get?_eq hp,
      Option.map_some]
    -- What is told is stored unchanged; when nothing is told, the provider holds what it held.
    rcases p.poll_cases now with htold | ⟨htold, hsame⟩
    · have hsteady : Steady p.kind (p.poll now).2.current := (h.steady hp).poll hmin hraise now
      rw [htold, settled_of_steady hsteady (h.steady hp)]
    · rw [htold, hsame, settled]
  · intro i q hq
    obtain ⟨p, hp, rfl⟩ := mem_sources_pollAll_iff.mp hq
    rw [p.kind_poll now]
    exact (h.steady hp).poll hmin hraise now

lemma call {v : Vehicle R} (h : v.Reflects) {c : Call R}
    (hc : ∀ p, c ≠ .addSource (.provider p)) : (v.call c).2.Reflects := by
  cases c with
  | addSource s => exact h.addSource fun p hp => absurd (congrArg Call.addSource hp) (hc p)
  | addProvider name kind =>
    refine h.addSource fun p hp => ?_
    obtain rfl := Source.provider.inj hp
    rfl
  | send slot m => exact h.send slot m
  | cloneHandle slot => exact h.withProvider slot fun p => ⟨rfl, rfl⟩
  | dropHandle slot => exact h.withProvider slot fun p => ⟨rfl, rfl⟩
  | subscribe => exact h.of_eq rfl rfl fun hp => ⟨_, hp, rfl, rfl⟩
  | setRoute | setProfile => exact h.of_eq rfl rfl fun hp => ⟨_, hp, rfl, rfl⟩
  | setPosition p now => exact h.setPosition p now
  | update now => exact (h.pollAll hmin hraise now).of_eq rfl rfl fun hp => ⟨_, hp, rfl, rfl⟩
  | updateWith c => exact (h.pollAll hmin hraise c.now).of_eq rfl rfl fun hp => ⟨_, hp, rfl, rfl⟩

lemma run {v : Vehicle R} (h : v.Reflects) {cs : List (Call R)}
    (hcs : ∀ p, Call.addSource (.provider p) ∉ cs) : (v.run cs).Reflects := by
  induction cs generalizing v with
  | nil => exact h
  | cons c cs ih =>
    refine ih (h.call hmin hraise fun p hp => hcs p (hp ▸ List.mem_cons_self)) fun p hp => ?_
    exact hcs p (List.mem_cons_of_mem c hp)

end Reflects

/-- A vehicle as it starts, before a simulated source is added. -/
def bare (c : VehicleConfig R) : Vehicle R where
  config := c
  store := .empty
  sources := []
  fused := Location.blank .low
  fixTimeText := none
  listeners := 0
  route := none
  profile := c.profile

lemma reflects_bare (c : VehicleConfig R) : (bare c).Reflects :=
  ⟨rfl, Nat.zero_le _, nofun, nofun⟩

/-- The only source of a new vehicle is the simulated one. -/
lemma eq_bare_of_new {c : VehicleConfig R} {v : Vehicle R} (hv : Vehicle.new c = .ok v) :
    v = bare c ∨ ∃ s, ((bare c).addSource (.simulator s)).map (·.2) = .ok v := by
  unfold Vehicle.new at hv
  cases hvalid : c.validate with
  | error e => rw [hvalid] at hv; cases hv
  | ok _ =>
    rw [hvalid] at hv
    cases hdemo : c.demo with
    | none =>
      simp only [hdemo] at hv
      exact .inl (Except.ok.inj hv).symm
    | some d =>
      cases hs : Simulator.new (c.name ++ "/demo") d with
      | error e => simp only [hdemo, hs] at hv; cases hv
      | ok s => simp only [hdemo, hs] at hv; exact .inr ⟨s, hv⟩

lemma reflects_new {c : VehicleConfig R} {v : Vehicle R} (hv : Vehicle.new c = .ok v) :
    v.Reflects := by
  rcases eq_bare_of_new hv with rfl | ⟨s, hs⟩
  · exact reflects_bare c
  · have hadded := (reflects_bare c).addSource (s := .simulator s) nofun
    rw [hs] at hadded
    exact hadded

/-- Only a full store refuses a source. -/
lemma addSource_eq_error_iff (v : Vehicle R) (s : Source R) (e : VehicleFault R) :
    v.addSource s = .error e ↔
      Store.capacity ≤ v.store.size ∧ e = .location (.storeFull Store.capacity) := by
  unfold Vehicle.addSource Store.register
  by_cases hroom : v.store.size < Store.capacity
  · simp [hroom, Nat.not_le.mpr hroom]
  · simp [hroom, Nat.le_of_not_lt hroom, eq_comm]

lemma eq_append_of_addSource {v u : Vehicle R} {s : Source R} {slot : Nat}
    (h : v.addSource s = .ok (slot, u)) :
    slot = v.store.size ∧ u.sources = v.sources ++ [(slot, s)] ∧
      u.store.slots = v.store.slots ++ [Location.blank s.preference] := by
  unfold Vehicle.addSource Store.register at h
  split_ifs at h
  obtain ⟨rfl, rfl⟩ := Prod.mk.inj (Except.ok.inj h)
  exact ⟨rfl, rfl, rfl⟩

/-- After any calls on a new vehicle, where no provider but new ones was added: source and slot have
the same number, and there are at most sixteen. A provider is refused exactly when there are
sixteen, for want of a slot, and then nothing changes; otherwise it comes behind the others, with a
blank slot behind theirs. The slot of each provider holds what the provider holds, before an update
and after it; no delivery to another slot changes it, and it takes whatever the provider tells. -/
theorem slots_hold_providers {c : VehicleConfig Float} {v : Vehicle Float}
    (hv : Vehicle.new c = .ok v) {cs : List (Call Float)}
    (hcs : ∀ p, Call.addSource (.provider p) ∉ cs) :
    let w := v.run cs
    w.sources.map (·.1) = List.range w.store.size ∧ w.store.size ≤ 16 ∧
    (∀ name kind e, w.addProvider name kind = .error e ↔
      w.store.size = 16 ∧ e = .location (.storeFull 16)) ∧
    (∀ name kind e, w.addProvider name kind = .error e →
      (w.call (.addProvider name kind)).2 = w) ∧
    (∀ name kind slot u, w.addProvider name kind = .ok (slot, u) →
      slot = w.store.size ∧
      u.sources =
        w.sources ++ [(slot, .provider (Provider.new name kind w.config.channelCapacity))] ∧
      u.store.slots = w.store.slots ++ [Location.blank kind.preference]) ∧
    ∀ (i : Nat) (p : Provider Float), (i, Source.provider p) ∈ w.sources →
      w.store.get? i = some p.current ∧
      (∀ now, (i, Source.provider (p.poll now).2) ∈ (w.update now).2.2.sources ∧
        (w.update now).2.2.store.get? i = some (p.poll now).2.current) ∧
      (∀ j ≠ i, ∀ (store : Store Float) told, (deliver store j told).get? i = store.get? i) ∧
      ∀ now l, (p.poll now).1 = some l → ∀ store : Store Float,
        store.get? i = w.store.get? i →
          ∃ store', store.update i l = .ok store' ∧ store'.get? i = some l := by
  intro w
  have hmin : isNonneg (Location.minRadius : Float) = true := by decide
  have hraise : ¬ (Location.minRadius : Float) < Location.minRadius := by decide
  have hw : w.Reflects := (reflects_new hv).run hmin hraise hcs
  have hfull : Store.capacity ≤ w.store.size ↔ w.store.size = 16 :=
    ⟨fun h => Nat.le_antisymm hw.size_le h, fun h => Nat.le_of_eq h.symm⟩
  refine ⟨hw.slots_eq, hw.size_le, ?_, ?_, fun _ _ _ _ => eq_append_of_addSource, ?_⟩
  · intro name kind e
    exact (addSource_eq_error_iff w _ e).trans (and_congr_left fun _ => hfull)
  · intro name kind e he
    simp only [Vehicle.call, he]
    rfl
  · intro i p hp
    refine ⟨hw.get?_eq hp, ?_, ?_, ?_⟩
    · intro now
      have hpolled : (i, Source.provider (p.poll now).2) ∈ (w.pollAll now).sources :=
        mem_sources_pollAll_iff.mpr ⟨p, hp, rfl⟩
      exact ⟨hpolled, (hw.pollAll hmin hraise now).get?_eq hpolled⟩
    · intro j hj store told
      exact get?_deliver_of_ne store hj told
    · intro now l hl store hstore
      have hsteady : Steady p.kind (p.poll now).2.current := (hw.steady hp).poll hmin hraise now
      rcases p.poll_cases now with htold | ⟨htold, -⟩
      · obtain rfl := Option.some.inj (hl.symm.trans htold)
        exact update_of_steady hsteady (hw.steady hp) (hstore.trans (hw.get?_eq hp))
      · rw [htold] at hl
        cases hl

/-- Two providers, of which the first is polled before the second is added. -/
theorem slots_hold_providers_two :
    let v : Vehicle Float := bare VehicleConfig.default
    let w := v.run [.addProvider "gnss" .gps,
      .send 0 (.fix { position := ⟨48.0, 11.0⟩, accuracy := some 0.5 }), .update 1000,
      .addProvider "cells" .network, .send 0 .lost, .send 1 (.satellites 9 5), .update 2000]
    Vehicle.new VehicleConfig.default = .ok v ∧ w.store.slots.map (·.accuracy?) = [some 1.0, none] ∧
      w.store.slots.map (·.satellites?) = [none, some (9, 5)] ∧
      ∀ (i : Nat) (p : Provider Float), (i, Source.provider p) ∈ w.sources →
        w.store.get? i = some p.current := by
  intro v w
  have hv : Vehicle.new VehicleConfig.default = .ok v := by
    have hvalid : (VehicleConfig.default : VehicleConfig Float).validate = .ok () := by decide
    simp only [Vehicle.new, hvalid]
    rfl
  refine ⟨hv, by decide +kernel, by decide +kernel, fun i p hp => ?_⟩
  exact ((slots_hold_providers hv (by simp)).2.2.2.2.2 i p hp).1

end Whereabouts.Vehicle
