import Whereabouts.Proofs.Binary64.Elementary
import Whereabouts.Proofs.Binary64.Order
import Whereabouts.Proofs.Reckoning.Stretches

/-! A walk starts at the closest stretch of the route, and at the first one of equally close
ones. -/
namespace Whereabouts

/-- The points `a` and `b` follow each other at place `k` of the walkable item at place `i`. -/
def Route.IsSegment {R : Type} (r : Route R) (i k : Nat) (a b : Geo.Point R) : Prop :=
  ∃ road, r.items[i]? = some road ∧ road.isWalkable = true ∧
    road.points[k]? = some a ∧ road.points[k + 1]? = some b

namespace Reckoning

section

variable {R : Type} [Arith R] {α : Type}

lemma closest?_concat (key : α → R) (as : List α) (b : α) :
    closest? key (as ++ [b]) =
      some (match closest? key as with
        | none => b
        | some best => if key b < key best then b else best) := by
  cases as with
  | nil => rfl
  | cons a as => rw [List.cons_append, closest?, List.foldl_append]; rfl

/-- Where keys are in a linear order, the element before which all have a greater key and behind
which none has a smaller one. -/
lemma closest?_spec {γ : Type} [LinearOrder γ] (place : R → γ) {key : α → R} {as : List α}
    (horder : ∀ a ∈ as, ∀ b ∈ as, key a < key b ↔ place (key a) < place (key b)) {best : α}
    (h : closest? key as = some best) :
    ∃ front back, as = front ++ best :: back ∧ (∀ a ∈ front, place (key best) < place (key a)) ∧
      ∀ b ∈ back, place (key best) ≤ place (key b) := by
  induction as using List.reverseRecOn generalizing best with
  | nil => cases h
  | append_singleton as b ih =>
    have hlast : b ∈ as ++ [b] := List.mem_append_right as List.mem_cons_self
    have hinit {a : α} (ha : a ∈ as) : a ∈ as ++ [b] := List.mem_append_left [b] ha
    rw [closest?_concat, Option.some.injEq] at h
    cases hold : closest? key as with
    | none =>
      rw [hold] at h
      rw [closest?_eq_none] at hold
      subst hold h
      exact ⟨[], [], rfl, nofun, nofun⟩
    | some old =>
      obtain ⟨front, back, rfl, hfront, hback⟩ :=
        ih (fun a ha c hc => horder a (hinit ha) c (hinit hc)) hold
      have hmem : old ∈ front ++ old :: back := mem_of_closest? hold
      have hkeys := horder b hlast old (hinit hmem)
      rw [hold] at h
      change (if key b < key old then b else old) = best at h
      split_ifs at h with hless
      · -- The new element is the only least one.
        have hless := hkeys.mp hless
        subst h
        refine ⟨front ++ old :: back, [], rfl, fun a ha => ?_, nofun⟩
        rcases List.mem_append.mp ha with ha | ha
        · exact hless.trans (hfront a ha)
        · rcases List.mem_cons.mp ha with rfl | ha
          · exact hless
          · exact hless.trans_le (hback a ha)
      · have hmore : place (key old) ≤ place (key b) := not_lt.mp fun hlt => hless (hkeys.mpr hlt)
        subst h
        refine ⟨front, back ++ [b], by simp, hfront, fun a ha => ?_⟩
        rcases List.mem_append.mp ha with ha | ha
        · exact hback a ha
        · obtain rfl := List.mem_singleton.mp ha
          exact hmore

end

variable {R : Type}

lemma Stretch.Before.asymm {s t : Stretch R} (h : s.Before t) : ¬ t.Before s := by
  unfold Stretch.Before at *
  omega

/-- A stretch that comes before one of a list in travel order stands in front of it. -/
lemma mem_front_of_before {front back : List (Stretch R)} {s t : Stretch R}
    (hsorted : (front ++ s :: back).Pairwise Stretch.Before) (ht : t ∈ front ++ s :: back)
    (hbefore : t.Before s) : t ∈ front := by
  rcases List.mem_append.mp ht with ht | ht
  · exact ht
  · rcases List.mem_cons.mp ht with rfl | ht
    · exact absurd hbefore hbefore.asymm
    · have hafter := List.rel_of_pairwise_cons (List.pairwise_append.mp hsorted).2.1 ht
      exact absurd hbefore hafter.asymm

lemma isSegment_iff {r : Route R} {i k : Nat} {a b : Geo.Point R} :
    r.IsSegment i k a b ↔ (⟨i, k, a, b⟩ : Stretch R) ∈ stretches r :=
  (mem_stretches_iff (s := ⟨i, k, a, b⟩)).symm

lemma walkable_eq_nil {r : Route R} :
    r.walkable = [] ↔ ∀ road ∈ r.items, road.isWalkable = false := by
  rw [List.eq_nil_iff_forall_not_mem]
  constructor
  · intro h road hroad
    obtain ⟨i, hi⟩ := List.getElem?_of_mem hroad
    exact Bool.eq_false_iff.mpr fun hwalkable =>
      h (road, i) (Route.mem_walkable.mpr ⟨hi, hwalkable⟩)
  · rintro h ⟨road, i⟩ hi
    obtain ⟨hroad, hwalkable⟩ := Route.mem_walkable.mp hi
    exact Bool.eq_false_iff.mp (h road (List.mem_of_getElem? hroad)) hwalkable

/-- The first stretch leads from the first point of the first walkable item. -/
lemma head?_stretches {r : Route R} {s : Stretch R} (h : (stretches r).head? = some s) :
    r.IsSegment s.item 0 s.start s.stop ∧ s.segment = 0 ∧
      ∀ j < s.item, ∀ road, r.items[j]? = some road → road.isWalkable = false := by
  obtain ⟨rest, hrest⟩ := List.head?_eq_some_iff.mp h
  have hfirst {t : Stretch R} (ht : t ∈ stretches r) : ¬ t.Before s := fun hbefore => by
    have hsorted := pairwise_stretches r
    rw [hrest] at hsorted ht
    have hnone : t ∈ ([] : List (Stretch R)) := mem_front_of_before hsorted ht hbefore
    exact List.not_mem_nil hnone
  obtain ⟨road, hroad, hwalkable, hstart, hstop⟩ :=
    mem_stretches_iff.mp (List.mem_of_mem_head? h)
  have hlong {i : Route.Item R} (hi : i.isWalkable = true) : 2 ≤ i.points.length := by
    simpa using (Bool.and_eq_true_iff.mp hi).2
  have hsegment : s.segment = 0 := by
    by_contra hlater
    have hlt := hlong hwalkable
    refine hfirst (t := ⟨s.item, 0, road.points[0], road.points[1]⟩)
      (mem_stretches_iff.mpr ⟨road, hroad, hwalkable, ?_, ?_⟩)
      (.inr ⟨rfl, Nat.pos_of_ne_zero hlater⟩)
    · exact List.getElem?_eq_getElem _
    · exact List.getElem?_eq_getElem _
  rw [hsegment] at hstart hstop
  refine ⟨⟨road, hroad, hwalkable, hstart, hstop⟩, hsegment, fun j hj i hi => ?_⟩
  refine Bool.eq_false_iff.mpr fun hwalkable => ?_
  have hlt := hlong hwalkable
  exact hfirst (t := ⟨j, 0, i.points[0], i.points[1]⟩) (mem_stretches_iff.mpr ⟨i, hi, hwalkable,
    List.getElem?_eq_getElem _, List.getElem?_eq_getElem _⟩) (.inl hj)

open Binary64 (Elementary)

/-- A walk starts unless nothing of the route can be walked. From an unknown position it starts at
the first point of the first walkable item. From a known one it starts at the projection onto a
segment of a walkable item that is no farther than any other, and nearer than those before it. -/
theorem snap?_closest (m : Elementary) (r : Route Float) :
    let _ := m.arith
    (∀ position?, snap? r position? = none ↔ ∀ road ∈ r.items, road.isWalkable = false) ∧
    (∀ c, snap? r none = some c → c.segment = 0 ∧ (∃ b, r.IsSegment c.item 0 c.point b) ∧
      ∀ j < c.item, ∀ road, r.items[j]? = some road → road.isWalkable = false) ∧
    ∀ p, (∀ i k a b, r.IsSegment i k a b → (p.project a b).distance.isNaN = false) →
      ∀ c, snap? r (some p) = some c →
        ∃ a b, r.IsSegment c.item c.segment a b ∧ c.point = (p.project a b).point ∧
          ∀ i k a' b', r.IsSegment i k a' b' →
            (p.project a b).distance ≤ (p.project a' b').distance ∧
            (i < c.item ∨ i = c.item ∧ k < c.segment →
              (p.project a b).distance < (p.project a' b').distance) := by
  intro arith
  refine ⟨fun position? => snap?_eq_none.trans walkable_eq_nil, fun c hc => ?_,
    fun p hnan c hc => ?_⟩
  · obtain ⟨s, hs, rfl⟩ := Option.map_eq_some_iff.mp hc
    obtain ⟨hsegment, hzero, hfirst⟩ := head?_stretches hs
    exact ⟨hzero, ⟨s.stop, hsegment⟩, hfirst⟩
  · obtain ⟨s, hs, rfl⟩ := Option.map_eq_some_iff.mp hc
    set key : Stretch Float → Float := fun t => (p.project t.start t.stop).distance
    have hnumber {t : Stretch Float} (ht : t ∈ stretches r) : (key t).isNaN = false :=
      hnan _ _ _ _ (isSegment_iff.mpr ht)
    obtain ⟨front, back, hsplit, hfront, hback⟩ :=
      closest?_spec (fun x => Binary64.place x.toModel.unpack)
        (fun t ht u hu => Binary64.lt_iff_place (hnumber ht) (hnumber hu)) hs
    have hmem : s ∈ stretches r := mem_of_closest? hs
    refine ⟨s.start, s.stop, isSegment_iff.mpr hmem, rfl, fun i k a b ht => ?_⟩
    rw [isSegment_iff] at ht
    have hle := Binary64.le_iff_place (hnumber hmem) (hnumber ht)
    have hlt := Binary64.lt_iff_place (hnumber hmem) (hnumber ht)
    rw [hsplit] at ht
    refine ⟨hle.mpr ?_, fun hbefore => hlt.mpr (hfront _ ?_)⟩
    · rcases List.mem_append.mp ht with ht | ht
      · exact (hfront _ ht).le
      · rcases List.mem_cons.mp ht with rfl | ht
        · exact le_rfl
        · exact hback _ ht
    · have hsorted := pairwise_stretches r
      rw [hsplit] at hsorted
      exact mem_front_of_before hsorted ht hbefore

/-- At the point where two segments meet, the walk starts on the earlier one, past the segment
before it. On the equator the functions have these values. -/
theorem snap?_closest_shared_point :
    let m : Elementary := ⟨fun x => if 0.0 < x then 0.008726535498373935 else 0.0, fun _ => 1.0,
      fun y _ => if 0.0 < y then 0.008726646259971648 else 0.0⟩
    let _ := m.arith
    let r : Route Float := ⟨[⟨.other, none, none, []⟩,
      ⟨.street, none, none, [⟨0.0, 0.0⟩, ⟨0.0, 1.0⟩, ⟨0.0, 2.0⟩, ⟨0.0, 3.0⟩]⟩]⟩
    let p : Geo.Point Float := ⟨0.0, 2.0⟩
    ∃ c, snap? r (some p) = some c ∧ c.item = 1 ∧ c.segment = 1 ∧
      ∃ a b, r.IsSegment 1 1 a b ∧ c.point = (p.project a b).point ∧
        (p.project a b).distance < (p.project ⟨0.0, 0.0⟩ ⟨0.0, 1.0⟩).distance := by
  intro m _ r p
  have hnumbers : ∀ s ∈ stretches r, (p.project s.start s.stop).distance.isNaN = false := by
    decide +kernel
  have hstart : (snap? r (some p)).map (fun c => (c.item, c.segment)) = some (1, 1) := by
    decide +kernel
  obtain ⟨c, hc, hplace⟩ := Option.map_eq_some_iff.mp hstart
  obtain ⟨hitem, hsegment⟩ := Prod.mk.inj hplace
  obtain ⟨a, b, hab, hpoint, hclosest⟩ := (snap?_closest m r).2.2 p
    (fun i k a b h => hnumbers ⟨i, k, a, b⟩ (isSegment_iff.mp h)) c hc
  rw [hitem, hsegment] at hab
  have hfirst : r.IsSegment 1 0 ⟨0.0, 0.0⟩ ⟨0.0, 1.0⟩ := ⟨_, rfl, rfl, rfl, rfl⟩
  refine ⟨c, hc, hitem, hsegment, a, b, hab, hpoint, (hclosest _ _ _ _ hfirst).2 (.inr ?_)⟩
  omega

end Reckoning
end Whereabouts
