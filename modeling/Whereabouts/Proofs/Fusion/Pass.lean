import Whereabouts.Fusion.Pass
import Whereabouts.Proofs.Fusion.Winner

/-! The validity that a pass leads to. It is invalid exactly without contributors, and then nothing
else changes. -/
namespace Whereabouts.Fusion

variable {R : Type}

theorem Winners.contributors_eq_nil {w : Winners} {raw : List (Location R)}
    (h : raw.filter w.usesAny = []) (g : Group) : w.contributors g raw = [] := by
  rw [← Winners.filter_usesAny_filter_uses, h, List.filter_nil]

lemma max_ne_invalid {a b : Validity} (ha : a ≠ .invalid) (hb : b ≠ .invalid) :
    max a b ≠ .invalid := by
  change (if a ≤ b then b else a) ≠ .invalid
  split_ifs
  · exact hb
  · exact ha

theorem peaks?_eq_none {ls : List (Location R)} : peaks? ls = none ↔ ls = [] := by
  cases ls <;> simp [peaks?]

/-- The validity that a pass takes over is one of a contributor. -/
theorem validity_peaks? {ls : List (Location R)} {p : Provenance}
    (hls : ∀ l ∈ ls, l.validity ≠ .invalid) (hp : peaks? ls = some p) : p.validity ≠ .invalid := by
  cases ls with
  | nil => cases hp
  | cons l ls =>
    obtain rfl := Option.some.inj hp
    obtain ⟨hl, hls⟩ := List.forall_mem_cons.mp hls
    exact ls.foldlRecOn (motive := fun p : Provenance => p.validity ≠ .invalid) _ hl
      fun p hp m hm => max_ne_invalid hp (hls m hm)

/-- Without any contributor there is nothing to take over, and only then. -/
theorem provenance?_eq_none {raw : List (Location R)} :
    provenance? (Winners.among raw) raw = none ↔
      raw.filter (Winners.among raw).usesAny = [] := by
  unfold provenance?
  rw [Option.map_eq_none_iff, peaks?_eq_none]
  split_ifs with hties
  · rfl
  · have hne : (Winners.among raw).contributors .position raw ≠ [] := by
      intro h
      have := Winners.ties_eq_length raw .position
      rw [h] at this
      exact hties this
    exact ⟨fun h => absurd h hne, fun h => absurd (Winners.contributors_eq_nil h .position) hne⟩

theorem validity_provenance? {raw : List (Location R)} {p : Provenance}
    (h : provenance? (Winners.among raw) raw = some p) : p.validity ≠ .invalid := by
  obtain ⟨q, hq, rfl⟩ := Option.map_eq_some_iff.mp h
  show q.validity ≠ .invalid
  refine validity_peaks? (fun l hl => ?_) hq
  split_ifs at hl
  · obtain ⟨g, -, hg⟩ := List.any_eq_true.mp (List.mem_filter.mp hl).2
    exact Winners.validity_of_uses hg
  · exact Winners.validity_of_uses (List.mem_filter.mp hl).2

theorem validity_place (e : Option (Geo.Point R × Option R)) (l : Location R) :
    (place e l).validity = l.validity := by
  match e with
  | none | some (_, none) | some (_, some _) => rfl

theorem validity_setIfSome {α : Type} (set : Location R → α → Location R)
    (h : ∀ l v, (set l v).validity = l.validity) (value : Option α) (l : Location R) :
    (setIfSome set value l).validity = l.validity := by
  cases value with
  | none => rfl
  | some v => exact h l v

variable [Arith R]

theorem validity_merge (raw : List (Location R)) (fused : Location R) :
    (merge raw fused).validity =
      ((provenance? (Winners.among raw) raw).map Provenance.validity).getD .invalid := by
  unfold merge
  rw [validity_setIfSome Location.setBearing fun _ _ => rfl,
    validity_setIfSome Location.setAltitude fun _ _ => rfl,
    validity_setIfSome Location.setSpeed fun _ _ => rfl, validity_place]
  match provenance? (Winners.among raw) raw with
  | none | some ⟨_, _, _, _, none⟩ | some ⟨_, _, _, _, some _⟩ => rfl

/-- A pass that leads to an invalid location changes nothing else. -/
theorem merge_eq_of_invalid {raw : List (Location R)} {fused : Location R}
    (h : (merge raw fused).validity = .invalid) :
    merge raw fused = { fused with validity := .invalid } := by
  cases hp : provenance? (Winners.among raw) raw with
  | some p =>
    rw [validity_merge, hp] at h
    exact absurd h (validity_provenance? hp)
  | none =>
    have hnil := Winners.contributors_eq_nil (provenance?_eq_none.mp hp)
    simp [merge, hp, hnil, inherit, place, setIfSome, samples, estimate?, mean?, heading?]

end Whereabouts.Fusion
