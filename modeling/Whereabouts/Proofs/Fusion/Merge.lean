import Whereabouts.Proofs.Fusion.Pass
import Whereabouts.Proofs.Location.Agreement

/-! What the getters tell after a pass: every attribute is what its contributors add up to, and what
it was before if they add up to nothing. -/
namespace Whereabouts.Fusion

variable {R : Type}

lemma reading_inherit (p : Option Provenance) (l : Location R) :
    (inherit p l).reading =
      { l.reading with
        satellites := (p.bind Provenance.satellites).or l.reading.satellites
        fixType := (p.map Provenance.fixType).getD l.reading.fixType
        fixTime := (p.map Provenance.fixTime).getD l.reading.fixTime
        validity := (p.map Provenance.validity).getD .invalid
        preference := (p.map Provenance.preference).getD l.reading.preference } := by
  match p with
  | none | some ⟨_, _, _, _, none⟩ => rfl
  | some ⟨_, _, _, _, some (inView, used)⟩ =>
    simp only [inherit, Location.reading_setSatellites]
    rfl

lemma reading_place (e : Option (Geo.Point R × Option R)) (l : Location R) :
    (place e l).reading =
      { l.reading with
        position := (e.map Prod.fst).or l.reading.position
        accuracy := (e.map Prod.snd).getD l.reading.accuracy } := by
  match e with
  | none | some (p, none) | some (p, some radius) => simp [place]

lemma reading_setIfSome_setSpeed (value : Option R) (l : Location R) :
    (setIfSome Location.setSpeed value l).reading =
      { l.reading with speed := value.or l.reading.speed } := by
  cases value <;> simp [setIfSome]

lemma reading_setIfSome_setBearing (value : Option R) (l : Location R) :
    (setIfSome Location.setBearing value l).reading =
      { l.reading with bearing := value.or l.reading.bearing } := by
  cases value <;> simp [setIfSome]

lemma reading_setIfSome_setAltitude (value : Option R) (l : Location R) :
    (setIfSome Location.setAltitude value l).reading =
      { l.reading with altitude := value.or l.reading.altitude } := by
  cases value <;> simp [setIfSome]

variable {p : Presence} {l : Location R}

lemma has_inherit (q : Option Provenance) (h : l.has p = true) : (inherit q l).has p = true := by
  match q with
  | none | some ⟨_, _, _, _, none⟩ => exact h
  | some ⟨_, _, _, _, some (inView, used)⟩ =>
    exact Presence.contains_set_of_contains (p := l.presence) .satellites h

lemma has_place (hp : p.clear .accuracy = p) (e : Option (Geo.Point R × Option R))
    (h : l.has p = true) : (place e l).has p = true := by
  have hset : (l.presence.set .position).contains p = true :=
    Presence.contains_set_of_contains .position h
  match e with
  | none => exact h
  | some (_, none) => exact Presence.contains_clear_of_contains hset hp
  | some (_, some _) => exact Presence.contains_set_of_contains .accuracy hset

lemma has_setIfSome {α : Type} {set : Location R → α → Location R} {q : Presence}
    (hset : ∀ l v, (set l v).presence = l.presence.set q) (value : Option α)
    (h : l.has p = true) : (setIfSome set value l).has p = true := by
  cases value with
  | none => exact h
  | some v =>
    rw [setIfSome, Location.has, hset]
    exact Presence.contains_set_of_contains q h

lemma spare_inherit (q : Option Provenance) (l : Location R) :
    (inherit q l).presence.spare = l.presence.spare := by
  match q with
  | none | some ⟨_, _, _, _, none⟩ => rfl
  | some ⟨_, _, _, _, some (_, _)⟩ => exact Presence.spare_set (by decide) _

lemma spare_place (e : Option (Geo.Point R × Option R)) (l : Location R) :
    (place e l).presence.spare = l.presence.spare := by
  have hset : (l.presence.set .position).spare = l.presence.spare :=
    Presence.spare_set (by decide) _
  match e with
  | none => rfl
  | some (_, none) => exact (Presence.spare_clear (by decide) _).trans hset
  | some (_, some _) => exact (Presence.spare_set (by decide) _).trans hset

lemma spare_setIfSome {α : Type} {set : Location R → α → Location R} {q : Presence}
    (hset : ∀ l v, (set l v).presence = l.presence.set q) (hq : Presence.all.contains q = true)
    (value : Option α) (l : Location R) :
    (setIfSome set value l).presence.spare = l.presence.spare := by
  cases value with
  | none => rfl
  | some v =>
    rw [setIfSome, hset]
    exact Presence.spare_set hq _

variable [Arith R]

theorem reading_merge (raw : List (Location R)) (fused : Location R) :
    let w := Winners.among raw
    let p := provenance? w raw
    let e := estimate? ((w.contributors .position raw).filterMap sighting?)
    let speeds := samples Location.speed? (w.contributors .speed raw)
    let bearings := samples Location.bearing? (w.contributors .bearing raw)
    let altitudes := samples Location.altitude? (w.contributors .altitude raw)
    (merge raw fused).reading =
      { position := (e.map Prod.fst).or fused.position?
        speed := (mean? speeds).or fused.speed?
        bearing := (heading? bearings).or fused.bearing?
        altitude := (mean? altitudes).or fused.altitude?
        accuracy := (e.map Prod.snd).getD fused.accuracy?
        satellites := (p.bind Provenance.satellites).or fused.satellites?
        fixType := (p.map Provenance.fixType).getD fused.fixType
        fixTime := (p.map Provenance.fixTime).getD fused.fixTime
        validity := (p.map Provenance.validity).getD .invalid
        preference := (p.map Provenance.preference).getD fused.preference } := by
  intro w p e speeds bearings altitudes
  rw [merge, reading_setIfSome_setBearing, reading_setIfSome_setAltitude,
    reading_setIfSome_setSpeed, reading_place, reading_inherit]
  rfl

lemma position?_merge (raw : List (Location R)) (fused : Location R) :
    (merge raw fused).position? =
      ((estimate? (((Winners.among raw).contributors .position raw).filterMap sighting?)).map
        Prod.fst).or fused.position? :=
  congrArg Location.Reading.position (reading_merge raw fused)

lemma accuracy?_merge (raw : List (Location R)) (fused : Location R) :
    (merge raw fused).accuracy? =
      ((estimate? (((Winners.among raw).contributors .position raw).filterMap sighting?)).map
        Prod.snd).getD fused.accuracy? :=
  congrArg Location.Reading.accuracy (reading_merge raw fused)

lemma speed?_merge (raw : List (Location R)) (fused : Location R) :
    (merge raw fused).speed? =
      (mean? (samples Location.speed? ((Winners.among raw).contributors .speed raw))).or
        fused.speed? :=
  congrArg Location.Reading.speed (reading_merge raw fused)

lemma altitude?_merge (raw : List (Location R)) (fused : Location R) :
    (merge raw fused).altitude? =
      (mean? (samples Location.altitude? ((Winners.among raw).contributors .altitude raw))).or
        fused.altitude? :=
  congrArg Location.Reading.altitude (reading_merge raw fused)

/-- A pass drops the accuracy at most. -/
theorem has_merge (raw : List (Location R)) {fused : Location R} (hp : p.clear .accuracy = p)
    (h : fused.has p = true) : (merge raw fused).has p = true := by
  unfold merge
  apply has_setIfSome fun _ _ => rfl
  apply has_setIfSome fun _ _ => rfl
  apply has_setIfSome fun _ _ => rfl
  apply has_place hp
  exact has_inherit _ h

theorem spare_merge (raw : List (Location R)) (fused : Location R) :
    (merge raw fused).presence.spare = fused.presence.spare := by
  unfold merge
  rw [spare_setIfSome (fun _ _ => rfl) (by decide), spare_setIfSome (fun _ _ => rfl) (by decide),
    spare_setIfSome (fun _ _ => rfl) (by decide), spare_place, spare_inherit]

end Whereabouts.Fusion
