import Whereabouts.Fusion.Winner

/-! What the fused location takes over from its contributors besides their attributes. -/
namespace Whereabouts.Fusion

structure Provenance where
  fixType : Int
  fixTime : Timestamp
  validity : Validity
  preference : Preference
  satellites : Option (Nat × Nat)
  deriving Repr, DecidableEq

variable {R : Type} [Arith R]

/-- The greatest of each of fix type, fix time, validity and preference. -/
def peaks? : List (Location R) → Option Provenance
  | [] => none
  | l :: rest =>
    some (rest.foldl
      (fun p m =>
        { p with
          fixType := max p.fixType m.fixType
          fixTime := max p.fixTime m.fixTime
          validity := max p.validity m.validity
          preference := max p.preference m.preference })
      ⟨l.fixType, l.fixTime, l.validity, l.preference, none⟩)

/-- Satellite counts with the latest fix time; of equal times the later location counts. -/
def latestSatellites? (used : List (Location R)) : Option (Nat × Nat) :=
  (used.foldl
    (fun best l =>
      match l.satellites?, best with
      | none, _ => best
      | some s, none => some (l.fixTime, s)
      | some s, some (t, _) => if t ≤ l.fixTime then some (l.fixTime, s) else best)
    (none : Option (Timestamp × (Nat × Nat)))).map (·.2)

/-- The contributors of the position decide, or all contributors if there is no position. -/
def provenance? (w : Winners) (raw : List (Location R)) : Option Provenance :=
  let used := raw.filter w.usesAny
  let deciding := if w.position.ties = 0 then used else w.contributors .position raw
  (peaks? deciding).map fun p => { p with satellites := latestSatellites? used }

end Whereabouts.Fusion
