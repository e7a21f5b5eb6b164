import Whereabouts.Config.Demo
import Whereabouts.Reckoning.Drive

/-! A simulated source, which drives along the route by itself. -/
namespace Whereabouts

structure Simulator (R : Type) where
  name : String
  settings : Reckoning.Settings R
  current : Location R
  /-- The route was there at the last poll that looked for it. -/
  routeReady : Bool
  /-- The position was set by hand and has not been told yet. -/
  placed : Bool
  deriving Repr, DecidableEq

namespace Simulator

variable {R : Type} [Arith R]

def preference : Preference := .low

def new (name : String) (d : Demo R) : Except ConfigFault (Simulator R) := do
  d.validate
  let blank : Location R := Location.blank preference
  .ok
    { name := name
      settings := d.reckoning
      current :=
        match d.start with
        | none => blank
        | some p => blank.setPosition p
      routeReady := false
      placed := d.start.isSome }

/-- A fix at the given time, where the source is. -/
def fixed (s : Simulator R) (now : Timestamp) : Location R :=
  Reckoning.stamp s.settings now s.current

/-- A position that was set is told first. The first poll that sees a route only starts the clock,
since the time that its computation took is not to be driven; the polls after it drive. -/
def poll (s : Simulator R) (route : Option (Route R)) (table : Option (SpeedTable R))
    (now : Timestamp) : Option (Location R) × Simulator R :=
  if s.placed then
    let l := if s.current.fixTime = Timestamp.never then s.fixed now else s.current
    (some l, { s with current := l, placed := false })
  else
    match route with
    | none => (none, { s with routeReady := false })
    | some r =>
      if s.routeReady then
        match Reckoning.advance s.settings (some r) table now s.current with
        | .ok (_, l) => (some l, { s with current := l })
        | .error _ => (none, s)
      else (none, { s with routeReady := true, current := { s.current with fixTime := now } })

def setPosition (s : Simulator R) (p : Geo.Point R) (now : Timestamp) : Simulator R :=
  { s with
    current := Reckoning.stamp s.settings now (s.current.setPosition p)
    placed := true }

end Simulator
end Whereabouts
