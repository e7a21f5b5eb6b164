import Whereabouts.Source.Provider
import Whereabouts.Source.Simulator

/-! The sources that a vehicle polls. -/
namespace Whereabouts

/-- A recorded source: each poll tells the next entry. -/
structure Replay (R : Type) where
  preference : Preference
  script : List (Option (Location R))
  deriving Repr, DecidableEq

/-- What a vehicle shows its sources when it polls them. -/
structure PollContext (R : Type) where
  now : Timestamp
  route : Option (Route R)
  table : Option (SpeedTable R)

inductive Source (R : Type) where
  | provider (p : Provider R)
  | simulator (s : Simulator R)
  | replay (r : Replay R)
  deriving Repr, DecidableEq

namespace Source

variable {R : Type} [Arith R]

def preference : Source R → Preference
  | provider p => p.kind.preference
  | simulator _ => Simulator.preference
  | replay r => r.preference

/-- The location of a source if it has a new one. -/
def poll (ctx : PollContext R) : Source R → Option (Location R) × Source R
  | provider p => let (l, p) := p.poll ctx.now; (l, provider p)
  | simulator s => let (l, s) := s.poll ctx.route ctx.table ctx.now; (l, simulator s)
  | replay r => (r.script.head?.join, replay { r with script := r.script.tail })

/-- Put a source at a position; only simulated sources accept one. -/
def setPosition (p : Geo.Point R) (now : Timestamp) : Source R → Bool × Source R
  | simulator s => (true, simulator (s.setPosition p now))
  | s => (false, s)

end Source
end Whereabouts
