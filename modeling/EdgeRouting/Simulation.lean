import EdgeRouting.Selection.Selector
import EdgeRouting.Text.Share

/-!
# Simulation

Many requests are sent through a selector, each with a draw of its own, and it is counted which
targets serve them. Some targets can be taken for unhealthy, and all requests can be given the same
override.
-/

namespace EdgeRouting

structure Simulation where
  /-- How many requests there are. -/
  requests : Nat
  /-- The names of targets that are unhealthy. -/
  unhealthy : List String
  /-- The name that all requests override the selection with. -/
  lock : Option String
  deriving Repr, DecidableEq

def Simulation.default : Simulation := ⟨10000, [], none⟩

/-- How often each target served a request, and how often as the fallback. -/
structure Tally where
  hits : List (String × Nat)
  fallbacks : Nat
  deriving Repr, DecidableEq

namespace Tally

def empty : Tally := ⟨[], 0⟩

def addHit (name : String) : List (String × Nat) → List (String × Nat)
  | [] => [(name, 1)]
  | h :: r => if h.1 = name then (name, h.2 + 1) :: r else h :: addHit name r

def add (t : Tally) (c : Choice) : Tally :=
  ⟨addHit c.name t.hits, if c.fallback then t.fallbacks + 1 else t.fallbacks⟩

/-- How often the target of a name served a request. -/
def hitsOf (t : Tally) (name : String) : Nat := (t.hits.lookup name).getD 0

end Tally

namespace Simulation

/-- The health of the targets of a selector. -/
def health (sim : Simulation) (s : Selector) : List Bool :=
  s.contenders.map fun c => !sim.unhealthy.any fun name => Text.eqIgnoringAsciiCase name c.name

/-- The value of the override header of each request. -/
def lockValue (sim : Simulation) : Option String :=
  sim.lock.map fun name => "env=" ++ Text.lower name

/-- The choice for a request with a draw. -/
def choice (sim : Simulation) (s : Selector) (draw : Nat) : Choice :=
  s.select ⟨draw, sim.health s, sim.lockValue⟩

/-- The choices for requests with these draws, counted. -/
def tally (sim : Simulation) (s : Selector) (draws : List Nat) : Tally :=
  draws.foldl (fun t draw => t.add (sim.choice s draw)) .empty

/-- What is reported of one target. -/
def line (sim : Simulation) (t : Tally) (c : Contender) : String :=
  let hits := t.hitsOf c.name
  Text.padRight 16 c.name ++ " weight=" ++ Text.padRight 4 (toString c.weight.toInt)
    ++ " threshold=" ++ Text.padRight 4 (toString c.threshold.toInt)
    ++ " hits=" ++ Text.padRight 8 (toString hits)
    ++ " share=" ++ Text.shareText hits sim.requests

/-- What is reported of all targets and of the fallback. -/
def report (sim : Simulation) (s : Selector) (t : Tally) : List String :=
  s.contenders.map (sim.line t) ++ ["fallback hits: " ++ toString t.fallbacks]

end Simulation

end EdgeRouting
