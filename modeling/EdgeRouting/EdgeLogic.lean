import EdgeRouting.Logic.Render
import EdgeRouting.Outbound.Logic
import EdgeRouting.Resource.Basic
import EdgeRouting.Selection.Logic

/-!
# Edge logic of a routing set

Six fragments serve a routing set. One selects the backend, two set the URL of requests that miss
the cache or pass it by, one adds headers for diagnosis and keeps the response out of the cache, and
two carry the surrogate headers past the cache under other names.
-/

namespace EdgeRouting

/-- A piece of edge logic with the phase that it runs in. -/
structure Fragment where
  name : String
  phase : Phase
  content : String
  deriving Repr, DecidableEq

def Fragment.snippet (f : Fragment) : Snippet := .generated f.name f.phase f.content

/-- All that a routing set installs at the edge, with the decisions it encodes. -/
structure EdgeLogic where
  selector : Selector
  outbound : Outbound
  fragments : List Fragment
  deriving Repr, DecidableEq

namespace EdgeLogic

open Logic

/-- The response header that names the selected backend. -/
def backendNameHeader : String := "X-Backend-Name"

/-- The response header that carries the outbound URL. -/
def backendUrlHeader : String := "X-Backend-URL"

def surrogateHeaders : List String := ["Surrogate-Key", "Surrogate-Control"]

/-- The name under which a surrogate header passes the cache. -/
def stashedName (header : String) : String := "X-" ++ header

/-- The patterns of all generated logic. -/
def patterns : List Pattern :=
  [Selector.presencePattern, Outbound.pathPattern, Outbound.dividerPattern]

def diagnostics : Program :=
  [.set (.header .backendResponse backendUrlHeader) (.builtin .backendUrl),
    .set (.header .backendResponse backendNameHeader) (.builtin .requestBackend),
    .set (.header .backendResponse Selector.healthHeader)
      (.header .request Selector.healthHeader),
    .set .cacheable (.bool false)]

def stashSurrogates : Program :=
  surrogateHeaders.map fun h =>
    .set (.header .backendResponse (stashedName h)) (.header .backendResponse h)

def restoreSurrogates : Program :=
  surrogateHeaders.map fun h =>
    .set (.header .response h) (.header .response (stashedName h))

def fragmentsOf (selector : Selector) (outbound : Outbound) : List Fragment :=
  [⟨"backend", .recv, render selector.program⟩,
    ⟨"missurl", .miss, render outbound.program⟩,
    ⟨"passurl", .pass, render outbound.program⟩,
    ⟨"logurl", .fetch, render diagnostics⟩,
    ⟨"stashsurrogates", .fetch, render stashSurrogates⟩,
    ⟨"restoresurrogates", .deliver, render restoreSurrogates⟩]

/-- The logic for targets under a table of priorities. -/
def ofTargets (targets : List Target) (table : WeightTable) (lockHeader : String) :
    Except RoutingError EdgeLogic := do
  let selector ← Selector.ofTargets targets table lockHeader
  let outbound ← Outbound.ofTargets targets
  .ok ⟨selector, outbound, fragmentsOf selector outbound⟩

def fragment? (l : EdgeLogic) (name : String) : Option Fragment :=
  l.fragments.find? fun f => f.name == name

end EdgeLogic

end EdgeRouting
