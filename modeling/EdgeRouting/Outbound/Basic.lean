import EdgeRouting.Path.Inbound
import EdgeRouting.Target

/-!
# Outbound URLs

The URL under which the target that was selected serves a request: the template of the target,
filled in with the fields of the inbound path and its own base path.
-/

namespace EdgeRouting

/-- What makes the URLs of one target. -/
structure Outbound.Route where
  name : String
  backend : String
  basePath : String
  template : Template
  deriving Repr, DecidableEq

namespace Outbound.Route

def ofTarget (t : Target) : Route := ⟨t.name, t.backendRef, t.basePath, t.template⟩

/-- What a placeholder of the route stands for. -/
def value (r : Route) (path : InboundPath) : Placeholder → String
  | .basePath => r.basePath
  | f => path.value f

/-- The URL under which the target serves a path. -/
def url (r : Route) (path : InboundPath) : String := r.template.expand (r.value path)

end Outbound.Route

structure Outbound where
  routes : List Outbound.Route
  deriving Repr, DecidableEq

namespace Outbound

/-- The routes of targets, of which there must be one and whose names must be fit to route. -/
def ofTargets (targets : List Target) : Except RoutingError Outbound :=
  if targets.isEmpty then .error .noTargets
  else do
    verifyNames targets
    .ok ⟨targets.map Route.ofTarget⟩

def route? (o : Outbound) (name : String) : Option Route :=
  o.routes.find? fun r => r.name == name

/-- The URL under which the target of a name serves an inbound URL, if there is such a target. -/
def url? (o : Outbound) (name url : String) : Option String :=
  (o.route? name).map fun r => r.url (InboundPath.ofUrl url)

end Outbound

end EdgeRouting
