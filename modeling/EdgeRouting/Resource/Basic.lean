import EdgeRouting.Target

/-!
# Remote resources

What the platform holds for a routing set: a condition that never holds, the table of priorities,
and for each target a health check and a backend, besides the snippets of edge logic. A resource is
identified by its kind and its name. Every parameter that no configuration sets is fixed here.
-/

namespace EdgeRouting

inductive ResourceKind where
  | condition
  | dictionary
  | healthCheck
  | backend
  | snippet
  deriving Repr, DecidableEq

def ResourceKind.word : ResourceKind → String
  | .condition => "condition"
  | .dictionary => "dictionary"
  | .healthCheck => "healthcheck"
  | .backend => "backend"
  | .snippet => "snippet"

/-- Identity of a resource inside one version of a service. -/
structure ResourceKey where
  kind : ResourceKind
  name : String
  deriving Repr, DecidableEq

def ResourceKey.text (k : ResourceKey) : String := k.kind.word ++ "/" ++ k.name

/-- The phase of a request that a snippet belongs to. -/
inductive Phase where
  | recv
  | miss
  | pass
  | fetch
  | deliver
  deriving Repr, DecidableEq

def Phase.word : Phase → String
  | .recv => "recv"
  | .miss => "miss"
  | .pass => "pass"
  | .fetch => "fetch"
  | .deliver => "deliver"

/-! ## Specifications -/

/-- A condition on requests. -/
structure Condition where
  name : String
  statement : String
  deriving Repr, DecidableEq

/-- A lookup table. -/
structure LookupTable where
  name : String
  writeOnly : Bool
  deriving Repr, DecidableEq

structure HealthCheck where
  name : String
  host : String
  path : String
  method : String
  httpVersion : String
  /-- Milliseconds between probes. -/
  checkInterval : Nat
  expectedResponse : Nat
  /-- Probes that count as made when the service starts. -/
  initial : Nat
  /-- Successful probes of a window that make a backend healthy. -/
  threshold : Nat
  /-- Milliseconds after which a probe fails. -/
  timeout : Nat
  window : Nat
  deriving Repr, DecidableEq

structure Backend where
  name : String
  address : String
  hostname : String
  overrideHost : String
  sslCertHostname : String
  sslSniHostname : String
  port : Nat
  useSsl : Bool
  healthcheck : String
  requestCondition : String
  shield : String
  weight : Nat
  maxConn : Nat
  errorThreshold : Nat
  connectTimeout : Nat
  firstByteTimeout : Nat
  betweenBytesTimeout : Nat
  deriving Repr, DecidableEq

structure Snippet where
  name : String
  phase : Phase
  priority : Nat
  /-- Nonzero for a snippet that can change without a new version. -/
  dynamic : Nat
  content : String
  deriving Repr, DecidableEq

/-- The name of the condition that every backend refers to. -/
def falseCondition : String := "false"

/-- The condition that never holds. With it the platform selects no backend of its own accord. -/
def Condition.never : Condition := ⟨falseCondition, "false"⟩

def HealthCheck.ofTarget (t : Target) (checkPath : String) : HealthCheck where
  name := t.healthCheckName
  host := t.host
  path := t.basePath ++ checkPath
  method := "GET"
  httpVersion := "1.1"
  checkInterval := 600000
  expectedResponse := 200
  initial := 1
  threshold := 1
  timeout := 5000
  window := 2

def Backend.ofTarget (t : Target) : Backend where
  name := t.name
  address := t.host
  hostname := t.host
  overrideHost := t.host
  sslCertHostname := t.host
  sslSniHostname := t.host
  port := 443
  useSsl := true
  healthcheck := t.healthCheckName
  requestCondition := falseCondition
  shield := ""
  weight := 100
  maxConn := 200
  errorThreshold := 0
  connectTimeout := 5000
  firstByteTimeout := 60000
  betweenBytesTimeout := 10000

/-- The priority of every generated snippet. -/
def snippetPriority : Nat := 10

def Snippet.generated (name : String) (phase : Phase) (content : String) : Snippet :=
  ⟨name, phase, snippetPriority, 0, content⟩

inductive Resource where
  | condition (spec : Condition)
  | dictionary (spec : LookupTable)
  | healthCheck (spec : HealthCheck)
  | backend (spec : Backend)
  | snippet (spec : Snippet)
  deriving Repr, DecidableEq

namespace Resource

def key : Resource → ResourceKey
  | .condition s => ⟨.condition, s.name⟩
  | .dictionary s => ⟨.dictionary, s.name⟩
  | .healthCheck s => ⟨.healthCheck, s.name⟩
  | .backend s => ⟨.backend, s.name⟩
  | .snippet s => ⟨.snippet, s.name⟩

/-- Snippets depend on the whole set of targets and are written one at a time. -/
def isLogic (s : Resource) : Bool := s.key.kind == .snippet

end Resource

end EdgeRouting
