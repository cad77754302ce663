import EdgeRouting.Target
import EdgeRouting.Text.Quoted
import EdgeRouting.Weight.Table

/-!
# Settings

All that a configuration sets: how to reach the platform, the targets in their order, the weights,
and the logging. The secret of the service is kept apart from everything that is shown: neither the
description of a record nor its JSON form contains it.
-/

namespace EdgeRouting

/-- A target as it is configured, with its template not yet read. -/
structure TargetSettings where
  name : String
  host : String
  basePath : String
  urlTemplate : String
  fallbackLogic : Option String
  deriving Repr, DecidableEq

/-- The target, if its template can be read. -/
def TargetSettings.target (t : TargetSettings) : Except Template.Fault Target := do
  let template ← Template.parse t.urlTemplate
  .ok ⟨t.name, t.host, t.basePath, template, t.fallbackLogic.getD ""⟩

/-- How to reach the platform. -/
structure ServiceSettings where
  service : Option String
  /-- The secret. -/
  auth : Option String
  checkPath : Option String
  apiUrl : String
  timeoutSecs : Nat
  lockHeader : String
  deriving Repr, DecidableEq

def ServiceSettings.default : ServiceSettings :=
  ⟨none, none, none, "https://api.fastly.com", 30, "X-OW-Version-Lock"⟩

/-- What a service needs to be talked to, all of it present. -/
structure Access where
  service : String
  auth : String
  checkPath : String
  deriving Repr, DecidableEq

inductive LogFormat where
  | pretty
  | json
  deriving Repr, DecidableEq

def LogFormat.word : LogFormat → String
  | .pretty => "pretty"
  | .json => "json"

structure LogSettings where
  level : String
  format : LogFormat
  deriving Repr, DecidableEq

def LogSettings.default : LogSettings := ⟨"info", .pretty⟩

/-- What is logged unless the environment says otherwise: the level for the program and for all
else. -/
def LogSettings.filter (l : LogSettings) : String := "edge_gateway=" ++ l.level ++ "," ++ l.level

structure Settings where
  service : ServiceSettings
  /-- The targets in the order of routing; the first one is the fallback. -/
  targets : List TargetSettings
  weights : WeightTable
  logging : LogSettings
  deriving Repr, DecidableEq

def Settings.default : Settings := ⟨.default, [], .empty, .default⟩

/-! ## Access -/

/-- A text that is present and not blank. -/
def present (value : Option String) : Option String :=
  value.filter fun s => !Text.isBlankText s

namespace ServiceSettings

/-- What the service needs, if none of it is missing or blank. -/
def access? (s : ServiceSettings) : Option Access := do
  let service ← present s.service
  let auth ← present s.auth
  let checkPath ← present s.checkPath
  some ⟨service, auth, checkPath⟩

def isReady (s : ServiceSettings) : Bool := s.access?.isSome

/-! ## Descriptions -/

/-- What stands in place of the secret. -/
def redacted : String := "<redacted>"

/-- A record as a text: its name, and its fields with the texts of their values. -/
def recordText (name : String) (fields : List (String × String)) : String :=
  name ++ " \x7b " ++ ", ".intercalate (fields.map fun f => f.1 ++ ": " ++ f.2) ++ " \x7d"

def describe (s : ServiceSettings) : String :=
  recordText "GatewayConfig" [
    ("service", Text.quotedOption s.service),
    ("auth", Text.quotedOption (s.auth.map fun _ => redacted)),
    ("check_path", Text.quotedOption s.checkPath),
    ("api_url", Text.quoted s.apiUrl),
    ("timeout_secs", toString s.timeoutSecs),
    ("version_lock_header", Text.quoted s.lockHeader)]

end ServiceSettings

def Access.describe (a : Access) : String :=
  ServiceSettings.recordText "Credentials" [
    ("service", Text.quoted a.service),
    ("auth", Text.quoted ServiceSettings.redacted),
    ("check_path", Text.quoted a.checkPath)]

/-- A target whose template cannot be read. -/
structure TargetFault where
  target : String
  fault : Template.Fault
  deriving Repr, DecidableEq

def TargetFault.message (f : TargetFault) : String :=
  "deployer '" ++ f.target ++ "': " ++ f.fault.message

/-- The targets, or the first one whose template cannot be read. -/
def buildTargets : List TargetSettings → Except TargetFault (List Target)
  | [] => .ok []
  | t :: r =>
    match t.target with
    | .error f => .error ⟨t.name, f⟩
    | .ok target => do
      let targets ← buildTargets r
      .ok (target :: targets)

end EdgeRouting
