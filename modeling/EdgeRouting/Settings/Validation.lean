import EdgeRouting.Settings.Basic
import EdgeRouting.Url.Parser
import EdgeRouting.Weight.Shares

/-!
# Validation of settings

All faults of settings are found, not just the first: per target in order, and then those of the
service. Settings without faults can still look odd; what does is reported as a warning.
-/

namespace EdgeRouting

inductive SettingsFault where
  | noTargets
  /-- The target at this position has no name. -/
  | emptyName (position : Nat)
  | invalidName (name : String)
  /-- The name agrees in lower case with an earlier one. -/
  | duplicateName (name : String)
  | emptyHost (target : String)
  | invalidTemplate (target : String) (fault : Template.Fault)
  | invalidApiUrl (url : String)
  | emptyLockHeader
  deriving Repr, DecidableEq

def SettingsFault.message : SettingsFault → String
  | .noTargets => "at least one deployer is required"
  | .emptyName position => "deployer #" ++ toString position ++ " has an empty name"
  | .invalidName name => (RoutingError.invalidName name).message
  | .duplicateName name =>
    "deployer name '" ++ name
      ++ "' is used more than once (names are compared case-insensitively)"
  | .emptyHost target => "deployer '" ++ target ++ "' has an empty host"
  | .invalidTemplate target fault =>
    "deployer '" ++ target ++ "' has an invalid url_template: " ++ fault.message
  | .invalidApiUrl url => "gateway.api_url '" ++ url ++ "' is not a valid base URL"
  | .emptyLockHeader => "gateway.version_lock_header must not be empty"

namespace Settings

/-! ## Faults -/

/-- The fault of a name at a position, when the keys in `seen` are those of earlier names. -/
def nameFaults (seen : List String) (position : Nat) (name : String) : List SettingsFault :=
  if name.isEmpty then [.emptyName position]
  else if !isTargetName name then [.invalidName name]
  else if Text.lower name ∈ seen then [.duplicateName name]
  else []

def hostFaults (t : TargetSettings) : List SettingsFault :=
  if Text.isBlankText t.host then [.emptyHost t.name] else []

def templateFaults (t : TargetSettings) : List SettingsFault :=
  match Template.parse t.urlTemplate with
  | .ok _ => []
  | .error f => [.invalidTemplate t.name f]

/-- The faults of targets from a position on. Only well-formed names count as seen. -/
def targetFaults (seen : List String) (position : Nat) : List TargetSettings → List SettingsFault
  | [] => []
  | t :: r =>
    nameFaults seen position t.name ++ hostFaults t ++ templateFaults t
      ++ targetFaults (if isTargetName t.name then Text.lower t.name :: seen else seen)
        (position + 1) r

def serviceFaults (s : ServiceSettings) : List SettingsFault :=
  (if Url.isBaseUrl s.apiUrl then [] else [.invalidApiUrl s.apiUrl])
    ++ (if Text.isBlankText s.lockHeader then [.emptyLockHeader] else [])

/-- Every fault of the settings. -/
def faults (s : Settings) : List SettingsFault :=
  (if s.targets.isEmpty then [.noTargets] else []) ++ targetFaults [] 0 s.targets
    ++ serviceFaults s.service

end Settings

/-! ## Warnings -/

inductive SettingsWarning where
  /-- A weight for a name that no target has. -/
  | unusedWeight (key : String)
  | weightAboveHundred (key : String) (weight : Int64)
  | negativeWeight (key : String) (weight : Int64)
  /-- The weights of all targets do not sum up to a hundred. -/
  | skewed (total : Int64)
  deriving Repr, DecidableEq

def SettingsWarning.message : SettingsWarning → String
  | .unusedWeight _ => "Priority entry matches no deployer and is ignored"
  | .weightAboveHundred _ _ => "Priority weight exceeds 100"
  | .negativeWeight _ _ => "Priority weight is negative"
  | .skewed _ => "Resolved weights do not sum to 100; traffic split is skewed"

namespace Settings

def weightWarnings (keys : List String) (key : String) (weight : Int64) : List SettingsWarning :=
  (if key ∈ keys then [] else [.unusedWeight key])
    ++ (if 100 < weight then [.weightAboveHundred key weight]
      else if weight < 0 then [.negativeWeight key weight] else [])

/-- The targets whose templates can be read. -/
def readableTargets (s : Settings) : List Target :=
  s.targets.filterMap fun t => t.target.toOption

/-- What looks odd about settings without faults. -/
def warnings (s : Settings) : List SettingsWarning :=
  let keys := s.targets.map fun t => Text.lower t.name
  let total := (Shares.ofTargets s.readableTargets s.weights).total
  s.weights.entries.flatMap (fun e => weightWarnings keys e.1 e.2)
    ++ (if s.weights.isEmpty || total = 100 then [] else [.skewed total])

/-- The warnings for settings without faults, or all of their faults. -/
def validate (s : Settings) : Except (List SettingsFault) (List SettingsWarning) :=
  if s.faults.isEmpty then .ok s.warnings else .error s.faults

end Settings

end EdgeRouting
