import EdgeRouting.Settings.Decode
import EdgeRouting.Settings.Validation
import EdgeRouting.Toml.Tree

/-!
# Loading settings

Settings come from a TOML text, parts of them perhaps from the environment, so that secrets need not
stand in the text. Settings with faults are not loaded.
-/

namespace EdgeRouting

/-- Why settings could not be loaded. -/
inductive LoadFailure where
  /-- There is no text to load them from. -/
  | missing
  /-- What should be a text is none. -/
  | notText
  /-- The text is no TOML, or what it denotes has not the form of settings. -/
  | malformed
  | invalid (faults : List SettingsFault)
  deriving Repr, DecidableEq

def LoadFailure.message : LoadFailure → String
  | .missing => "IO error: no such file"
  | .notText => "IO error: stream did not contain valid UTF-8"
  | .malformed => "Parse error: not a configuration"
  | .invalid faults => "Validation failed: " ++ ", ".intercalate (faults.map (·.message))

/-- Values of variables by their names. -/
abbrev Environment := String → Option String

namespace Settings

def serviceVariable : String := "EDGE_GATEWAY_SERVICE"
def authVariable : String := "EDGE_GATEWAY_AUTH"
def checkPathVariable : String := "EDGE_GATEWAY_CHECK_PATH"

/-- The settings with what the environment sets, be it blank. -/
def overridden (env : Environment) (s : Settings) : Settings :=
  { s with service := { s.service with
      service := (env serviceVariable).or s.service.service
      auth := (env authVariable).or s.service.auth
      checkPath := (env checkPathVariable).or s.service.checkPath } }

/-- The settings that a TOML text denotes. -/
def ofToml? (text : String) : Option Settings :=
  (Toml.read text).bind (ofDocument? Document.tomlConvention)

/-- Settings from a text and the environment, if they have no faults. -/
def load (env : Environment) (text : String) : Except LoadFailure Settings :=
  match ofToml? text with
  | none => .error .malformed
  | some s =>
    let s := s.overridden env
    match s.validate with
    | .error faults => .error (.invalid faults)
    | .ok _ => .ok s

/-- Settings from the bytes of a file, if there is one. -/
def loadBytes (env : Environment) : Option ByteArray → Except LoadFailure Settings
  | none => .error .missing
  | some bytes =>
    match String.fromUTF8? bytes with
    | none => .error .notText
    | some text => load env text

end Settings

end EdgeRouting
