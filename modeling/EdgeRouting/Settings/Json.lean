import EdgeRouting.Json.Basic
import EdgeRouting.Settings.Basic

/-!
# Settings as JSON

The JSON form of settings. It leaves out the secret of the service.
-/

namespace EdgeRouting

def TargetSettings.toJson (t : TargetSettings) : Json :=
  .ofMembers [("name", .text t.name), ("host", .text t.host), ("base_path", .text t.basePath),
    ("url_template", .text t.urlTemplate), ("fallback_logic", .ofOption t.fallbackLogic)]

def ServiceSettings.toJson (s : ServiceSettings) : Json :=
  .ofMembers [("service", .ofOption s.service), ("check_path", .ofOption s.checkPath),
    ("api_url", .text s.apiUrl), ("timeout_secs", .ofNat s.timeoutSecs),
    ("version_lock_header", .text s.lockHeader)]

def LogSettings.toJson (l : LogSettings) : Json :=
  .ofMembers [("log_level", .text l.level), ("log_format", .text l.format.word)]

def WeightTable.toJson (t : WeightTable) : Json :=
  .ofMembers (t.entries.map fun e => (e.1, .ofInt e.2.toInt))

def Settings.toJson (s : Settings) : Json :=
  .ofMembers [("gateway", s.service.toJson), ("deployers", .array (s.targets.map (·.toJson))),
    ("priorities", s.weights.toJson), ("observability", s.logging.toJson)]

end EdgeRouting
