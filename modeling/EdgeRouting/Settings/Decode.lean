import EdgeRouting.Document
import EdgeRouting.Settings.Basic

/-!
# Settings from documents

Every field has a default except those that make a target what it is. A record may be written as a
table, whose unknown entries are ignored, or as a list of its values in order.
-/

namespace EdgeRouting

open Document

def TargetSettings.ofDocument? (convention : Convention) (d : Document) :
    Option TargetSettings := do
  let fields ← d.recordFields? convention
    ["name", "host", "base_path", "url_template", "fallback_logic"]
  let name ← required? fields "name" asText?
  let host ← required? fields "host" asText?
  let basePath ← withDefault? fields "base_path" asText? ""
  let urlTemplate ← required? fields "url_template" asText?
  let fallbackLogic ← withDefault? fields "fallback_logic" asOptionalText? none
  some ⟨name, host, basePath, urlTemplate, fallbackLogic⟩

def ServiceSettings.ofDocument? (convention : Convention) (d : Document) :
    Option ServiceSettings := do
  let fields ← d.recordFields? convention
    ["service", "auth", "check_path", "api_url", "timeout_secs", "version_lock_header"]
  let service ← withDefault? fields "service" asOptionalText? none
  let auth ← withDefault? fields "auth" asOptionalText? none
  let checkPath ← withDefault? fields "check_path" asOptionalText? none
  let apiUrl ← withDefault? fields "api_url" asText? ServiceSettings.default.apiUrl
  let timeoutSecs ← withDefault? fields "timeout_secs" asNat64? ServiceSettings.default.timeoutSecs
  let lockHeader ←
    withDefault? fields "version_lock_header" asText? ServiceSettings.default.lockHeader
  some ⟨service, auth, checkPath, apiUrl, timeoutSecs, lockHeader⟩

def LogFormat.ofDocument? (convention : Convention) (d : Document) : Option LogFormat :=
  match d.caseName? convention with
  | some "pretty" => some .pretty
  | some "json" => some .json
  | _ => none

def LogSettings.ofDocument? (convention : Convention) (d : Document) : Option LogSettings := do
  let fields ← d.recordFields? convention ["log_level", "log_format"]
  let level ← withDefault? fields "log_level" asText? LogSettings.default.level
  let format ←
    withDefault? fields "log_format" (LogFormat.ofDocument? convention) LogSettings.default.format
  some ⟨level, format⟩

def WeightTable.ofDocument? : Document → Option WeightTable
  | .table entries => do
    let pairs ← entries.mapM fun e => e.2.asInt64?.map fun w => (e.1, w)
    some (ofWritten pairs)
  | _ => none

def Settings.ofDocument? (convention : Convention) (d : Document) : Option Settings := do
  let fields ← d.recordFields? convention ["gateway", "deployers", "priorities", "observability"]
  let service ← withDefault? fields "gateway" (ServiceSettings.ofDocument? convention) .default
  let targets ← withDefault? fields "deployers"
    (fun d => do (← d.asList?).mapM (TargetSettings.ofDocument? convention)) []
  let weights ← withDefault? fields "priorities" WeightTable.ofDocument? .empty
  let logging ← withDefault? fields "observability" (LogSettings.ofDocument? convention) .default
  some ⟨service, targets, weights, logging⟩

end EdgeRouting
