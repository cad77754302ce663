import EdgeRouting.Json.Basic
import EdgeRouting.Resource.Basic

/-!
# Fields of a resource

A resource is sent as a list of named fields. The list is the one place that fixes their names and
their order; the JSON form and the form body are both taken from it.
-/

namespace EdgeRouting

inductive FieldValue where
  | text (s : String)
  | number (n : Nat)
  | flag (b : Bool)
  deriving Repr, DecidableEq

namespace FieldValue

def toJson : FieldValue → Json
  | .text s => .text s
  | .number n => .ofNat n
  | .flag b => .bool b

/-- The value as it stands in a form. -/
def toText : FieldValue → String
  | .text s => s
  | .number n => toString n
  | .flag b => if b then "true" else "false"

end FieldValue

abbrev Fields := List (String × FieldValue)

def Condition.fields (s : Condition) : Fields :=
  [("name", .text s.name), ("statement", .text s.statement), ("type", .text "REQUEST")]

def LookupTable.fields (s : LookupTable) : Fields :=
  [("name", .text s.name), ("write_only", .flag s.writeOnly)]

def HealthCheck.fields (s : HealthCheck) : Fields :=
  [("name", .text s.name), ("host", .text s.host), ("path", .text s.path),
    ("method", .text s.method), ("http_version", .text s.httpVersion),
    ("check_interval", .number s.checkInterval),
    ("expected_response", .number s.expectedResponse), ("initial", .number s.initial),
    ("threshold", .number s.threshold), ("timeout", .number s.timeout),
    ("window", .number s.window)]

def Backend.fields (s : Backend) : Fields :=
  [("name", .text s.name), ("address", .text s.address), ("hostname", .text s.hostname),
    ("override_host", .text s.overrideHost), ("ssl_cert_hostname", .text s.sslCertHostname),
    ("ssl_sni_hostname", .text s.sslSniHostname), ("port", .number s.port),
    ("use_ssl", .flag s.useSsl), ("healthcheck", .text s.healthcheck),
    ("request_condition", .text s.requestCondition), ("shield", .text s.shield),
    ("weight", .number s.weight), ("max_conn", .number s.maxConn),
    ("error_threshold", .number s.errorThreshold), ("connect_timeout", .number s.connectTimeout),
    ("first_byte_timeout", .number s.firstByteTimeout),
    ("between_bytes_timeout", .number s.betweenBytesTimeout)]

def Snippet.fields (s : Snippet) : Fields :=
  [("name", .text s.name), ("type", .text s.phase.word), ("priority", .number s.priority),
    ("dynamic", .number s.dynamic), ("content", .text s.content)]

def Resource.fields : Resource → Fields
  | .condition s => s.fields
  | .dictionary s => s.fields
  | .healthCheck s => s.fields
  | .backend s => s.fields
  | .snippet s => s.fields

namespace Fields

def toJson (fields : Fields) : Json := .ofMembers (fields.map fun f => (f.1, f.2.toJson))

/-- The names and values of a form. -/
def toForm (fields : Fields) : List (String × String) := fields.map fun f => (f.1, f.2.toText)

end Fields

end EdgeRouting
