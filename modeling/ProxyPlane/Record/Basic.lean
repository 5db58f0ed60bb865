import ProxyPlane.Json.Codec
import ProxyPlane.Text.Blank
import ProxyPlane.Text.Pieces
import ProxyPlane.Time.Instant

/-!
# Routing records

The desired state of the proxy is a list of records, each of which sends some domains to a target.

## What is here

* `RoutingRecord` and its `PathRule`s, with their JSON forms, and `RoutingRecord.domains`.
* `AuditRow`, what is remembered of one attempt to apply the desired state.
* `RecordFile`, what a records file holds: the records and some settings.
-/

set_option autoImplicit false
namespace ProxyPlane

open Json (Codec Member)

/-- Another target for the requests below a path. -/
structure PathRule where
  path : String
  forwardScheme : String
  forwardHost : String
  forwardPort : Nat
deriving DecidableEq, Repr, Inhabited

/-- Where the requests for some domains are sent, and how. -/
structure RoutingRecord where
  id : String
  name : String
  /-- The domains, with commas between them. -/
  domainNames : String
  forwardScheme : String
  forwardHost : String
  forwardPort : Nat
  /-- Send plain requests to HTTPS. -/
  sslForced : Bool
  /-- Tell clients to use HTTPS from now on. -/
  hstsEnabled : Bool
  hstsSubdomains : Bool
  blockExploits : Bool
  websocketSupport : Bool
  enabled : Bool
  locations : List PathRule
deriving DecidableEq, Repr, Inhabited

/-- One attempt to apply the desired state. -/
structure AuditRow where
  /-- The digest of the document. -/
  configHash : String
  appliedAt : Instant
  success : Bool
  error : Option String
deriving DecidableEq, Repr, Inhabited

/-- What a records file holds. -/
structure RecordFile where
  records : List RoutingRecord
  settings : Dict String
deriving DecidableEq, Inhabited

/-- The setting that holds the e-mail address for certificates. -/
def acmeEmailSetting : String := "caddy.acme_email"

/-- The ports that a target can have. -/
def portBound : Nat := Nat.pow 2 16

/-! ## Forms -/

namespace PathRule

def blank : PathRule := ⟨"", "http", "", 0⟩

def members : List (Member PathRule) :=
  [.needed "path" .string (·.path) fun a s => { s with path := a },
   .always "forward_scheme" .string (·.forwardScheme) fun a s => { s with forwardScheme := a },
   .needed "forward_host" .string (·.forwardHost) fun a s => { s with forwardHost := a },
   .needed "forward_port" (.nat portBound) (·.forwardPort) fun a s => { s with forwardPort := a }]

def codec : Codec PathRule := .record blank members

end PathRule

namespace RoutingRecord

/-- An enabled record with nothing in it. -/
def blank : RoutingRecord :=
  ⟨"", "", "", "http", "", 0, false, false, false, false, false, true, []⟩

/-- An enabled record, named for its domains, with all other choices left at their defaults. -/
def create (id domainNames forwardHost : String) (forwardPort : Nat) : RoutingRecord :=
  { blank with id, name := domainNames, domainNames, forwardHost, forwardPort }

def members : List (Member RoutingRecord) :=
  [.needed "id" .string (·.id) fun a s => { s with id := a },
   .always "name" .string (·.name) fun a s => { s with name := a },
   .needed "domain_names" .string (·.domainNames) fun a s => { s with domainNames := a },
   .always "forward_scheme" .string (·.forwardScheme) fun a s => { s with forwardScheme := a },
   .needed "forward_host" .string (·.forwardHost) fun a s => { s with forwardHost := a },
   .needed "forward_port" (.nat portBound) (·.forwardPort) fun a s => { s with forwardPort := a },
   .always "ssl_forced" .bool (·.sslForced) fun a s => { s with sslForced := a },
   .always "hsts_enabled" .bool (·.hstsEnabled) fun a s => { s with hstsEnabled := a },
   .always "hsts_subdomains" .bool (·.hstsSubdomains) fun a s => { s with hstsSubdomains := a },
   .always "block_exploits" .bool (·.blockExploits) fun a s => { s with blockExploits := a },
   .always "websocket_support" .bool (·.websocketSupport)
    fun a s => { s with websocketSupport := a },
   .always "enabled" .bool (·.enabled) fun a s => { s with enabled := a },
   .always "locations" (.list PathRule.codec) (·.locations) fun a s => { s with locations := a }]

def codec : Codec RoutingRecord := .record blank members

/-- The domains of a record: the pieces between commas, without blanks at their ends, if anything
is left of them. -/
def domains (r : RoutingRecord) : List String :=
  ((pieces ',' r.domainNames.toList).map (trimWhile isBlank)).filterMap fun d =>
    if d.isEmpty then none else some (String.ofList d)

end RoutingRecord

/-- Instants in the text form that ends in `Z`. -/
def Instant.codec : Codec Instant where
  encode t := .string t.text
  read v := do
    let s ← Codec.string.read v
    match Instant.read? s with
    | some t => .ok t
    | none => .error (.wrongShape "an instant in RFC 3339")

namespace AuditRow

def blank : AuditRow := ⟨"", ⟨0, 0⟩, false, none⟩

def members : List (Member AuditRow) :=
  [.needed "config_hash" .string (·.configHash) fun a s => { s with configHash := a },
   .needed "applied_at" Instant.codec (·.appliedAt) fun a s => { s with appliedAt := a },
   .needed "success" .bool (·.success) fun a s => { s with success := a },
   .optional "error" .string (·.error) fun a s => { s with error := a }]

def codec : Codec AuditRow := .record blank members

end AuditRow

namespace RecordFile

def empty : RecordFile := ⟨[], Dict.empty⟩

def members : List (Member RecordFile) :=
  [.always "records" (.list RoutingRecord.codec) (·.records) fun a s => { s with records := a },
   .always "settings" (.dict .string) (·.settings) fun a s => { s with settings := a }]

def codec : Codec RecordFile := .record empty members

end RecordFile
end ProxyPlane
