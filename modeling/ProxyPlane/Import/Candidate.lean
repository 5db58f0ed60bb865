import ProxyPlane.Record.Basic

/-!
# Candidates for routing records

A document that somebody else wrote is read for hosts, each of which may become a routing record.

## What is here

* `Candidate`, what was found out about one host, and `Candidate.isActionable`.
* `ImportResult`, the candidates of a document, with the conflicts between and around them.
* `Resolution`, what the user wants done with a candidate, and `toRecords`, which does it.
-/

set_option autoImplicit false
namespace ProxyPlane

open Json (Codec Member)

/-- A host that was found in a document. -/
structure Candidate where
  domainNames : String
  forwardScheme : String
  /-- Empty when no target was found. -/
  forwardHost : String
  /-- Zero when no target was found. -/
  forwardPort : Nat
  sslForced : Bool
  websocketSupport : Bool
  /-- The route that the host was found on, for review. -/
  rawJson : String
  /-- What the route does and a record cannot. -/
  warnings : List String
deriving DecidableEq, Repr, Inhabited

/-- What was found in a document. -/
structure ImportResult where
  hosts : List Candidate
  conflicts : List String
  errors : List String
deriving DecidableEq, Repr, Inhabited

/-- What is to be done with a candidate. -/
inductive Resolution
  | importIt
  | skip
  | rename
deriving DecidableEq, Repr, Inhabited

namespace Candidate

def blank : Candidate := ⟨"", "", "", 0, false, false, "", []⟩

/-- Whether a target was found, so that the candidate can become a record. -/
def isActionable (c : Candidate) : Bool := !c.forwardHost.isEmpty && c.forwardPort != 0

def members : List (Member Candidate) :=
  [.needed "domain_names" .string (·.domainNames) fun a s => { s with domainNames := a },
   .needed "forward_scheme" .string (·.forwardScheme) fun a s => { s with forwardScheme := a },
   .needed "forward_host" .string (·.forwardHost) fun a s => { s with forwardHost := a },
   .needed "forward_port" (.nat portBound) (·.forwardPort) fun a s => { s with forwardPort := a },
   .needed "ssl_forced" .bool (·.sslForced) fun a s => { s with sslForced := a },
   .needed "websocket_support" .bool (·.websocketSupport)
    fun a s => { s with websocketSupport := a },
   .needed "raw_json" .string (·.rawJson) fun a s => { s with rawJson := a },
   .needed "warnings" (.list .string) (·.warnings) fun a s => { s with warnings := a }]

def codec : Codec Candidate := .record blank members

end Candidate

namespace ImportResult

def empty : ImportResult := ⟨[], [], []⟩

def members : List (Member ImportResult) :=
  [.needed "hosts" (.list Candidate.codec) (·.hosts) fun a s => { s with hosts := a },
   .needed "conflicts" (.list .string) (·.conflicts) fun a s => { s with conflicts := a },
   .needed "errors" (.list .string) (·.errors) fun a s => { s with errors := a }]

def codec : Codec ImportResult := .record empty members

/-- The conflict of a domain that the records already manage. -/
def managedConflict (domain : String) : String := s!"Domain '{domain}' is already managed"

/-- The result with a conflict for each candidate whose domain is one of the records' domains. -/
def detectConflicts (r : ImportResult) (existing : List RoutingRecord) : ImportResult :=
  let managed := existing.flatMap (·.domains)
  { r with
    conflicts := r.conflicts ++
      (r.hosts.filter fun c => managed.contains c.domainNames).map
        fun c => managedConflict c.domainNames }

end ImportResult

namespace Resolution

/-- The name of a resolution. -/
def name : Resolution → String
  | importIt => "import"
  | skip => "skip"
  | rename => "rename"

/-- The resolution that a text names, in any case of its letters, or the text in lower case. -/
def read (text : String) : Except String Resolution :=
  let lower := String.ofList (text.toList.map Char.toLower)
  if lower = "import" ∨ lower = "merge" then .ok .importIt
  else if lower = "skip" then .ok .skip
  else if lower = "rename" then .ok .rename
  else .error lower

/-- What is said of a text that names no resolution. -/
def unknownMessage (lower : String) : String := s!"unknown resolution '{lower}'"

/-- What is put behind the domain of a renamed candidate. -/
def renameSuffix : String := "-imported"

/-- The domain that a candidate is imported under, if it is imported. -/
def domain? (r : Resolution) (domain : String) : Option String :=
  match r with
  | skip => none
  | rename => some (domain ++ renameSuffix)
  | importIt => some domain

end Resolution

/-- The record of a candidate under a domain. -/
def Candidate.toRecord (c : Candidate) (id domain : String) : RoutingRecord :=
  { RoutingRecord.create id domain c.forwardHost c.forwardPort with
    forwardScheme := c.forwardScheme
    sslForced := c.sslForced
    websocketSupport := c.websocketSupport }

/-- The records of the candidates that have a target and are not to be skipped, with identifiers
from a supply.  A candidate without a resolution is imported. -/
def toRecords (ids : Nat → String) (resolutions : Dict Resolution) :
    List Candidate → List RoutingRecord
  | [] => []
  | c :: rest =>
    let domain := ((resolutions.get? c.domainNames).getD .importIt).domain? c.domainNames
    match if c.isActionable then domain else none with
    | some d => c.toRecord (ids 0) d :: toRecords (fun n => ids (n + 1)) resolutions rest
    | none => toRecords ids resolutions rest

end ProxyPlane
