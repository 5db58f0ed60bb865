import ProxyPlane.Address
import ProxyPlane.Document.Basic
import ProxyPlane.Import.Candidate

/-!
# Finding hosts in a document

The hosts of a document are read in the order of its servers, routes and matcher sets.  A matcher
set without paths owns its hosts; one with paths only stands in until the host's own route is found.

## What is here

* `flatten`, the handlers of a route with those of nested routes in place of the handlers that hold
  them.
* `Occurrence` and `Document.occurrences`, every place where a document names a host.
* `Occurrence.candidate`, what a place says about its host.
* `extractDocument` and `extract`, the candidates of a document and of its text.
-/

set_option autoImplicit false
namespace ProxyPlane

/-! ## Nested routes -/

namespace Handler

/-- How deep arrays and objects are nested in the object of a handler that is carried along. -/
def depth : Handler → Nat
  | passthrough fields => (Json.ofDict fields).height
  | _ => 0

/-- The greatest depth of some handlers. -/
def maxDepth (hs : List Handler) : Nat := (hs.map depth).foldr max 0

/-- The nested routes of a handler that holds some; none if they cannot be read. -/
def subroutes (fields : Dict Json) : List Route :=
  match fields.get? "routes" with
  | none => []
  | some v =>
    match (Json.Codec.list Route.codec).ofValue v with
    | .ok routes => routes
    | .error _ => []

/-- What stands for a handler: the handler itself, or what `inner` makes of the handlers of its
nested routes. -/
def expand (inner : List Handler → List Handler) : Handler → List Handler
  | .passthrough fields =>
    if kindOf fields = some "subroute" then (subroutes fields).flatMap fun r => inner r.handle
    else [.passthrough fields]
  | h => [h]

/-- Handlers with those of nested routes in their place, nested at most so deep. -/
def flattenUpTo : Nat → List Handler → List Handler
  | 0, hs => hs.flatMap (expand fun _ => [])
  | limit + 1, hs => hs.flatMap (expand (flattenUpTo limit))

/-- The handlers of a route in the order in which they run, those of nested routes in place of the
handlers that hold them. -/
def flatten (hs : List Handler) : List Handler := flattenUpTo (maxDepth hs) hs

end Handler

/-! ## Places that name a host -/

/-- A place in a document that names a host. -/
structure Occurrence where
  host : String
  /-- The matcher set has no paths, so that it owns its hosts. -/
  pathless : Bool
  serverName : String
  server : Server
  index : Nat
  route : Route

/-- The places in a route. -/
def Route.occurrences (serverName : String) (server : Server) (index : Nat) (r : Route) :
    List Occurrence :=
  r.matchers.flatMap fun m =>
    m.host.map fun h => ⟨h, m.path.isEmpty, serverName, server, index, r⟩

/-- The places in the routes of a server, counted from `index`. -/
def routesOccurrences (serverName : String) (server : Server) :
    Nat → List Route → List Occurrence
  | _, [] => []
  | index, r :: rest =>
    r.occurrences serverName server index ++ routesOccurrences serverName server (index + 1) rest

/-- The places in a document that name a host, in order. -/
def Document.occurrences (d : Document) : List Occurrence :=
  d.servers.flatMap fun e => routesOccurrences e.1 e.2 0 e.2.routes

/-! ## Candidates -/

namespace Occurrence

/-- What is said of a route that changes requests on their way. -/
def changeWarning : String := "Rewrite rules not supported - manual configuration required"

/-- What is said of a route that serves files. -/
def fileServerWarning : String := "File server directives not supported"

/-- What is said of a handler that records cannot express. -/
def warning? (h : Handler) : Option String :=
  match h.kind? with
  | some "rewrite" => some changeWarning
  | some "file_server" => some fileServerWarning
  | _ => none

/-- The first reverse proxy among some handlers. -/
def proxy? (hs : List Handler) : Option ReverseProxy :=
  hs.findSome? fun
    | .reverseProxy p => some p
    | _ => none

/-- The target of a candidate taken from the first server of a reverse proxy. -/
def withProxy (p : ReverseProxy) (c : Candidate) : Candidate :=
  let c := match p.backends with
    | [] => c
    | u :: _ =>
      match Address.split u.dial with
      | .ok (host, port) =>
        { c with forwardHost := host, forwardPort := (Numeral.u16? port).getD 0 }
      | .error _ => c
  { c with
    websocketSupport := p.passesUpgrade
    forwardScheme := if p.usesTls then "https" else c.forwardScheme }

/-- The route of a place, with its server and index, as text for review. -/
def rawJson (o : Occurrence) : String :=
  Json.text (.object
    [("data", (Route.codec.encode o.route).normalize),
     ("route", .ofNat o.index),
     ("server", .string o.serverName)])

/-- What a place says about its host. -/
def candidate (o : Occurrence) : Candidate :=
  let hs := Handler.flatten o.route.handle
  let c : Candidate :=
    { Candidate.blank with
      domainNames := o.host
      forwardScheme := "http"
      sslForced :=
        "https".toList.isPrefixOf o.host.toList || o.server.tlsConnectionPolicies.isSome
      warnings := hs.filterMap warning?
      rawJson := o.rawJson }
  match proxy? hs with
  | some p => withProxy p c
  | none => c

end Occurrence

/-! ## Extraction -/

/-- A host that was found, at the place that speaks for it. -/
structure Slot where
  place : Occurrence
  /-- The place owns the host. -/
  claimed : Bool

/-- The hosts found so far, and the hosts that a second place would own. -/
structure Findings where
  slots : List Slot
  duplicates : List String

namespace Findings

/-- Nothing is found. -/
def none : Findings := ⟨[], []⟩

/-- The slot of a host. -/
def slot? (f : Findings) (host : String) : Option Slot :=
  f.slots.find? fun s => s.place.host == host

/-- The findings with one more place: a new host gets a slot, an owner takes over from a stand-in,
and a second owner is a duplicate. -/
def add (f : Findings) (o : Occurrence) : Findings :=
  match f.slot? o.host with
  | Option.none => { f with slots := f.slots ++ [⟨o, o.pathless⟩] }
  | some s =>
    if !o.pathless then f
    else if s.claimed then { f with duplicates := f.duplicates ++ [o.host] }
    else
      { f with
        slots := f.slots.map fun s => if s.place.host == o.host then ⟨o, true⟩ else s }

end Findings

/-- The conflict of a host that two places would own. -/
def duplicateConflict (host : String) : String := s!"Duplicate domain detected: {host}"

/-- The candidates of a document. -/
def extractDocument (d : Document) : ImportResult :=
  let f := d.occurrences.foldl Findings.add Findings.none
  ⟨f.slots.map fun s => s.place.candidate, f.duplicates.map duplicateConflict, []⟩

/-- The candidates of the text of a document. -/
def extract (bs : Bytes) : Except Json.Error ImportResult :=
  (Document.decode bs).map extractDocument

end ProxyPlane
