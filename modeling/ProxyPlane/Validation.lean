import ProxyPlane.Address
import ProxyPlane.Document.Basic
import ProxyPlane.Net.IpLiteral

/-!
# Validation of documents

A document is checked before it is kept or sent to the proxy, and the first violation is reported.

## What is here

* `ListenError`, `HandlerError` and `ValidationError`, the violations with their messages.
* `Validation.listenAddress`: host and port, with an optional network in front.
* `Validation.claimRoute`: a host-only matcher set claims its hosts for the rest of the server;
  sets with paths may come before, each pair of host and path once.
* `validate`, for documents, and `validateValue`, for JSON values of any shape.
-/

set_option autoImplicit false
namespace ProxyPlane

/-- What is wrong with an address to listen on. -/
inductive ListenError
  | format (source : AddressError)
  | badPort (text : String)
  | portRange (port : Nat)
  | ip (text : String)
deriving DecidableEq, Repr, Inhabited

/-- What is wrong with a handler. -/
inductive HandlerError
  | missingKind
  | malformedReverseProxy
  | noBackends
  | missingDial (index : Nat)
  | invalidDial (index : Nat) (dial : String) (source : AddressError)
deriving DecidableEq, Repr, Inhabited

/-- What is wrong with a document. -/
inductive ValidationError
  | nilConfig
  | decode (source : Json.Error)
  | missingHttpApp
  | noListenAddresses (server : String)
  | invalidListen (server addr : String) (reason : ListenError)
  | noHandlers (server : String) (route : Nat)
  | duplicateHost (server : String) (route : Nat) (host : String)
  | shadowedPath (server : String) (route : Nat) (host path : String)
  | invalidHandler (server : String) (route handler : Nat) (reason : HandlerError)
deriving DecidableEq, Repr, Inhabited

/-- One line for people. -/
def ListenError.message : ListenError → String
  | format source => s!"invalid address format: {source.message}"
  | badPort text => s!"invalid port: {text}"
  | portRange port => s!"port {port} out of range (1-65535)"
  | ip text => s!"invalid IP address: {text}"

/-- One line for people. -/
def HandlerError.message : HandlerError → String
  | missingKind => "handler missing 'handler' field"
  | malformedReverseProxy => "reverse_proxy fields are malformed"
  | noBackends => "reverse_proxy has no upstreams"
  | missingDial index => s!"upstream {index} missing dial address"
  | invalidDial index dial source =>
    s!"upstream {index} has invalid dial address {dial}: {source.message}"

/-- One line for people. -/
def ValidationError.message : ValidationError → String
  | nilConfig => "config cannot be null"
  | decode source => s!"config does not decode: {source.message}"
  | missingHttpApp => "config has content but no http app"
  | noListenAddresses server => s!"server {server} has no listen addresses"
  | invalidListen server addr reason =>
    s!"invalid listen address {addr} in server {server}: {reason.message}"
  | noHandlers server route => s!"invalid route {route} in server {server}: route has no handlers"
  | duplicateHost server route host =>
    s!"invalid route {route} in server {server}: duplicate host matcher: {host}"
  | shadowedPath server route host path =>
    s!"invalid route {route} in server {server}: duplicate host matcher: {host} " ++
      s!"(path {path} is unreachable after the host's catch-all route)"
  | invalidHandler server route handler reason =>
    s!"invalid route {route} in server {server}: invalid handler {handler}: {reason.message}"

namespace Validation

/-! ## Addresses -/

/-- An address to listen on without the network in front of its first slash. -/
def withoutNetwork (addr : String) : String :=
  match cutFirst? '/' addr.toList with
  | some (_, rest) => String.ofList rest
  | none => addr

/-- An address to listen on: a port from 1 to 65535, and no host or an IP literal. -/
def listenAddress (addr : String) : Except ListenError Unit :=
  match Address.split (withoutNetwork addr) with
  | .error e => .error (.format e)
  | .ok (host, port) =>
    match Numeral.u64? port with
    | none => .error (.badPort port)
    | some n =>
      if n < 1 ∨ 65535 < n then .error (.portRange n)
      else if !host.isEmpty && !Ip.isLiteral host then .error (.ip host)
      else .ok ()

/-! ## Hosts -/

/-- The hosts of a server that are claimed so far: outright, and for single paths. -/
structure Claims where
  catchAll : List String
  byPath : List (String × String)
deriving DecidableEq, Repr, Inhabited

/-- Nothing is claimed. -/
def Claims.none : Claims := ⟨[], []⟩

/-- Claim a host for some paths. -/
def claimPaths (server : String) (route : Nat) (host : String) :
    List String → Claims → Except ValidationError Claims
  | [], c => .ok c
  | p :: rest, c =>
    if c.catchAll.contains host then .error (.shadowedPath server route host p)
    else if c.byPath.contains (host, p) then .error (.duplicateHost server route host)
    else claimPaths server route host rest { c with byPath := (host, p) :: c.byPath }

/-- Claim a host: outright if there are no paths. -/
def claimHost (server : String) (route : Nat) (paths : List String) (host : String) (c : Claims) :
    Except ValidationError Claims :=
  if paths.isEmpty then
    if c.catchAll.contains host then .error (.duplicateHost server route host)
    else .ok { c with catchAll := host :: c.catchAll }
  else claimPaths server route host paths c

/-- Claim the hosts of a matcher set. -/
def claimHosts (server : String) (route : Nat) (paths : List String) :
    List String → Claims → Except ValidationError Claims
  | [], c => .ok c
  | h :: rest, c => (claimHost server route paths h c).bind (claimHosts server route paths rest)

/-- Claim the hosts of some matcher sets. -/
def claimSets (server : String) (route : Nat) :
    List MatcherSet → Claims → Except ValidationError Claims
  | [], c => .ok c
  | m :: rest, c => (claimHosts server route m.path m.host c).bind (claimSets server route rest)

/-- Claim the hosts of a route. -/
def claimRoute (server : String) (route : Nat) (r : Route) (c : Claims) :
    Except ValidationError Claims :=
  claimSets server route r.matchers c

/-! ## Handlers -/

/-- The servers of a reverse proxy, counted from `index`: each has an address with a port. -/
def backends (index : Nat) : List Backend → Except HandlerError Unit
  | [] => .ok ()
  | u :: rest =>
    if u.dial.isEmpty then .error (.missingDial index)
    else
      match Address.split u.dial with
      | .error e => .error (.invalidDial index u.dial e)
      | .ok (_, port) =>
        if port.isEmpty then .error (.invalidDial index u.dial (.missingPort u.dial))
        else backends (index + 1) rest

/-- A handler: reverse proxies have servers to dial, and every other object names its kind. -/
def handler : Handler → Except HandlerError Unit
  | .reverseProxy proxy =>
    if proxy.backends.isEmpty then .error .noBackends else backends 0 proxy.backends
  | .passthrough fields =>
    match Handler.kindOf fields with
    | none => .error .missingKind
    | some kind => if kind = "reverse_proxy" then .error .malformedReverseProxy else .ok ()
  | .headers _ | .blockExploits => .ok ()

/-- The handlers of a route, counted from `index`. -/
def handlers (server : String) (route index : Nat) : List Handler → Except ValidationError Unit
  | [] => .ok ()
  | h :: rest =>
    match handler h with
    | .error e => .error (.invalidHandler server route index e)
    | .ok () => handlers server route (index + 1) rest

/-! ## Servers -/

/-- The addresses of a server. -/
def listenAddresses (server : String) : List String → Except ValidationError Unit
  | [] => .ok ()
  | a :: rest =>
    match listenAddress a with
    | .error e => .error (.invalidListen server a e)
    | .ok () => listenAddresses server rest

/-- One route after those whose claims are given. -/
def route (server : String) (index : Nat) (r : Route) (c : Claims) :
    Except ValidationError Claims :=
  if r.handle.isEmpty then .error (.noHandlers server index)
  else (claimRoute server index r c).bind fun c => (handlers server index 0 r.handle).map fun _ => c

/-- The routes of a server, counted from `index`. -/
def routes (server : String) (index : Nat) : List Route → Claims → Except ValidationError Claims
  | [], c => .ok c
  | r :: rest, c => (route server index r c).bind (routes server (index + 1) rest)

/-- One server. -/
def server (name : String) (s : Server) : Except ValidationError Unit :=
  if s.listen.isEmpty then .error (.noListenAddresses name)
  else (listenAddresses name s.listen).bind fun _ =>
    (routes name 0 s.routes Claims.none).map fun _ => ()

/-- The servers of a document. -/
def servers : List (String × Server) → Except ValidationError Unit
  | [] => .ok ()
  | (name, s) :: rest => (server name s).bind fun _ => servers rest

end Validation

/-- A document that may be sent to the proxy: its servers are well formed, and only an empty
document may do without any. -/
def validate (d : Document) : Except ValidationError Unit :=
  match d.apps.http with
  | none => if d.isEmpty then .ok () else .error .missingHttpApp
  | some http => Validation.servers http.servers.entries

/-- The same for a JSON value, which must be a document. -/
def validateValue (v : Json) : Except ValidationError Unit :=
  match v with
  | .null => .error .nilConfig
  | v =>
    match Document.codec.ofValue v with
    | .error e => .error (.decode e)
    | .ok d => validate d

end ProxyPlane
