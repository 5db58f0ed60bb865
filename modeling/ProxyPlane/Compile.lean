import ProxyPlane.Address
import ProxyPlane.Document.Basic
import ProxyPlane.Path
import ProxyPlane.Record.Basic

/-!
# From routing records to a document

## What is here

* `compile`, the document of a list of records.  Disabled records leave no trace, and an enabled
  record without a domain is refused.
* `recordRoutes`, the routes of one record: one for each of its path rules, in their order, and then
  one for everything else.
* `logRoot`, the directory of the access log, two levels above that of the certificates.
-/

set_option autoImplicit false
namespace ProxyPlane

/-- Why records have no document. -/
inductive CompileError
  | emptyDomain (record : String)
deriving DecidableEq, Repr, Inhabited

/-- One line for people. -/
def CompileError.message : CompileError → String
  | emptyDomain record => s!"proxy host {record} has empty domain names"

namespace Compile

/-- The name of the one server. -/
def serverName : String := "srv0"

/-- Where the server listens. -/
def listen : List String := [":80", ":443"]

/-- The name that requests are logged under. -/
def accessLogger : String := "access_log"

/-- Whether a scheme is that of HTTPS, in any case of its letters. -/
def isHttps (scheme : String) : Bool :=
  scheme.toList.map Char.toLower == ['h', 't', 't', 'p', 's']

/-- The patterns of a path rule: the path, and everything below it. -/
def pathPatterns (path : String) : List String := [path, trimEndChar '/' path ++ "/*"]

/-- The value of the header field that tells clients to use HTTPS from now on. -/
def hstsValue (subdomains : Bool) : String :=
  if subdomains then "max-age=31536000; includeSubDomains" else "max-age=31536000"

/-- The handler that sends requests to a target. -/
def target (scheme host : String) (port : Nat) (upgrade : Bool) : Handler :=
  .proxyTo (Address.join host port) upgrade (isHttps scheme)

/-- The route of a path rule for the domains of its record. -/
def pathRoute (domains : List String) (upgrade : Bool) (rule : PathRule) : Route :=
  { Route.empty with
    matchers :=
      [{ MatcherSet.empty with host := domains, path := pathPatterns rule.path }]
    handle := [target rule.forwardScheme rule.forwardHost rule.forwardPort upgrade]
    terminal := true }

/-- The handlers of a record's own route, in their fixed order. -/
def recordHandlers (r : RoutingRecord) : List Handler :=
  (if r.hstsEnabled then
    [.responseHeader "Strict-Transport-Security" (hstsValue r.hstsSubdomains)] else []) ++
  (if r.blockExploits then [.blockExploits] else []) ++
  [target r.forwardScheme r.forwardHost r.forwardPort r.websocketSupport]

/-- The route of a record for all that its path rules leave. -/
def catchAllRoute (domains : List String) (r : RoutingRecord) : Route :=
  { Route.empty with
    matchers := [{ MatcherSet.empty with host := domains }]
    handle := recordHandlers r
    terminal := true }

/-- The routes of a record. -/
def recordRoutes (r : RoutingRecord) : List Route :=
  r.locations.map (pathRoute r.domains r.websocketSupport) ++ [catchAllRoute r.domains r]

/-- The routes of the enabled records, in their order. -/
def routes : List RoutingRecord → Except CompileError (List Route)
  | [] => .ok []
  | r :: rest =>
    if !r.enabled then routes rest
    else if r.domains.isEmpty then .error (.emptyDomain r.id)
    else (routes rest).map fun more => recordRoutes r ++ more

/-- The directory of the logs: beside the one that holds the storage root. -/
def logRoot (storageRoot : String) : String :=
  Path.join (((Path.parent? storageRoot).bind Path.parent?).getD "") "logs"

/-- An issuer of certificates. -/
def issuer (module email : String) : Dict Json :=
  (Dict.empty.insert "module" (.string module)).insert "email" (.string email)

/-- Certificate management for an e-mail address, if one is given. -/
def tlsApp (email : String) : Option TlsApp :=
  if email.isEmpty then none
  else some
    { TlsApp.empty with
      automation := some
        { Automation.empty with
          policies :=
            [{ AutomationPolicy.empty with
               issuers := [issuer "acme" email, issuer "zerossl" email] }] } }

/-- The access log: JSON lines in a file that is rolled. -/
def accessLogging (logRoot : String) : Logging :=
  { Logging.empty with
    logs := Dict.empty.insert "access"
      { LogConfig.empty with
        writer := some
          { LogWriter.empty with
            output := "file"
            filename := some (Path.join logRoot "access.log")
            roll := some true
            rollSizeMb := some 10
            rollKeep := some 5
            rollKeepDays := some 7 }
        encoder := some { LogEncoder.empty with format := "json" }
        level := some "INFO"
        loggers := ["http.log.access." ++ accessLogger] } }

/-- The server of a list of routes. -/
def server (routes : List Route) : Server :=
  { Server.empty with
    listen := listen
    routes := routes
    automaticHttps := some AutoHttps.empty
    logs := some { ServerLogs.empty with defaultLoggerName := some accessLogger } }

/-- The document around a list of routes. -/
def document (storageRoot email : String) (routes : List Route) : Document :=
  { Document.empty with
    logging := some (accessLogging (logRoot storageRoot))
    apps :=
      { Apps.empty with
        http := some
          { HttpApp.empty with servers := Dict.empty.insert serverName (server routes) }
        tls := tlsApp email }
    storage := some { Storage.empty with module := "file_system", root := storageRoot } }

end Compile

/-- The document of a list of records. -/
def compile (records : List RoutingRecord) (storageRoot email : String) :
    Except CompileError Document :=
  (Compile.routes records).map (Compile.document storageRoot email)

end ProxyPlane
