import ProxyPlane.Digest.Sha256
import ProxyPlane.Document.Handler

/-!
# Proxy documents

The proxy takes its whole configuration as one JSON document: servers with their routes, certificate
automation, logging and storage.  Each section keeps the members that it does not know.

## What is here

* The sections, from `Document` down to `Route` and `MatcherSet`, each with its JSON form `codec`.
* `Document.isEmpty`, `Document.servers` and `Route.hosts`.
* `Document.compact`, the text sent to the proxy, `Document.pretty`, the text kept in snapshots, and
  `Document.digest`, which identifies a document.
-/

set_option autoImplicit false
namespace ProxyPlane

open Json (Codec Member)

/-! ## Servers and routes -/

/-- Conditions on a request, all of which must hold; an empty list is no condition. -/
structure MatcherSet where
  host : List String
  path : List String
  extra : Dict Json
deriving DecidableEq, Inhabited

/-- Handlers for the requests that one of the matcher sets accepts; no sets accept all. -/
structure Route where
  matchers : List MatcherSet
  handle : List Handler
  terminal : Bool
  extra : Dict Json
deriving DecidableEq, Inhabited

/-- The names that requests are logged under. -/
structure ServerLogs where
  defaultLoggerName : Option String
  extra : Dict Json
deriving DecidableEq, Inhabited

/-- How a server obtains certificates and redirects to HTTPS by itself. -/
structure AutoHttps where
  disable : Bool
  disableRedirects : Bool
  skip : List String
  extra : Dict Json
deriving DecidableEq, Inhabited

/-- A server: where it listens, and its routes, the first matching one of which serves. -/
structure Server where
  listen : List String
  routes : List Route
  automaticHttps : Option AutoHttps
  logs : Option ServerLogs
  tlsConnectionPolicies : Option Json
  extra : Dict Json
deriving DecidableEq, Inhabited

/-- The servers by name. -/
structure HttpApp where
  servers : Dict Server
  extra : Dict Json
deriving DecidableEq, Inhabited

/-! ## Certificates -/

/-- Who issues the certificates of some subjects; an issuer is an object of any shape. -/
structure AutomationPolicy where
  subjects : List String
  issuers : List (Dict Json)
  extra : Dict Json
deriving DecidableEq, Inhabited

/-- The policies of certificate automation. -/
structure Automation where
  policies : List AutomationPolicy
  extra : Dict Json
deriving DecidableEq, Inhabited

/-- Certificate management. -/
structure TlsApp where
  automation : Option Automation
  extra : Dict Json
deriving DecidableEq, Inhabited

/-! ## Logging and storage -/

/-- Where a log is written, and when a log file is rolled. -/
structure LogWriter where
  output : String
  filename : Option String
  roll : Option Bool
  rollSizeMb : Option Nat
  rollKeep : Option Nat
  rollKeepDays : Option Nat
  extra : Dict Json
deriving DecidableEq, Inhabited

/-- The format of log lines. -/
structure LogEncoder where
  format : String
  extra : Dict Json
deriving DecidableEq, Inhabited

/-- One log. -/
structure LogConfig where
  writer : Option LogWriter
  encoder : Option LogEncoder
  level : Option String
  loggers : List String
  extra : Dict Json
deriving DecidableEq, Inhabited

/-- The logs by name. -/
structure Logging where
  logs : Dict LogConfig
  extra : Dict Json
deriving DecidableEq, Inhabited

/-- Where certificates are kept. -/
structure Storage where
  module : String
  root : String
  extra : Dict Json
deriving DecidableEq, Inhabited

/-! ## Documents -/

/-- The application modules. -/
structure Apps where
  http : Option HttpApp
  tls : Option TlsApp
  extra : Dict Json
deriving DecidableEq, Inhabited

/-- A whole document. -/
structure Document where
  logging : Option Logging
  apps : Apps
  storage : Option Storage
  extra : Dict Json
deriving DecidableEq, Inhabited

/-! ## Forms -/

namespace MatcherSet

def empty : MatcherSet := ⟨[], [], Dict.empty⟩

def members : List (Member MatcherSet) :=
  [.unlessEmpty List.isEmpty "host" (.list .string) (·.host) fun a s => { s with host := a },
   .unlessEmpty List.isEmpty "path" (.list .string) (·.path) fun a s => { s with path := a }]

def codec : Codec MatcherSet :=
  .document empty members (·.extra) fun e s => { s with extra := e }

end MatcherSet

namespace Route

def empty : Route := ⟨[], [], false, Dict.empty⟩

def members : List (Member Route) :=
  [.unlessEmpty List.isEmpty "match" (.list MatcherSet.codec) (·.matchers)
    fun a s => { s with matchers := a },
   .always "handle" (.list Handler.codec) (·.handle) fun a s => { s with handle := a },
   .always "terminal" .bool (·.terminal) fun a s => { s with terminal := a }]

def codec : Codec Route :=
  .document empty members (·.extra) fun e s => { s with extra := e }

/-- The hosts that a route names, over all its matcher sets. -/
def hosts (r : Route) : List String := r.matchers.flatMap (·.host)

end Route

namespace ServerLogs

def empty : ServerLogs := ⟨none, Dict.empty⟩

def members : List (Member ServerLogs) :=
  [.optional "default_logger_name" .string (·.defaultLoggerName)
    fun a s => { s with defaultLoggerName := a }]

def codec : Codec ServerLogs :=
  .document empty members (·.extra) fun e s => { s with extra := e }

end ServerLogs

namespace AutoHttps

def empty : AutoHttps := ⟨false, false, [], Dict.empty⟩

def members : List (Member AutoHttps) :=
  [.unlessEmpty not "disable" .bool (·.disable) fun a s => { s with disable := a },
   .unlessEmpty not "disable_redirects" .bool (·.disableRedirects)
    fun a s => { s with disableRedirects := a },
   .unlessEmpty List.isEmpty "skip" (.list .string) (·.skip) fun a s => { s with skip := a }]

def codec : Codec AutoHttps :=
  .document empty members (·.extra) fun e s => { s with extra := e }

end AutoHttps

namespace Server

def empty : Server := ⟨[], [], none, none, none, Dict.empty⟩

def members : List (Member Server) :=
  [.always "listen" (.list .string) (·.listen) fun a s => { s with listen := a },
   .always "routes" (.list Route.codec) (·.routes) fun a s => { s with routes := a },
   .optional "automatic_https" AutoHttps.codec (·.automaticHttps)
    fun a s => { s with automaticHttps := a },
   .optional "logs" ServerLogs.codec (·.logs) fun a s => { s with logs := a },
   .optional "tls_connection_policies" .any (·.tlsConnectionPolicies)
    fun a s => { s with tlsConnectionPolicies := a }]

def codec : Codec Server :=
  .document empty members (·.extra) fun e s => { s with extra := e }

end Server

namespace HttpApp

def empty : HttpApp := ⟨Dict.empty, Dict.empty⟩

def members : List (Member HttpApp) :=
  [.always "servers" (.dict Server.codec) (·.servers) fun a s => { s with servers := a }]

def codec : Codec HttpApp :=
  .document empty members (·.extra) fun e s => { s with extra := e }

end HttpApp

namespace AutomationPolicy

def empty : AutomationPolicy := ⟨[], [], Dict.empty⟩

def members : List (Member AutomationPolicy) :=
  [.unlessEmpty List.isEmpty "subjects" (.list .string) (·.subjects)
    fun a s => { s with subjects := a },
   .unlessEmpty List.isEmpty "issuers" (.list .fields) (·.issuers)
    fun a s => { s with issuers := a }]

def codec : Codec AutomationPolicy :=
  .document empty members (·.extra) fun e s => { s with extra := e }

end AutomationPolicy

namespace Automation

def empty : Automation := ⟨[], Dict.empty⟩

def members : List (Member Automation) :=
  [.unlessEmpty List.isEmpty "policies" (.list AutomationPolicy.codec) (·.policies)
    fun a s => { s with policies := a }]

def codec : Codec Automation :=
  .document empty members (·.extra) fun e s => { s with extra := e }

end Automation

namespace TlsApp

def empty : TlsApp := ⟨none, Dict.empty⟩

def members : List (Member TlsApp) :=
  [.optional "automation" Automation.codec (·.automation) fun a s => { s with automation := a }]

def codec : Codec TlsApp :=
  .document empty members (·.extra) fun e s => { s with extra := e }

end TlsApp

namespace LogWriter

def empty : LogWriter := ⟨"", none, none, none, none, none, Dict.empty⟩

def members : List (Member LogWriter) :=
  [.always "output" .string (·.output) fun a s => { s with output := a },
   .optional "filename" .string (·.filename) fun a s => { s with filename := a },
   .optional "roll" .bool (·.roll) fun a s => { s with roll := a },
   .optional "roll_size_mb" (.nat (Nat.pow 2 32)) (·.rollSizeMb)
    fun a s => { s with rollSizeMb := a },
   .optional "roll_keep" (.nat (Nat.pow 2 32)) (·.rollKeep) fun a s => { s with rollKeep := a },
   .optional "roll_keep_days" (.nat (Nat.pow 2 32)) (·.rollKeepDays)
    fun a s => { s with rollKeepDays := a }]

def codec : Codec LogWriter :=
  .document empty members (·.extra) fun e s => { s with extra := e }

end LogWriter

namespace LogEncoder

def empty : LogEncoder := ⟨"", Dict.empty⟩

def members : List (Member LogEncoder) :=
  [.always "format" .string (·.format) fun a s => { s with format := a }]

def codec : Codec LogEncoder :=
  .document empty members (·.extra) fun e s => { s with extra := e }

end LogEncoder

namespace LogConfig

def empty : LogConfig := ⟨none, none, none, [], Dict.empty⟩

def members : List (Member LogConfig) :=
  [.optional "writer" LogWriter.codec (·.writer) fun a s => { s with writer := a },
   .optional "encoder" LogEncoder.codec (·.encoder) fun a s => { s with encoder := a },
   .optional "level" .string (·.level) fun a s => { s with level := a },
   .unlessEmpty List.isEmpty "include" (.list .string) (·.loggers)
    fun a s => { s with loggers := a }]

def codec : Codec LogConfig :=
  .document empty members (·.extra) fun e s => { s with extra := e }

end LogConfig

namespace Logging

def empty : Logging := ⟨Dict.empty, Dict.empty⟩

def members : List (Member Logging) :=
  [.always "logs" (.dict LogConfig.codec) (·.logs) fun a s => { s with logs := a }]

def codec : Codec Logging :=
  .document empty members (·.extra) fun e s => { s with extra := e }

end Logging

namespace Storage

def empty : Storage := ⟨"", "", Dict.empty⟩

def members : List (Member Storage) :=
  [.always "module" .string (·.module) fun a s => { s with module := a },
   .always "root" .string (·.root) fun a s => { s with root := a }]

def codec : Codec Storage :=
  .document empty members (·.extra) fun e s => { s with extra := e }

end Storage

namespace Apps

def empty : Apps := ⟨none, none, Dict.empty⟩

/-- Whether no module is configured. -/
def isEmpty (a : Apps) : Bool := a.http.isNone && a.tls.isNone && a.extra.isEmpty

def members : List (Member Apps) :=
  [.optional "http" HttpApp.codec (·.http) fun a s => { s with http := a },
   .optional "tls" TlsApp.codec (·.tls) fun a s => { s with tls := a }]

def codec : Codec Apps :=
  .document empty members (·.extra) fun e s => { s with extra := e }

end Apps

namespace Document

def empty : Document := ⟨none, Apps.empty, none, Dict.empty⟩

def members : List (Member Document) :=
  [.optional "logging" Logging.codec (·.logging) fun a s => { s with logging := a },
   .unlessEmpty Apps.isEmpty "apps" Apps.codec (·.apps) fun a s => { s with apps := a },
   .optional "storage" Storage.codec (·.storage) fun a s => { s with storage := a }]

def codec : Codec Document :=
  .document empty members (·.extra) fun e s => { s with extra := e }

/-- Whether nothing at all is configured. -/
def isEmpty (d : Document) : Bool :=
  d.logging.isNone && d.apps.isEmpty && d.storage.isNone && d.extra.isEmpty

/-- The servers with their names, in the order of the names. -/
def servers (d : Document) : List (String × Server) :=
  match d.apps.http with
  | some http => http.servers.entries
  | none => []

/-- The text that is sent to the proxy. -/
def compact (d : Document) : Bytes := codec.compact d

/-- The text that is kept in a snapshot. -/
def pretty (d : Document) : Bytes := codec.pretty d

/-- The document of a text. -/
def decode (bs : Bytes) : Except Json.Error Document := codec.decode bs

/-- The digest by which documents are told apart: SHA-256 of the compact text, in hexadecimal. -/
def digest (d : Document) : String := Sha256.hexDigest d.compact

end Document
end ProxyPlane
