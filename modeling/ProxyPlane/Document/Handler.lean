import ProxyPlane.Json.Codec

/-!
# Route handlers

A handler is an object whose member `handler` names its kind.  The proxy knows many kinds; those
that the compiler writes or the validator looks into have types of their own here, and every other
object is carried along unchanged.

## What is here

* `Handler` with its kinds: header rules, blocking of common exploits, reverse proxies, and objects
  of any other kind.
* `Handler.ofFields` and `Handler.toFields`: between handlers and the objects that write them.  A
  known kind whose members do not fit is carried along like an unknown one.
* `Handler.proxyTo` and `Handler.responseHeader`, the handlers that the compiler builds.
-/

set_option autoImplicit false
namespace ProxyPlane

open Json (Codec Member)

/-- Changes to a set of header fields. -/
structure HeaderOps where
  set : Dict (List String)
  extra : Dict Json
deriving DecidableEq, Inhabited

/-- Changes to the header fields of requests and of responses. -/
structure HeaderRules where
  request : Option HeaderOps
  response : Option HeaderOps
  extra : Dict Json
deriving DecidableEq, Inhabited

/-- A server that a reverse proxy dials. -/
structure Backend where
  dial : String
  extra : Dict Json
deriving DecidableEq, Inhabited

/-- A reverse proxy to one or more servers. -/
structure ReverseProxy where
  backends : List Backend
  headers : Option HeaderRules
  transport : Option Json
  extra : Dict Json
deriving DecidableEq, Inhabited

/-- One handler of a route. -/
inductive Handler
  | headers (rules : HeaderRules)
  | blockExploits
  | reverseProxy (proxy : ReverseProxy)
  | passthrough (fields : Dict Json)
deriving DecidableEq, Inhabited

/-! ## Forms -/

namespace HeaderOps

def empty : HeaderOps := ⟨Dict.empty, Dict.empty⟩

def members : List (Member HeaderOps) :=
  [.unlessEmpty Dict.isEmpty "set" (.dict (.list .string)) (·.set) fun a s => { s with set := a }]

def codec : Codec HeaderOps :=
  .document empty members (·.extra) fun e s => { s with extra := e }

end HeaderOps

namespace HeaderRules

def empty : HeaderRules := ⟨none, none, Dict.empty⟩

def members : List (Member HeaderRules) :=
  [.optional "request" HeaderOps.codec (·.request) fun a s => { s with request := a },
   .optional "response" HeaderOps.codec (·.response) fun a s => { s with response := a }]

def codec : Codec HeaderRules :=
  .document empty members (·.extra) fun e s => { s with extra := e }

end HeaderRules

namespace Backend

def empty : Backend := ⟨"", Dict.empty⟩

def members : List (Member Backend) :=
  [.always "dial" .string (·.dial) fun a s => { s with dial := a }]

def codec : Codec Backend :=
  .document empty members (·.extra) fun e s => { s with extra := e }

end Backend

namespace ReverseProxy

def empty : ReverseProxy := ⟨[], none, none, Dict.empty⟩

def members : List (Member ReverseProxy) :=
  [.always "upstreams" (.list Backend.codec) (·.backends) fun a s => { s with backends := a },
   .optional "headers" HeaderRules.codec (·.headers) fun a s => { s with headers := a },
   .optional "transport" .any (·.transport) fun a s => { s with transport := a }]

def codec : Codec ReverseProxy :=
  .document empty members (·.extra) fun e s => { s with extra := e }

/-- Whether clients may upgrade their connection: the request header `Upgrade` is passed on. -/
def passesUpgrade (p : ReverseProxy) : Bool :=
  match p.headers with
  | some rules =>
    match rules.request with
    | some ops => ops.set.contains "Upgrade"
    | none => false
  | none => false

/-- Whether the servers are dialled over TLS. -/
def usesTls (p : ReverseProxy) : Bool :=
  match p.transport with
  | some t => (t.member? "tls").isSome
  | none => false

end ReverseProxy

/-! ## Handlers and their objects -/

namespace Handler

/-- The member that names the kind of a handler. -/
def kindKey : String := "handler"

/-- The object that blocks common exploits sets this variable. -/
def blockExploitsKey : String := "block_exploits"

/-- The members of an object type other than the kind, in key order. -/
def fieldsOf {α : Type} (c : Codec α) (a : α) : Dict Json :=
  match (c.encode a).normalize with
  | .object members => Dict.ofList members
  | _ => Dict.empty

/-- The object of a known kind. -/
def tagged (kind : String) (fields : Dict Json) : Dict Json :=
  fields.entries.foldl (fun d e => d.insert e.1 e.2) (Dict.empty.insert kindKey (.string kind))

/-- The object that writes a handler. -/
def toFields : Handler → Dict Json
  | headers rules => tagged "headers" (fieldsOf HeaderRules.codec rules)
  | blockExploits => tagged "vars" (Dict.empty.insert blockExploitsKey (.bool true))
  | reverseProxy proxy => tagged "reverse_proxy" (fieldsOf ReverseProxy.codec proxy)
  | passthrough fields => fields

/-- The value of the members of an object other than its kind, if they fit. -/
def decodeFields? {α : Type} (c : Codec α) (fields : Dict Json) : Option α :=
  (c.ofValue (.ofDict (fields.erase kindKey))).toOption

/-- The kind that an object names. -/
def kindOf (fields : Dict Json) : Option String := (fields.get? kindKey).bind Json.string?

/-- The handler that an object writes.  This never fails: an object of an unknown kind, or whose
members do not fit its kind, is carried along. -/
def ofFields (fields : Dict Json) : Handler :=
  match kindOf fields with
  | some "reverse_proxy" =>
    match decodeFields? ReverseProxy.codec fields with
    | some proxy => .reverseProxy proxy
    | none => .passthrough fields
  | some "headers" =>
    match decodeFields? HeaderRules.codec fields with
    | some rules => .headers rules
    | none => .passthrough fields
  | some "vars" =>
    if fields.size = 2 ∧ fields.get? blockExploitsKey = some (.bool true) then .blockExploits
    else .passthrough fields
  | _ => .passthrough fields

def codec : Codec Handler where
  encode h := .ofDict h.toFields
  read v := (Codec.fields.read v).map ofFields

/-- The kind of a handler, if its object names one. -/
def kind? : Handler → Option String
  | headers _ => some "headers"
  | blockExploits => some "vars"
  | reverseProxy _ => some "reverse_proxy"
  | passthrough fields => kindOf fields

/-! ## Building handlers -/

/-- The request headers by which a client upgrades its connection, passed on unchanged. -/
def upgradeHeaders : HeaderRules :=
  { HeaderRules.empty with
    request := some
      { HeaderOps.empty with
        set := (Dict.empty.insert "Upgrade" ["\x7bhttp.request.header.Upgrade\x7d"]).insert
          "Connection" ["\x7bhttp.request.header.Connection\x7d"] } }

/-- The transport that dials over TLS. -/
def tlsTransport : Json :=
  .object [("protocol", .string "http"), ("tls", .object [])]

/-- A reverse proxy to one server. -/
def proxyTo (dial : String) (upgrade tls : Bool) : Handler :=
  .reverseProxy
    { ReverseProxy.empty with
      backends := [{ Backend.empty with dial := dial }]
      headers := if upgrade then some upgradeHeaders else none
      transport := if tls then some tlsTransport else none }

/-- A handler that sets one header field of the response. -/
def responseHeader (name value : String) : Handler :=
  .headers
    { HeaderRules.empty with
      response := some { HeaderOps.empty with set := Dict.empty.insert name [value] } }

end Handler
end ProxyPlane
