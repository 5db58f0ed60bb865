import ProxyPlane.Document.Basic
import ProxyPlane.Net.Http
import ProxyPlane.Net.HttpStatus
import ProxyPlane.Program
import ProxyPlane.Text.Blank

/-!
# The proxy's admin endpoint

The running proxy takes documents and shows the one that it runs.  No request is repeated by the
client.  A reply is what the HTTP library reports in the end, so that a request may also be answered
by a failure of the library, such as a time limit that has passed.  Redirects are not modelled: the
library follows them on its own, and nothing is said about how often it then sends a request.

## What is here

* `AdminOp`, the one thing that can be asked: a reply to a request.
* `AdminClient`, an endpoint whose URL has been checked by `AdminClient.create`.
* `AdminClient.load`, `AdminClient.current` and `AdminClient.ping`.
* `AdminError`, why a request did not bring what was wanted.
-/

set_option autoImplicit false
namespace ProxyPlane

/-- What can be asked of the endpoint. -/
inductive AdminOp : Type → Type
  | send (request : Request) : AdminOp Reply

/-- Why a request did not bring what was wanted. -/
inductive AdminError
  | invalidUrl (url reason : String)
  | transport (detail : String)
  | status (code : Nat) (body : String)
  | decode (source : Json.Error)
deriving DecidableEq, Repr, Inhabited

/-- One line for people. -/
def AdminError.message : AdminError → String
  | invalidUrl url reason => s!"invalid admin URL '{url}': {reason}"
  | transport detail => s!"admin API request failed: {detail}"
  | status code body => s!"admin API returned status {HttpStatus.text code}: {body}"
  | decode source => s!"failed to decode config: {source.message}"

/-- An endpoint. -/
structure AdminClient where
  /-- The URL without slashes at its end. -/
  baseUrl : String
deriving DecidableEq, Repr, Inhabited

/-- Programs that talk to the endpoint. -/
abbrev AdminProgram := Program AdminOp

namespace AdminClient

/-- The reason to refuse the URL of an endpoint, if there is one. -/
def refusal? (url : String) : Option String :=
  match Url.scheme url with
  | .error e => some e.message
  | .ok scheme =>
    if scheme = "http" ∨ scheme = "https" then none else some s!"unsupported scheme '{scheme}'"

/-- The endpoint of a URL; slashes at its end do not count. -/
def create (url : String) : Except AdminError AdminClient :=
  let base := trimEndChar '/' url
  match refusal? base with
  | some reason => .error (.invalidUrl url reason)
  | none => .ok ⟨base⟩

/-- The text of a body, whatever its bytes; a body that cannot be read is empty. -/
def bodyText (r : Response) : String :=
  match r.body with
  | .ok bs => Utf8.decodeLossy bs
  | .error _ => ""

/-- The response of a request that succeeded. -/
def checked : Reply → Except AdminError Response
  | .error detail => .error (.transport detail)
  | .ok r =>
    if HttpStatus.isSuccess r.status then .ok r else .error (.status r.status (bodyText r))

/-- The request that replaces the running document. -/
def loadRequest (c : AdminClient) (d : Document) : Request :=
  ⟨"POST", c.baseUrl ++ "/load", some "application/json", d.compact⟩

/-- The request that asks for the running document. -/
def currentRequest (c : AdminClient) : Request := ⟨"GET", c.baseUrl ++ "/config/", none, []⟩

/-- Replace the running document. -/
def load (c : AdminClient) (d : Document) : AdminProgram (Except AdminError Unit) := do
  return (checked (← .perform (.send (c.loadRequest d)))).map fun _ => ()

/-- Whether a byte is an ASCII blank. -/
def isAsciiBlank (b : UInt8) : Bool :=
  b == 0x20 || b == 0x09 || b == 0x0A || b == 0x0C || b == 0x0D

/-- The document of a body; a proxy that runs nothing answers with nothing or `null`. -/
def documentOf (body : Bytes) : Except AdminError Document :=
  let body := trimWhile isAsciiBlank body
  if body.isEmpty ∨ body = Utf8.encode "null" then .ok Document.empty
  else
    match Document.decode body with
    | .ok d => .ok d
    | .error e => .error (.decode e)

/-- The document that the proxy runs. -/
def current (c : AdminClient) : AdminProgram (Except AdminError Document) := do
  return match checked (← .perform (.send c.currentRequest)) with
    | .error e => .error e
    | .ok r =>
      match r.body with
      | .error detail => .error (.transport detail)
      | .ok body => documentOf body

/-- Whether the proxy answers; what it answers does not matter. -/
def ping (c : AdminClient) : AdminProgram (Except AdminError Unit) := do
  return (checked (← .perform (.send c.currentRequest))).map fun _ => ()

end AdminClient
end ProxyPlane
