import ProxyPlane.Net.Url
import ProxyPlane.Text.Blank

/-!
# Messages of HTTP

Requests are written in version 1.0 of the protocol.  Under it no response comes in chunks, the
connection carries one exchange, and a response without a declared length ends with the connection.

## What is here

* `Request` and `Response`, what goes over the wire, and `Reply`, a response unless something kept
  it from arriving.
* `Destination`, where the requests for a URL go.
* `Request.wire`, the bytes of a request, and `Reply.ofWire`, the reply that a connection brought.
-/

set_option autoImplicit false
namespace ProxyPlane

/-- A request of HTTP. -/
structure Request where
  method : String
  url : String
  contentType : Option String
  body : Bytes
deriving DecidableEq, Repr, Inhabited

/-- A response of HTTP; reading its body may fail. -/
structure Response where
  status : Nat
  body : Except String Bytes

/-- A response, or what kept it from arriving. -/
abbrev Reply := Except String Response

/-! ## Destinations -/

/-- Where a request goes. -/
structure Destination where
  host : String
  port : Nat
  /-- Path and query, without characters that could end them. -/
  resource : String
deriving DecidableEq, Repr, Inhabited

namespace Destination

/-- A byte of a path, as an escape unless it is a visible ASCII character. -/
def escapeByte (b : UInt8) : List Char :=
  if 0x20 < b ∧ b < 0x7F then [Char.ofNat b.toNat]
  else '%' :: (List.replicate (2 - (Nat.toDigits 16 b.toNat).length) '0' ++
    Nat.toDigits 16 b.toNat)

/-- The path and query of what follows the authority of a URL; a fragment does not count. -/
def resourceOf (cs : List Char) : String :=
  let cs := cs.takeWhile (· != '#')
  let rooted := match cs with
    | [] => ['/']
    | c :: rest => if Url.isSlash c then '/' :: rest else '/' :: c :: rest
  String.ofList ((Utf8.encode (String.ofList rooted)).flatMap escapeByte)

/-- A host without the brackets that an IPv6 address has in a URL. -/
def bareHost (cs : List Char) : String :=
  String.ofList (cs.filter fun c => c != '[' && c != ']')

/-- Where the requests for a URL go, if its scheme is `http`. -/
def ofUrl? (url : String) : Option Destination := do
  let (scheme, rest) ← Url.takeScheme? (Url.cleaned url)
  if scheme ≠ "http" then none
  let (_, cs) ← (Url.afterUserInfo true (rest.dropWhile Url.isSlash)).toOption
  let (host, cs) := Url.spanHost true false cs
  let (digits, cs) := match cs with
    | ':' :: cs => Ip.spanDigits Numeral.digit? cs
    | cs => ([], cs)
  let port := if digits.isEmpty then 80 else Ip.ofDigits 10 digits
  return ⟨bareHost host, port, resourceOf cs⟩

/-- The host and port as a request names them. -/
def authority (d : Destination) : String :=
  let host := if d.host.toList.contains ':' then s!"[{d.host}]" else d.host
  if d.port = 80 then host else s!"{host}:{d.port}"

end Destination

/-! ## Requests -/

namespace Request

/-- The lines before the body. -/
def head (r : Request) (d : Destination) : List String :=
  [s!"{r.method} {d.resource} HTTP/1.0", s!"host: {d.authority}", "accept: */*"] ++
    (r.contentType.map fun t => s!"content-type: {t}").toList ++
    if r.body.isEmpty then [] else [s!"content-length: {r.body.length}"]

/-- The bytes of a request. -/
def wire (r : Request) (d : Destination) : Bytes :=
  Utf8.encode ("\r\n".intercalate (r.head d) ++ "\r\n\r\n") ++ r.body

end Request

/-! ## Responses -/

namespace Reply

/-- The text of a line before the body. -/
def lineText (line : Bytes) : String := trimBlank (Utf8.decodeLossy line)

/-- The status code that the first line of a response names. -/
def statusOf? (line : Bytes) : Option Nat :=
  match pieces ' ' (lineText line).toList with
  | version :: code :: _ =>
    if ("HTTP/1.".toList.isPrefixOf version) && code.length == 3 then Numeral.read? 1000 code
    else none
  | _ => none

/-- The length of the body that a line declares, if it declares one. -/
def lengthOf? (line : Bytes) : Option Nat := do
  let (name, value) ← cutFirst? ':' (lineText line).toList
  if (String.ofList name).toLower ≠ "content-length" then none
  Numeral.u64? (trimBlank (String.ofList value))

/-- The body among the bytes that follow the head of a response. -/
def bodyOf (status : Nat) (length : Option Nat) (bs : Bytes) : Except String Bytes :=
  if status = 204 ∨ status = 304 then .ok []
  else
    match length with
    | none => .ok bs
    | some n =>
      if bs.length < n then .error "the connection ended inside the body" else .ok (bs.take n)

/-- Whether a line ends the head of a response. -/
def endsHead (line : Bytes) : Bool := line == [] || line == [0x0D]

/-- The reply that a connection brought before it ended. -/
def ofWire (bs : Bytes) : Reply :=
  let (head, rest) := (pieces 0x0A bs).span fun line => !endsHead line
  match head, rest with
  | first :: fields, _ :: body =>
    match statusOf? first with
    | some status =>
      .ok ⟨status, bodyOf status (fields.findSome? lengthOf?) ([0x0A].intercalate body)⟩
    | none => .error "the response is malformed"
  | _, _ => .error "the connection ended before the response"

end Reply
end ProxyPlane
