import ProxyPlane.Net.Domain
import ProxyPlane.Net.IpLiteral
import ProxyPlane.Text.Pieces
import ProxyPlane.Text.Utf8

/-!
# URLs

The URL of the proxy's admin endpoint is checked by the rules of the URL standard, which forgives
much: blanks around the URL, line breaks inside, backslashes and any number of slashes.

## What is here

* `UrlError`, why a text is no URL, with its messages.
* `Url.host`, the rules for the host of a URL of a special scheme.
* `Url.scheme`, the scheme of a URL, once all of it has been checked.
-/

set_option autoImplicit false
namespace ProxyPlane

/-- Why a text is no URL. -/
inductive UrlError
  | emptyHost
  | invalidDomain
  | invalidPort
  | invalidIpv4
  | invalidIpv6
  | invalidDomainCharacter
  | relative
deriving DecidableEq, Repr, Inhabited

/-- One line for people. -/
def UrlError.message : UrlError → String
  | emptyHost => "empty host"
  | invalidDomain => "invalid international domain name"
  | invalidPort => "invalid port number"
  | invalidIpv4 => "invalid IPv4 address"
  | invalidIpv6 => "invalid IPv6 address"
  | invalidDomainCharacter => "invalid domain character"
  | relative => "relative URL without a base"

namespace Url

/-! ## Hosts -/

/-- The bytes of a text with its percent escapes replaced. -/
def percentDecode : Bytes → Bytes
  | [] => []
  | b :: rest =>
    match b == 0x25, rest with
    | true, x :: y :: more =>
      match Ip.hexDigit? (Char.ofNat x.toNat), Ip.hexDigit? (Char.ofNat y.toNat) with
      | some h, some l => (h * 16 + l).toUInt8 :: percentDecode more
      | _, _ => b :: percentDecode (x :: y :: more)
    | _, rest => b :: percentDecode rest

/-- Whether an ASCII character may not stand in a domain. -/
def isForbidden (c : Char) : Bool :=
  c.toNat ≤ 0x20 || c.toNat == 0x7F ||
    ['#', '/', ':', '<', '>', '?', '@', '[', '\\', ']', '^', '|', '%'].contains c

/-- The number that a part of an IPv4 address writes in base ten, eight or sixteen; an inner `none`
stands for a number beyond 32 bits. -/
def ipv4Number (cs : List Char) : Option (Option Nat) :=
  if cs.isEmpty then none
  else
    let (base, ds) := match cs with
      | '0' :: 'x' :: ds | '0' :: 'X' :: ds => (16, ds)
      | '0' :: d :: ds => (8, d :: ds)
      | ds => (10, ds)
    match Ip.spanDigits Ip.hexDigit? ds with
    | (values, []) =>
      if values.all (· < base) then
        let n := Ip.ofDigits base values
        some (if n < Nat.pow 2 32 then some n else none)
      else none
    | _ => none

/-- Whether the last label of a domain is a number, so that the domain must be an IPv4 address. -/
def endsInNumber (labels : List (List Char)) : Bool :=
  let last := match labels.reverse with
    | [] :: l :: _ => l
    | l :: _ => l
    | [] => []
  (!last.isEmpty && last.all fun c => (Numeral.digit? c).isSome) || (ipv4Number last).isSome

/-- Whether some labels are the parts of an IPv4 address: at most four, each but the last a byte,
and the last one filling the rest. -/
def isIpv4 (labels : List (List Char)) : Bool :=
  let labels := if labels.getLast? == some [] then labels.dropLast else labels
  match labels.mapM fun l => (ipv4Number l).bind id with
  | none => false
  | some numbers =>
    match numbers.reverse with
    | [] => false
    | last :: others =>
      numbers.length ≤ 4 && others.all (· ≤ 255) && last < Nat.pow 256 (4 - others.length)

/-- Whether a text is an IPv6 address. -/
def isIpv6 (cs : List Char) : Bool :=
  match Ip.readV6? cs with
  | some (_, rest) => rest.isEmpty
  | none => false

/-- The host of a URL of a special scheme: an IPv6 address in brackets, an IPv4 address, or a
domain. -/
def host (cs : List Char) : Except UrlError Unit :=
  match cs with
  | '[' :: inner =>
    if inner.getLast? == some ']' && isIpv6 inner.dropLast then .ok () else .error .invalidIpv6
  | cs =>
    let text := Utf8.decode? (percentDecode (Utf8.encode (String.ofList cs)))
    match text.bind fun s => Domain.normal? s.toList with
    | none => .error .invalidDomain
    | some domain =>
      if domain.any isForbidden then .error .invalidDomain
      else if domain.isEmpty then .error .emptyHost
      else
        let labels := pieces '.' domain
        if endsInNumber labels then if isIpv4 labels then .ok () else .error .invalidIpv4
        else .ok ()

/-- The host of a URL of any other scheme. -/
def otherHost (cs : List Char) : Except UrlError Unit :=
  match cs with
  | '[' :: inner =>
    if inner.getLast? == some ']' && isIpv6 inner.dropLast then .ok () else .error .invalidIpv6
  | cs =>
    let refused (c : Char) : Bool :=
      c.toNat = 0 || c == ' ' ||
        ['#', '/', ':', '<', '>', '?', '@', '[', '\\', ']', '^', '|'].contains c
    if cs.any refused then .error .invalidDomainCharacter else .ok ()

/-! ## Authorities -/

/-- Whether a character ends the authority of a URL. -/
def endsAuthority (special : Bool) (c : Char) : Bool :=
  c == '/' || c == '?' || c == '#' || (special && c == '\\')

/-- What follows the last at sign of an authority, and whether somebody is named before it. -/
def afterUserInfo (special : Bool) (cs : List Char) : Except UrlError (Bool × List Char) :=
  let authority := cs.takeWhile fun c => !endsAuthority special c
  let rest := cs.dropWhile fun c => !endsAuthority special c
  match cutLast? '@' authority with
  | none => .ok (false, cs)
  | some ([], []) => if rest.isEmpty then .ok (false, []) else .error .emptyHost
  | some (user, host) => .ok (user != [] && user != [':'], host ++ rest)

/-- The characters of a host and what follows them; a colon inside brackets belongs to the host. -/
def spanHost (special : Bool) (inBrackets : Bool) : List Char → List Char × List Char
  | [] => ([], [])
  | c :: cs =>
    if (c == ':' && !inBrackets) || endsAuthority special c then ([], c :: cs)
    else
      let inBrackets := if c == '[' then true else if c == ']' then false else inBrackets
      let more := spanHost special inBrackets cs
      (c :: more.1, more.2)

/-- The port behind a host: digits up to the end of the authority, at most 65535. -/
def port (acc : Nat) : List Char → Except UrlError Unit
  | [] => .ok ()
  | c :: cs =>
    match Numeral.digit? c with
    | some d => if 65535 < acc * 10 + d then .error .invalidPort else port (acc * 10 + d) cs
    | none => if endsAuthority true c then .ok () else .error .invalidPort

/-- The authority of a URL and what follows it. -/
def authority (special : Bool) (cs : List Char) : Except UrlError Unit := do
  let (named, cs) ← afterUserInfo special cs
  let (h, rest) := spanHost special false cs
  if special then if h.isEmpty then .error .emptyHost else host h
  else
    otherHost h
    if h.isEmpty && (named || rest.head? == some ':') then .error .emptyHost
  match rest with
  | ':' :: digits => port 0 digits
  | _ => .ok ()

/-- The host of a URL of the scheme `file`, which may be empty or a drive letter. -/
def fileHost (cs : List Char) : Except UrlError Unit :=
  let h := cs.takeWhile fun c => !endsAuthority true c
  match h with
  | [] => .ok ()
  | [d, s] => if d.isAlpha && (s == ':' || s == '|') then .ok () else host h
  | h => host h

/-! ## Schemes -/

/-- The schemes with rules of their own for what follows. -/
def specialSchemes : List String := ["http", "https", "ws", "wss", "ftp"]

/-- Whether a character is a slash or a backslash. -/
def isSlash (c : Char) : Bool := c == '/' || c == '\\'

/-- The scheme at the start of a URL, in lower case, and what follows its colon. -/
def takeScheme? (cs : List Char) : Option (String × List Char) :=
  match cs with
  | [] => none
  | c :: _ =>
    if !c.isAlpha then none
    else
      let inScheme (c : Char) : Bool := c.isAlphanum || c == '+' || c == '-' || c == '.'
      match cs.dropWhile inScheme with
      | ':' :: rest => some (String.ofList ((cs.takeWhile inScheme).map Char.toLower), rest)
      | _ => none

/-- The characters of a URL that count: not the blanks around it, nor tabs and line breaks. -/
def cleaned (text : String) : List Char :=
  (trimWhile (fun c => decide (c.toNat ≤ 0x20)) text.toList).filter fun c =>
    c != '\t' && c != '\n' && c != '\r'

/-- The scheme of a URL, once all of it has been checked. -/
def scheme (text : String) : Except UrlError String := do
  match takeScheme? (cleaned text) with
  | none => .error .relative
  | some (name, rest) =>
    if specialSchemes.contains name then authority true (rest.dropWhile isSlash)
    else if name = "file" then
      match rest with
      | a :: b :: more => if isSlash a && isSlash b then fileHost more
      | _ => .ok ()
    else
      match rest with
      | '/' :: '/' :: more => authority false more
      | _ => .ok ()
    return name

end Url
end ProxyPlane
