import ProxyPlane.Text.Numeral
import ProxyPlane.Text.Pieces

/-!
# Addresses of a host and a port

The proxy listens on addresses and dials them.  An address writes a host and a port with a colon
between them; a host that contains colons, such as an IPv6 literal, stands in square brackets.

## What is here

* `Address.split`, the host and the port of an address, or the cause why it has none.
* `Address.join`, the address of a host and a 16-bit port.
-/

set_option autoImplicit false
namespace ProxyPlane

/-- Why a text is not an address. -/
inductive AddressError
  | missingPort (address : String)
  | missingBracket (address : String)
  | tooManyColons (address : String)
deriving DecidableEq, Repr, Inhabited

/-- One line for people. -/
def AddressError.message : AddressError → String
  | missingPort a => s!"missing port in address '{a}'"
  | missingBracket a => s!"missing ']' in address '{a}'"
  | tooManyColons a => s!"too many colons in address '{a}'"

namespace Address

/-- The host and the port that the characters of an address write: a host in brackets ends at the
first closing one, any other holds no colon. -/
def splitChars (address : String) (cs : List Char) :
    Except AddressError (List Char × List Char) :=
  match cs with
  | '[' :: rest =>
    match cutFirst? ']' rest with
    | none => .error (.missingBracket address)
    | some (host, ':' :: port) => .ok (host, port)
    | some _ => .error (.missingPort address)
  | cs =>
    match cutLast? ':' cs with
    | none => .error (.missingPort address)
    | some (host, port) =>
      if host.contains ':' then .error (.tooManyColons address) else .ok (host, port)

/-- The host and the port of an address.  The host may be empty, which means every host, and the
port is any text. -/
def split (address : String) : Except AddressError (String × String) :=
  (splitChars address address.toList).map fun p => (String.ofList p.1, String.ofList p.2)

/-- Whether a host is put into brackets: it holds a colon and does not start with a bracket. -/
def needsBrackets (host : String) : Bool :=
  host.toList.contains ':' && host.toList.head? != some '['

/-- The address of a host and a port. -/
def join (host : String) (port : Nat) : String :=
  if needsBrackets host then s!"[{host}]:{Numeral.write port}" else s!"{host}:{Numeral.write port}"

end Address
end ProxyPlane
