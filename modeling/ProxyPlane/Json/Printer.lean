import ProxyPlane.Decimal.Shortest
import ProxyPlane.Json.Value
import ProxyPlane.Text.Utf8
import ProxyPlane.Text.Numeral

/-!
# Writing JSON

Documents are written in two layouts: compact, without any blank, as they are sent to the proxy and
hashed; and indented by two spaces a level, as they are kept in snapshots and shown.

## What is here

* `Json.quote`, the text of a string: quotation mark, backslash and control characters are escaped,
  all else is written as it is.
* `Json.Number.text`, the text of a number.
* `Json.compact` and `Json.pretty`, the two layouts.
-/

set_option autoImplicit false
namespace ProxyPlane
namespace Json

/-! ## Strings -/

/-- The lower-case hexadecimal digit of a number below 16. -/
def hexDigit (n : UInt8) : UInt8 := if n < 10 then 0x30 + n else 0x57 + n

/-- How one byte of a string is written. -/
def escape (b : UInt8) : Bytes :=
  if b = 0x22 then [0x5C, 0x22]
  else if b = 0x5C then [0x5C, 0x5C]
  else if b = 0x08 then [0x5C, 0x62]
  else if b = 0x09 then [0x5C, 0x74]
  else if b = 0x0A then [0x5C, 0x6E]
  else if b = 0x0C then [0x5C, 0x66]
  else if b = 0x0D then [0x5C, 0x72]
  else if b < 0x20 then [0x5C, 0x75, 0x30, 0x30, hexDigit (b / 16), hexDigit (b % 16)]
  else [b]

/-- The bytes of a string between quotation marks. -/
def quote (s : String) : Bytes :=
  0x22 :: ((Utf8.encode s).flatMap escape ++ [0x22])

/-! ## Numbers -/

/-- The layout of a decimal with a fraction or an exponent: positional while the point stands
within sixteen digits or at most four zeros follow it, otherwise one digit before the point and a
signed exponent. -/
def decimalChars (d : Decimal) : List Char :=
  let ds := Nat.toDigits 10 d.digits
  let point : Int := ds.length + d.exponent
  if 0 ≤ d.exponent ∧ point ≤ 16 then ds ++ List.replicate d.exponent.toNat '0' ++ ['.', '0']
  else if 0 < point ∧ point ≤ 16 then ds.take point.toNat ++ '.' :: ds.drop point.toNat
  else if -5 < point ∧ point ≤ 0 then '0' :: '.' :: (List.replicate (-point).toNat '0' ++ ds)
  else
    let e := point - 1
    let mantissa := if ds.length ≤ 1 then ds else ds.take 1 ++ '.' :: ds.drop 1
    mantissa ++ 'e' :: (if e < 0 then '-' else '+') :: Nat.toDigits 10 e.natAbs

/-- The characters of a number. -/
def Number.chars : Number → List Char
  | .int i => if i < 0 then '-' :: Nat.toDigits 10 i.natAbs else Nat.toDigits 10 i.natAbs
  | .float x =>
    (if x.negative then ['-'] else []) ++
      if x.magnitude = 0 then ['0', '.', '0'] else decimalChars (Decimal.shortest x.magnitude)

/-- The bytes of a text whose characters are all ASCII. -/
def ascii (cs : List Char) : Bytes := cs.map fun c => c.toNat.toUInt8

/-- The text of a number. -/
def Number.text (n : Number) : Bytes := ascii n.chars

/-! ## Layouts -/

/-- The text of a value that is neither array nor object. -/
def scalarText : Json → Bytes
  | .null => [0x6E, 0x75, 0x6C, 0x6C]
  | .bool true => [0x74, 0x72, 0x75, 0x65]
  | .bool false => [0x66, 0x61, 0x6C, 0x73, 0x65]
  | .number n => n.text
  | .string s => quote s
  | .array _ | .object _ => []

mutual

/-- The text of a value without any blank between its parts. -/
def compact : Json → Bytes
  | .array items => 0x5B :: compactItems items
  | .object members => 0x7B :: compactMembers members
  | v => scalarText v

/-- The elements of an array and its closing bracket. -/
def compactItems : List Json → Bytes
  | [] => [0x5D]
  | v :: rest =>
    v.compact ++ match rest with
      | [] => [0x5D]
      | _ :: _ => 0x2C :: compactItems rest

/-- The members of an object and its closing brace. -/
def compactMembers : List (String × Json) → Bytes
  | [] => [0x7D]
  | (k, v) :: rest =>
    quote k ++ 0x3A :: v.compact ++ match rest with
      | [] => [0x7D]
      | _ :: _ => 0x2C :: compactMembers rest

end

/-- A line break and the indentation of a level. -/
def newline (level : Nat) : Bytes := 0x0A :: List.replicate (2 * level) 0x20

mutual

/-- The text of a value at a level of indentation: one element or member a line, nothing inside
the brackets of an empty array or object. -/
def prettyAt (level : Nat) : Json → Bytes
  | .array [] => [0x5B, 0x5D]
  | .array items => 0x5B :: prettyItems level items
  | .object [] => [0x7B, 0x7D]
  | .object members => 0x7B :: prettyMembers level members
  | v => scalarText v

/-- The elements of an array a level deeper, and its closing bracket. -/
def prettyItems (level : Nat) : List Json → Bytes
  | [] => newline level ++ [0x5D]
  | v :: rest =>
    newline (level + 1) ++ prettyAt (level + 1) v ++ match rest with
      | [] => newline level ++ [0x5D]
      | _ :: _ => 0x2C :: prettyItems level rest

/-- The members of an object a level deeper, and its closing brace. -/
def prettyMembers (level : Nat) : List (String × Json) → Bytes
  | [] => newline level ++ [0x7D]
  | (k, v) :: rest =>
    newline (level + 1) ++ quote k ++ 0x3A :: 0x20 :: prettyAt (level + 1) v ++ match rest with
      | [] => newline level ++ [0x7D]
      | _ :: _ => 0x2C :: prettyMembers level rest

end

/-- The text of a value with one element or member a line. -/
def pretty (v : Json) : Bytes := prettyAt 0 v

/-- The compact text of a value as a string. -/
def text (v : Json) : String := Utf8.decodeLossy v.compact

end Json
end ProxyPlane
