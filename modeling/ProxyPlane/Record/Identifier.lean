import ProxyPlane.Digest.Sha256
import ProxyPlane.Text.Numeral

/-!
# Identifiers of records

New records get identifiers that nothing else has: UUIDs of version 4, all made from one seed.

## What is here

* `Identifier.fromSeed`, the endless supply of identifiers that a seed stands for.
-/

set_option autoImplicit false
namespace ProxyPlane
namespace Identifier

/-- A hexadecimal digit with its two high bits replaced by the mark of the variant. -/
def variantDigit (c : Char) : Char :=
  if c ∈ ['0', '4', '8', 'c'] then '8'
  else if c ∈ ['1', '5', '9', 'd'] then '9'
  else if c ∈ ['2', '6', 'a', 'e'] then 'a'
  else 'b'

/-- The identifier with some hexadecimal digits: five groups, of which the third starts with the
version and the fourth with the variant. -/
def ofDigits (ds : List Char) : String :=
  let group (start length : Nat) : List Char := (ds.drop start).take length
  String.ofList (group 0 8 ++ '-' :: group 8 4 ++ '-' :: '4' :: group 13 3 ++
    '-' :: (group 16 1).map variantDigit ++ group 17 3 ++ '-' :: group 20 12)

/-- The identifiers that a seed stands for. -/
def fromSeed (seed : Bytes) (n : Nat) : String :=
  ofDigits (Sha256.hexDigest (seed ++ Utf8.encode (Numeral.write n))).toList

end Identifier
end ProxyPlane
