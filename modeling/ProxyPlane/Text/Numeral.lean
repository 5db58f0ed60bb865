import ProxyPlane.Text.Blank

/-!
# Unsigned decimal numerals

Ports, sequence numbers and timeouts are written as unsigned decimal numerals of a fixed width in
bits.  Reading them is strict but for one freedom: a plus sign may stand in front, and zeros may.

## What is here

* `Numeral.read? bound cs`, the value below `bound` that a numeral writes, and
  `Numeral.write n`, its shortest numeral.
* `Numeral.writePadded w n`, the numeral with zeros in front up to a width.
-/

set_option autoImplicit false
namespace ProxyPlane
namespace Numeral

/-- The value of a decimal digit. -/
def digit? (c : Char) : Option Nat :=
  if '0' ≤ c ∧ c ≤ '9' then some (c.toNat - '0'.toNat) else none

/-- The value of a run of digits behind the digits already read as `acc`, with no bound. -/
def digits? (acc : Nat) : List Char → Option Nat
  | [] => some acc
  | c :: cs => (digit? c).bind fun d => digits? (acc * 10 + d) cs

/-- The value of a numeral: digits, at least one, with an optional plus sign in front. -/
def value? (cs : List Char) : Option Nat :=
  let body := match cs with
    | '+' :: rest => rest
    | _ => cs
  if body.isEmpty then none else digits? 0 body

/-- The value of a numeral, if it is below the bound. -/
def read? (bound : Nat) (cs : List Char) : Option Nat :=
  (value? cs).filter (· < bound)

/-- The values of 16-bit words. -/
def u16? (s : String) : Option Nat := read? (Nat.pow 2 16) s.toList

/-- The values of 64-bit words. -/
def u64? (s : String) : Option Nat := read? (Nat.pow 2 64) s.toList

/-- The shortest numeral of a number. -/
def write (n : Nat) : String := String.ofList (Nat.toDigits 10 n)

/-- The numeral of a number with zeros in front up to the width. -/
def writePadded (width n : Nat) : String :=
  let ds := Nat.toDigits 10 n
  String.ofList (List.replicate (width - ds.length) '0' ++ ds)

end Numeral
end ProxyPlane
