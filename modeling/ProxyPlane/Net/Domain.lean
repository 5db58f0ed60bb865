import ProxyPlane.Text.Numeral
import ProxyPlane.Text.Pieces
import ProxyPlane.Text.Printable

/-!
# Internationalized domain names

A domain may be written with characters beyond ASCII.  Before it is looked at, some characters are
replaced by others and some are left out.  A label that starts with `xn--` holds such characters in
an ASCII form, which must be well-formed.

## What is here

* `Punycode.decode?`, the characters that the ASCII form of a label holds.
* `Domain.normal?`, the form in which a domain is looked at, if it has one.
-/

set_option autoImplicit false
namespace ProxyPlane
namespace Punycode

/-- The value of a digit: letters and then decimal digits. -/
def digit? (c : Char) : Option Nat :=
  if 'a' ≤ c ∧ c ≤ 'z' then some (c.toNat - 'a'.toNat)
  else if 'A' ≤ c ∧ c ≤ 'Z' then some (c.toNat - 'A'.toNat)
  else (Numeral.digit? c).map (26 + ·)

/-- The least value of a digit at a position that does not end its number. -/
def threshold (position bias : Nat) : Nat := min 26 (max 1 (position - bias))

/-- How often a number is divided by 35 until it is at most 455, and what is left. -/
def settle (steps delta : Nat) : Nat × Nat :=
  if 455 < delta then settle (steps + 1) (delta / 35) else (steps, delta)
termination_by delta
decreasing_by exact Nat.div_lt_self (by omega) (by omega)

/-- The bias behind a number: `count` characters are known, and it may have been the first one. -/
def adapt (delta count : Nat) (first : Bool) : Nat :=
  let delta := if first then delta / 700 else delta / 2
  let (steps, delta) := settle 0 (delta + delta / count)
  36 * steps + 36 * delta / (delta + 38)

/-- Where characters are put. -/
structure Place where
  /-- The code point that comes next, or a later one. -/
  code : Nat
  /-- The index at which it goes in, or a later one. -/
  index : Nat
  bias : Nat

/-- The characters with those that the digits of a number, of which some have been read, put
between them; `start` is the index before the number. -/
def insertAll (p : Place) (start position weight : Nat) (known : List Char) :
    List Char → Option (List Char)
  | [] => if position = 36 then some known else none
  | c :: rest => do
    let d ← digit? c
    let index := p.index + d * weight
    let t := threshold position p.bias
    if Nat.pow 2 32 ≤ index then none
    else if t ≤ d then
      insertAll { p with index } start (position + 36) (weight * (36 - t)) known rest
    else
      let count := known.length + 1
      let code := p.code + index / count
      let place := index % count
      if 0x110000 ≤ code ∨ (0xD800 ≤ code ∧ code ≤ 0xDFFF) then none
      else
        let known := known.take place ++ Char.ofNat code :: known.drop place
        insertAll ⟨code, place + 1, adapt (index - start) count (start == 0)⟩ (place + 1) 36 1 known
          rest

/-- The characters that an ASCII form holds. -/
def decode? (cs : List Char) : Option (List Char) :=
  let (basic, digits) := match cutLast? '-' cs with
    | some (basic, digits) => (basic, digits)
    | none => ([], cs)
  insertAll ⟨0x80, 0, 72⟩ 0 36 1 basic digits

end Punycode

namespace Domain

/-- Whether a code point lies in one of some ranges. -/
def isIn (ranges : List (Nat × Nat)) (n : Nat) : Bool := ranges.any fun r => r.1 ≤ n && n ≤ r.2

/-- Characters that are left out. -/
def ignored : List (Nat × Nat) :=
  [(0xAD, 0xAD), (0x34F, 0x34F), (0x180B, 0x180D), (0x200B, 0x200B), (0x2060, 0x2060),
   (0x2064, 0x2064), (0xFE00, 0xFE0F), (0xFEFF, 0xFEFF), (0xE0100, 0xE01EF)]

/-- Characters that no domain may hold: controls, joiners, marks of direction, separators of lines,
private use, tags and noncharacters. -/
def refused : List (Nat × Nat) :=
  [(0x80, 0x9F), (0x200C, 0x200F), (0x2028, 0x202E), (0x2066, 0x206F), (0xE000, 0xF8FF),
   (0xFDD0, 0xFDEF), (0xFFF9, 0xFFFF), (0xE0001, 0xE007F), (0xEFFFE, 0x10FFFF)]

/-- Characters that stand for a blank. -/
def spaces : List (Nat × Nat) :=
  [(0xA0, 0xA0), (0x2000, 0x200A), (0x202F, 0x202F), (0x205F, 0x205F), (0x3000, 0x3000)]

/-- Characters that stand for a full stop. -/
def stops : List (Nat × Nat) := [(0x3002, 0x3002), (0xFF0E, 0xFF0E), (0xFF61, 0xFF61)]

/-- The characters that a character stands for, if a domain may hold it. -/
def standsFor? (c : Char) : Option (List Char) :=
  let n := c.toNat
  if n < 0x80 then some [c.toLower]
  else if isIn ignored n then some []
  else if isIn refused n then none
  else if isIn spaces n then some [' ']
  else if isIn stops n then some ['.']
  else if 0xFF01 ≤ n ∧ n ≤ 0xFF5E then some [(Char.ofNat (n - 0xFEE0)).toLower]
  else some [c]

/-- Whether a label starts with a character that has a form of its own. -/
def startsAlone (label : List Char) : Bool :=
  match label with
  | c :: _ => c.toNat < 0x80 || isShown c
  | [] => true

/-- Whether a label is well-formed: no character at its start belongs to one before it, and if it
claims to be the ASCII form of another label, it is. -/
def isWellFormed (label : List Char) : Bool :=
  match label with
  | 'x' :: 'n' :: '-' :: '-' :: body =>
    match Punycode.decode? body with
    | none => false
    | some cs =>
      cs.any (fun c => 0x80 ≤ c.toNat) && startsAlone cs && cs.all fun c => standsFor? c == some [c]
  | label => startsAlone label

/-- The form in which a domain is looked at, if it has one. -/
def normal? (cs : List Char) : Option (List Char) := do
  let parts ← cs.mapM standsFor?
  let domain := parts.flatten
  if (pieces '.' domain).all isWellFormed then some domain else none

end Domain
end ProxyPlane
