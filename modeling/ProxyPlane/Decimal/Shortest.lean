import ProxyPlane.Decimal.Binary64

/-!
# The shortest decimal that reads back

A binary64 number is written with the fewest decimal digits from which it can be read back; of the
decimals with that many digits, the nearest to the number is taken.

## What is here

* `Decimal`, a natural number scaled by a power of ten.
* `readsBack m d`: the decimal lies in the interval of reals that round to the magnitude `m`.
* `shortest m`, the decimal that is written for a magnitude.
-/

set_option autoImplicit false
namespace ProxyPlane

/-- The number `digits * 10 ^ exponent`. -/
structure Decimal where
  digits : Nat
  exponent : Int
deriving DecidableEq, Repr, Inhabited

namespace Decimal

/-- The ratio that a decimal stands for. -/
def ratio (d : Decimal) : Nat × Nat :=
  if 0 ≤ d.exponent then (d.digits * Nat.pow 10 d.exponent.toNat, 1)
  else (d.digits, Nat.pow 10 (-d.exponent).toNat)

/-- Twice the middle of two ratios. -/
def twiceMiddle (a b : Nat × Nat) : Nat × Nat := (a.1 * b.2 + b.1 * a.2, a.2 * b.2)

/-- Whether twice a ratio is on the wanted side of a bound, which belongs to it if `closed`. -/
def below (closed : Bool) (a b : Nat × Nat) : Bool :=
  if closed then decide (a.1 * b.2 ≤ b.1 * a.2) else decide (a.1 * b.2 < b.1 * a.2)

/-- Whether a decimal rounds to the magnitude: it lies between the middles to the two neighbours,
which belong to the interval of an even magnitude. -/
def readsBack (m : Nat) (d : Decimal) : Bool :=
  let x := Binary64.ratio m
  let closed := m % 2 == 0
  let twice := (2 * d.ratio.1, d.ratio.2)
  (m == 0 || below closed (twiceMiddle (Binary64.ratio (m - 1)) x) twice) &&
    below closed twice (twiceMiddle x (Binary64.ratio (m + 1)))

/-- The number of decimal digits of a natural number. -/
def width (n : Nat) : Nat := (Nat.toDigits 10 n).length

/-- The exponent of the leading decimal digit of a ratio that is not zero. -/
def leadingExponent (x : Nat × Nat) : Int :=
  let e : Int := (width x.1 : Int) - (width x.2 : Int)
  let t := ratio ⟨1, e⟩
  if t.1 * x.2 ≤ x.1 * t.2 then e else e - 1

/-- The decimal without zeros at its end. -/
def strip : Nat → Decimal → Decimal
  | 0, d => d
  | fuel + 1, d =>
    if d.digits % 10 = 0 ∧ d.digits ≠ 0 then strip fuel ⟨d.digits / 10, d.exponent + 1⟩ else d

/-- The decimal of `n` digits that reads back as the magnitude, the nearest one if there are two. -/
def ofWidth? (m n : Nat) : Option Decimal :=
  let x := Binary64.ratio m
  let k := leadingExponent x - (n - 1 : Nat)
  -- the number is `num / den` units of the last digit
  let num := if 0 ≤ k then x.1 else x.1 * Nat.pow 10 (-k).toNat
  let den := if 0 ≤ k then x.2 * Nat.pow 10 k.toNat else x.2
  let down : Decimal := ⟨num / den, k⟩
  let up : Decimal := ⟨num / den + 1, k⟩
  let r := num % den
  match readsBack m down, readsBack m up with
  | true, true => if 2 * r < den ∨ (2 * r = den ∧ down.digits % 2 = 0) then some down else some up
  | true, false => some down
  | false, true => some up
  | false, false => none

/-- The shortest decimal that reads back as the magnitude. -/
def shortest (m : Nat) : Decimal :=
  if m = 0 then ⟨0, 0⟩
  else
    match (List.range 17).findSome? fun n => ofWidth? m (n + 1) with
    | some d => strip 20 d
    | none => ⟨0, 0⟩

end Decimal
end ProxyPlane
