/-!
# Binary floating-point numbers of 64 bits

Numbers with a fraction or an exponent are kept as the bits of a binary64 number.  This file
rounds a ratio to the nearest such number and says which ratio a number stands for, in exact
arithmetic of natural numbers.

## What is here

* `Binary64`, the bits, with the sign apart from the magnitude.
* `magnitude? num den`, the magnitude nearest to a ratio (a tie goes to the even one), or nothing
  where the ratio rounds above the largest finite number.
* `significand` and `exponent`: a finite magnitude stands for `significand * 2 ^ exponent`.
-/

set_option autoImplicit false
namespace ProxyPlane

/-- A finite binary64 number: its sign, and its other 63 bits as a number. -/
structure Binary64 where
  negative : Bool
  magnitude : Nat
deriving DecidableEq, Repr, Inhabited

namespace Binary64

/-- The number of significand bits, the leading one included. -/
def precision : Nat := 53

/-- The distance of the stored exponent of the least magnitudes from their true exponent. -/
def bias : Nat := 1074

/-- The magnitudes from here on are not finite. -/
def infinity : Nat := 2047 * Nat.pow 2 52

/-- The integer significand of a magnitude. -/
def significand (m : Nat) : Nat :=
  if m < Nat.pow 2 52 then m else Nat.pow 2 52 + m % Nat.pow 2 52

/-- The exponent of two of a magnitude, raised by `bias` to be a natural number. -/
def shiftedExponent (m : Nat) : Nat :=
  if m < Nat.pow 2 52 then 0 else m / Nat.pow 2 52 - 1

/-- The ratio that a magnitude stands for. -/
def ratio (m : Nat) : Nat × Nat :=
  let e := shiftedExponent m
  if bias ≤ e then (significand m * Nat.pow 2 (e - bias), 1)
  else (significand m, Nat.pow 2 (bias - e))

/-- The natural number nearest to a ratio; of two that are equally near, the even one. -/
def roundToEven (num den : Nat) : Nat :=
  let q := num / den
  let r := num % den
  if 2 * r < den then q
  else if den < 2 * r then q + 1
  else if q % 2 = 0 then q else q + 1

/-- The magnitude nearest to a ratio, or nothing if that is not finite. -/
def magnitude? (num den : Nat) : Option Nat :=
  if num = 0 then some 0
  else
    -- the ratio lies between `2 ^ (s - t - 1)` and `2 ^ (s - t + 1)`
    let s := num.log2 + bias + 1
    let t := den.log2 + precision
    -- raised exponents for which the significand has the right width, or is one bit too long
    let e₀ := s - t - 1
    let scaled (e : Nat) : Nat :=
      if bias ≤ e then roundToEven num (den * Nat.pow 2 (e - bias))
      else roundToEven (num * Nat.pow 2 (bias - e)) den
    let wide (e : Nat) : Bool :=
      if bias ≤ e then decide (Nat.pow 2 precision * (den * Nat.pow 2 (e - bias)) ≤ num)
      else decide (Nat.pow 2 precision * den ≤ num * Nat.pow 2 (bias - e))
    let e := if wide e₀ then (if wide (e₀ + 1) then e₀ + 2 else e₀ + 1) else e₀
    let m := e * Nat.pow 2 52 + scaled e
    if m < infinity then some m else none

/-- The number zero. -/
def zero : Binary64 := ⟨false, 0⟩

/-- The magnitude of a power of ten, if it is finite. -/
def powerOfTen? (k : Nat) : Option Nat := magnitude? (Nat.pow 10 k) 1

/-- The product of two magnitudes, rounded. -/
def mul? (a b : Nat) : Option Nat :=
  magnitude? ((ratio a).1 * (ratio b).1) ((ratio a).2 * (ratio b).2)

/-- The quotient of two magnitudes, rounded; the divisor is not zero. -/
def div? (a b : Nat) : Option Nat :=
  magnitude? ((ratio a).1 * (ratio b).2) ((ratio a).2 * (ratio b).1)

end Binary64
end ProxyPlane
