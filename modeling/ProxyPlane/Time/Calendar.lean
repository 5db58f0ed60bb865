/-!
# The Gregorian calendar

Days are counted from 1970-01-01, before which the count is negative.

## What is here

* `Calendar.dayNumber`, the count of a date, and `Calendar.ofDayNumber`, the date of a count.
* `Calendar.daysInMonth` and `Calendar.isDate`, which dates there are.
-/

set_option autoImplicit false
namespace ProxyPlane

/-- A date of the Gregorian calendar, carried on to all years. -/
structure Date where
  year : Int
  month : Nat
  day : Nat
deriving DecidableEq, Repr, Inhabited

namespace Calendar

/-- Whether a year has a 29th of February. -/
def isLeap (year : Int) : Bool := year % 4 == 0 && (year % 100 != 0 || year % 400 == 0)

/-- The number of days of a month. -/
def daysInMonth (year : Int) (month : Nat) : Nat :=
  if month = 2 then if isLeap year then 29 else 28
  else if month = 4 ∨ month = 6 ∨ month = 9 ∨ month = 11 then 30 else 31

/-- Whether a date exists. -/
def isDate (d : Date) : Bool :=
  1 ≤ d.month && d.month ≤ 12 && 1 ≤ d.day && d.day ≤ daysInMonth d.year d.month

/-- The count of a date.  Years are reckoned from March, so that the leap day is the last of a
year. -/
def dayNumber (d : Date) : Int :=
  let y := if d.month ≤ 2 then d.year - 1 else d.year
  let m : Nat := (d.month + 9) % 12
  y * 365 + y / 4 - y / 100 + y / 400 + ((153 * m + 2) / 5 : Nat) + d.day - 1 - 719468

/-- The date of a count, within its era of 400 years. -/
def ofDayNumber (n : Int) : Date :=
  let z := n + 719468
  let era := z / 146097
  let doe := (z % 146097).toNat
  let yoe := (doe - doe / 1460 + doe / 36524 - doe / 146096) / 365
  let doy := doe - (365 * yoe + yoe / 4 - yoe / 100)
  let mp := (5 * doy + 2) / 153
  let month := if mp < 10 then mp + 3 else mp - 9
  ⟨era * 400 + yoe + (if month ≤ 2 then 1 else 0), month, doy - (153 * mp + 2) / 5 + 1⟩

end Calendar
end ProxyPlane
