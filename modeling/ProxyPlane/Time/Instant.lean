import ProxyPlane.Text.Blank
import ProxyPlane.Text.Numeral
import ProxyPlane.Time.Calendar

/-!
# Instants and their RFC 3339 texts

Audit rows carry the instant of an attempt.  It is written in RFC 3339 with as many digits of the
fraction as are needed, in groups of three, and read in a relaxed form that allows blanks between
the parts and any offset from UTC.

## What is here

* `Instant`: seconds since 1970-01-01T00:00:00Z, leap seconds not counted, and nanoseconds.  During
  a leap second the nanoseconds are a thousand million and more.
* `Instant.text`, the form with `Z`, and `Instant.textWithOffset`, the form with `+00:00`.
* `Instant.stamp`, a form without separators, for names of files.
* `Instant.read?`, the instant of a text.
-/

set_option autoImplicit false
namespace ProxyPlane

/-- An instant in UTC. -/
structure Instant where
  seconds : Int
  nanos : Nat
deriving DecidableEq, Repr, Inhabited

namespace Instant

/-! ## Writing -/

/-- A number with zeros in front up to a width. -/
def padded (width n : Nat) : List Char :=
  let ds := Nat.toDigits 10 n
  List.replicate (width - ds.length) '0' ++ ds

/-- A year: four digits, and a sign in front if four do not do. -/
def yearChars (y : Int) : List Char :=
  if 0 ≤ y ∧ y ≤ 9999 then padded 4 y.toNat
  else (if y < 0 then '-' else '+') :: padded 4 y.natAbs

/-- A fraction of a second: nothing, or three, six or nine digits. -/
def fractionChars (nanos : Nat) : List Char :=
  if nanos = 0 then []
  else if nanos % 1000000 = 0 then '.' :: padded 3 (nanos / 1000000)
  else if nanos % 1000 = 0 then '.' :: padded 6 (nanos / 1000)
  else '.' :: padded 9 nanos

/-- Date and time of an instant, without the offset. -/
def localChars (t : Instant) : List Char :=
  let d := Calendar.ofDayNumber (t.seconds / 86400)
  let s := (t.seconds % 86400).toNat
  let leap := t.nanos / 1000000000
  yearChars d.year ++ '-' :: padded 2 d.month ++ '-' :: padded 2 d.day ++ 'T' ::
    padded 2 (s / 3600) ++ ':' :: padded 2 (s / 60 % 60) ++ ':' :: padded 2 (s % 60 + leap) ++
    fractionChars (t.nanos % 1000000000)

/-- The text of an instant, with `Z` for UTC. -/
def text (t : Instant) : String := String.ofList (t.localChars ++ ['Z'])

/-- The text of an instant, with the offset of UTC. -/
def textWithOffset (t : Instant) : String := String.ofList (t.localChars ++ "+00:00".toList)

/-- The text of an instant without separators, to the millisecond. -/
def stamp (t : Instant) : String :=
  let d := Calendar.ofDayNumber (t.seconds / 86400)
  let s := (t.seconds % 86400).toNat
  let leap := t.nanos / 1000000000
  String.ofList (yearChars d.year ++ padded 2 d.month ++ padded 2 d.day ++ 'T' ::
    padded 2 (s / 3600) ++ padded 2 (s / 60 % 60) ++ padded 2 (s % 60 + leap) ++ '.' ::
    padded 3 (t.nanos % 1000000000 / 1000000) ++ ['Z'])

/-! ## Reading -/

/-- Digits at the start of a text, at most so many of them. -/
def takeDigits : Nat → List Char → List Char × List Char
  | 0, cs => ([], cs)
  | _ + 1, [] => ([], [])
  | n + 1, c :: cs =>
    if (Numeral.digit? c).isSome then
      let more := takeDigits n cs
      (c :: more.1, more.2)
    else ([], c :: cs)

/-- A number of one up to `most` digits at the start of a text. -/
def number? (most : Nat) (cs : List Char) : Option (Nat × List Char) :=
  match takeDigits most cs with
  | ([], _) => none
  | (ds, rest) => (Numeral.digits? 0 ds).map fun n => (n, rest)

/-- The text behind the blanks at its start. -/
def skipBlanks (cs : List Char) : List Char := cs.dropWhile isBlank

/-- The text behind a character, which must stand at its start. -/
def expect? (c : Char) : List Char → Option (List Char)
  | [] => none
  | x :: rest => if x = c then some rest else none

/-- A field of at most two digits within bounds, with blanks in front. -/
def field? (low high : Nat) (cs : List Char) : Option (Nat × List Char) := do
  let (n, rest) ← number? 2 (skipBlanks cs)
  if low ≤ n ∧ n ≤ high then some (n, rest) else none

/-- A year: with a sign any number of digits, otherwise at most four. -/
def year? (cs : List Char) : Option (Int × List Char) := do
  let cs := skipBlanks cs
  let (y, rest) ← match cs with
    | '-' :: more => (number? more.length more).map fun p => (-(p.1 : Int), p.2)
    | '+' :: more => (number? more.length more).map fun p => ((p.1 : Int), p.2)
    | _ => (number? 4 cs).map fun p => ((p.1 : Int), p.2)
  if y.natAbs < Nat.pow 2 31 then some (y, rest) else none

/-- A fraction of a second in nanoseconds; digits beyond the ninth are dropped. -/
def fraction? : List Char → Option (Nat × List Char)
  | '.' :: rest => do
    let (ds, more) := takeDigits 9 rest
    let n ← if ds.isEmpty then none else Numeral.digits? 0 ds
    some (n * Nat.pow 10 (9 - ds.length), more.dropWhile fun c => (Numeral.digit? c).isSome)
  | cs => some (0, cs)

/-- Two digits, the first at most `high`. -/
def pair? (high : Nat) : List Char → Option (Nat × List Char)
  | a :: b :: rest => do
    let x ← Numeral.digit? a
    let y ← Numeral.digit? b
    if x ≤ high then some (x * 10 + y, rest) else none
  | _ => none

/-- An offset from UTC in seconds: `Z`, `UTC`, or a sign with hours and minutes. -/
def offset? (cs : List Char) : Option (Int × List Char) :=
  match cs with
  | 'Z' :: rest | 'z' :: rest => some (0, rest)
  | c :: rest =>
    if (cs.take 3).map Char.toUpper = ['U', 'T', 'C'] then some (0, cs.drop 3)
    else do
      let negative ← if c = '+' then some false
        else if c = '-' ∨ c = Char.ofNat 0x2212 then some true else none
      let (hours, rest) ← pair? 9 rest
      let (minutes, rest) ← pair? 5 (rest.dropWhile fun c => c == ':' || isBlank c)
      let s : Int := hours * 3600 + minutes * 60
      if s < 86400 then some (if negative then -s else s, rest) else none
  | [] => none

/-- The years that instants can lie in. -/
def minYear : Int := -262143

/-- The last year that instants can lie in. -/
def maxYear : Int := 262142

/-- The instant that the characters of a text write. -/
def readChars? (cs : List Char) : Option Instant := do
  let (year, cs) ← year? cs
  let cs ← expect? '-' (skipBlanks cs)
  let (month, cs) ← field? 1 12 cs
  let cs ← expect? '-' (skipBlanks cs)
  let (day, cs) ← field? 1 31 cs
  let cs ← match cs with
    | 'T' :: rest | 't' :: rest | ' ' :: rest => some rest
    | _ => none
  let (hour, cs) ← field? 0 23 cs
  let cs ← expect? ':' (skipBlanks cs)
  let (minute, cs) ← field? 0 59 cs
  let cs ← expect? ':' (skipBlanks cs)
  let (second, cs) ← field? 0 60 cs
  let (nanos, cs) ← fraction? cs
  let (offset, cs) ← offset? (skipBlanks cs)
  let date : Date := ⟨year, month, day⟩
  if !(skipBlanks cs).isEmpty ∨ !Calendar.isDate date ∨ year < minYear ∨ maxYear < year then none
  else
    let leap := if second = 60 then 1 else 0
    let t : Instant :=
      ⟨Calendar.dayNumber date * 86400 +
          (hour * 3600 + minute * 60 + (second - leap) : Nat) - offset,
       nanos + leap * 1000000000⟩
    let y := (Calendar.ofDayNumber (t.seconds / 86400)).year
    if minYear ≤ y ∧ y ≤ maxYear then some t else none

/-- The instant of a text in RFC 3339, in its relaxed form. -/
def read? (s : String) : Option Instant := readChars? s.toList

end Instant
end ProxyPlane
