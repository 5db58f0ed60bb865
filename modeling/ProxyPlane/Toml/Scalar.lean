import ProxyPlane.Decimal.Binary64
import ProxyPlane.Net.IpLiteral
import ProxyPlane.Toml.Basic

/-!
# TOML strings, numbers and points in time

Everything here reads from the start of a text and returns what follows.

## What is here

* `Toml.newline?`, `Toml.skipBlanks` and `Toml.skipFiller`, what stands between values.
* `Toml.string?`, strings of all four kinds.
* `Toml.number`, integers in four bases, numbers with a fraction, and points in time.
-/

set_option autoImplicit false
namespace ProxyPlane
namespace Toml

/-! ## Between values -/

/-- Whether a character is a blank inside a line. -/
def isBlank (c : Char) : Bool := c == ' ' || c == '\t'

/-- The text behind the blanks at its start. -/
def skipBlanks : List Char → List Char := List.dropWhile isBlank

/-- The text behind the line break at its start. -/
def newline? : List Char → Option (List Char)
  | '\n' :: rest => some rest
  | '\r' :: '\n' :: rest => some rest
  | _ => none

/-- Whether a character may stand in a comment: a tab, or no control character. -/
def isShown (c : Char) : Bool := c == '\t' || (0x20 ≤ c.toNat && c.toNat != 0x7F)

/-- The text behind blanks, line breaks and comments; a comment must end with its line. -/
def skipFiller (comment : Bool) : List Char → List Char
  | [] => []
  | c :: rest =>
    if c = '\n' then skipFiller false rest
    else if c = '\r' ∧ rest.head? = some '\n' then skipFiller comment rest
    else if comment then if isShown c then skipFiller true rest else c :: rest
    else if isBlank c then skipFiller false rest
    else if c = '#' then skipFiller true rest
    else c :: rest

/-- The text of the next line, behind blanks and a comment. -/
def endLine? (cs : List Char) : Option (List Char) :=
  let rest := match skipBlanks cs with
    | '#' :: rest => rest.dropWhile isShown
    | rest => rest
  if rest.isEmpty then some [] else newline? rest

/-! ## Strings -/

/-- The characters of a string, and what follows the string. -/
abbrev Body := Option (List Char × List Char)

/-- A character put before those of a string. -/
def put (c : Char) (r : Body) : Body := r.map fun (cs, rest) => (c :: cs, rest)

/-- The character of a code point. -/
def scalar? (digits : List Char) : Option Char := do
  let n := Ip.ofDigits 16 (← digits.mapM Ip.hexDigit?)
  if n < 0xD800 ∨ (0xDFFF < n ∧ n < 0x110000) then some (Char.ofNat n) else none

/-- The character that a letter behind a backslash stands for. -/
def escape? : Char → Option Char
  | 'b' => some (Char.ofNat 8)
  | 't' => some '\t'
  | 'n' => some '\n'
  | 'f' => some (Char.ofNat 12)
  | 'r' => some '\r'
  | '"' => some '"'
  | '\\' => some '\\'
  | _ => none

/-- The closing of a string over several lines, when a third quotation mark has been passed: up to
two more belong to the string. -/
def closing (mark : Char) : List Char → List Char × List Char
  | a :: b :: rest =>
    if a = mark then if b = mark then ([mark, mark], rest) else ([mark], b :: rest)
    else ([], a :: b :: rest)
  | [a] => if a = mark then ([mark], []) else ([], [a])
  | [] => ([], [])

/-- Whether three marks begin a text: the closing of a string over several lines. -/
def closes? (mark : Char) : List Char → Option (List Char)
  | a :: b :: rest => if a = mark ∧ b = mark then some rest else none
  | _ => none

/-- The rest of a string between quotation marks, over several lines if `multi`.  A backslash at the
end of a line folds it: blanks and line breaks up to the next character are left out.  `fold` says
whether such a place is being passed, and whether the end of the line was met there. -/
def basic? (multi : Bool) (fold : Option Bool) : List Char → Body
  | [] => none
  | c :: rest =>
    if fold.isSome ∧ isBlank c then basic? multi fold rest
    else if fold.isSome ∧ c = '\n' then basic? multi (some true) rest
    else if fold.isSome ∧ c = '\r' ∧ rest.head? = some '\n' then basic? multi fold rest
    else if fold = some false then none
    else if c = '"' then
      if multi then
        match closes? '"' rest with
        | some rest => some (closing '"' rest)
        | none => put c (basic? multi none rest)
      else some ([], rest)
    else if c = '\\' then
      match rest with
      | [] => none
      | e :: rest =>
        if e = 'u' then
          match rest with
          | a :: b :: c :: d :: rest =>
            (scalar? [a, b, c, d]).bind fun c => put c (basic? multi none rest)
          | _ => none
        else if e = 'U' then
          match rest with
          | a :: b :: c :: d :: e :: f :: g :: h :: rest =>
            (scalar? [a, b, c, d, e, f, g, h]).bind fun c => put c (basic? multi none rest)
          | _ => none
        else if multi ∧ isBlank e then basic? multi (some false) rest
        else if multi ∧ e = '\n' then basic? multi (some true) rest
        else if multi ∧ e = '\r' ∧ rest.head? = some '\n' then basic? multi (some false) rest
        else (escape? e).bind fun c => put c (basic? multi none rest)
    else if multi ∧ c = '\n' then put c (basic? multi none rest)
    else if multi ∧ c = '\r' ∧ rest.head? = some '\n' then basic? multi none rest
    else if isShown c then put c (basic? multi none rest)
    else none

/-- The rest of a string between apostrophes, over several lines if `multi`. -/
def literal? (multi : Bool) : List Char → Body
  | [] => none
  | c :: rest =>
    if c = '\'' then
      if multi then
        match closes? '\'' rest with
        | some rest => some (closing '\'' rest)
        | none => put c (literal? multi rest)
      else some ([], rest)
    else if multi ∧ c = '\n' then put c (literal? multi rest)
    else if multi ∧ c = '\r' ∧ rest.head? = some '\n' then literal? multi rest
    else if isShown c then put c (literal? multi rest)
    else none

/-- A string over several lines does not hold the line break behind its opening. -/
def skipFirstLine (cs : List Char) : List Char := (newline? cs).getD cs

/-- A string on one line: what a key may be written as. -/
def quotedKey? : List Char → Body
  | '"' :: rest => basic? false none rest
  | '\'' :: rest => literal? false rest
  | _ => none

/-- A string of any kind. -/
def string? : List Char → Body
  | '"' :: '"' :: '"' :: rest => basic? true none (skipFirstLine rest)
  | '\'' :: '\'' :: '\'' :: rest => literal? true (skipFirstLine rest)
  | cs => quotedKey? cs

/-! ## Digits -/

/-- Digits, between any two of which an underscore may stand. -/
def moreDigits (digit? : Char → Option Nat) : List Char → List Nat × List Char
  | [] => ([], [])
  | c :: rest =>
    match digit? c with
    | some d =>
      let more := moreDigits digit? rest
      (d :: more.1, more.2)
    | none =>
      if c = '_' ∧ (rest.head?.bind digit?).isSome then moreDigits digit? rest
      else ([], c :: rest)

/-- One or more digits, between any two of which an underscore may stand. -/
def digits? (digit? : Char → Option Nat) (cs : List Char) : Option (List Nat × List Char) :=
  if (cs.head?.bind digit?).isSome then some (moreDigits digit? cs) else none

/-- Whether a minus stands at the start, and the text behind the sign, if there is one. -/
def sign : List Char → Bool × List Char
  | '-' :: rest => (true, rest)
  | '+' :: rest => (false, rest)
  | cs => (false, cs)

/-- The digits of a whole number without a superfluous zero in front. -/
def whole? : List Char → Option (List Nat × List Char)
  | '0' :: rest => some ([0], rest)
  | cs => digits? Numeral.digit? cs

/-! ## Integers -/

/-- The integer of a magnitude, if it fits 64 bits. -/
def signed (negative : Bool) (n : Nat) : Except Error Toml :=
  if negative then if n ≤ Nat.pow 2 63 then .ok (.integer (-(n : Int))) else .error .outOfRange
  else if n < Nat.pow 2 63 then .ok (.integer n) else .error .outOfRange

/-- A digit below a base. -/
def digitBelow? (base : Nat) (c : Char) : Option Nat := (Ip.hexDigit? c).filter (· < base)

/-- An integer in a base whose mark has been passed. -/
def integerIn (base : Nat) (cs : List Char) : Except Error (Toml × List Char) :=
  match digits? (digitBelow? base) cs with
  | none => .error .malformed
  | some (ds, rest) => do return (← signed false (Ip.ofDigits base ds), rest)

/-! ## Numbers with a fraction or an exponent -/

/-- Whether `n * 10 ^ e` lies above the largest binary64 number. -/
def isTooLarge (n : Nat) (e : Int) : Bool :=
  if n = 0 then false
  else
    let places : Int := (Nat.toDigits 10 n).length + e
    if places ≤ 308 then false
    else if 310 ≤ places then true
    else if 0 ≤ e then (Binary64.magnitude? (n * Nat.pow 10 e.natAbs) 1).isNone
    else (Binary64.magnitude? n (Nat.pow 10 e.natAbs)).isNone

/-- The exponent of a number, if one stands here. -/
def exponent? : List Char → Option (Int × List Char)
  | c :: rest =>
    if c = 'e' ∨ c = 'E' then do
      let (negative, rest) := sign rest
      let (ds, rest) ← digits? Numeral.digit? rest
      let n := Ip.ofDigits 10 ds
      return (if negative then -(n : Int) else n, rest)
    else none
  | [] => none

/-- The digits behind the point of a number, if there is one. -/
def fraction? : List Char → Option (List Nat × List Char)
  | '.' :: rest => digits? Numeral.digit? rest
  | _ => none

/-- The part of a text before a rest of it, as a text. -/
def textBefore (cs rest : List Char) : String := String.ofList (cs.take (cs.length - rest.length))

/-- A number with a fraction or an exponent, if one stands here. -/
def float? (cs : List Char) : Option (Except Error (Toml × List Char)) := do
  let (negative, body) := sign cs
  let (ds, rest) ← whole? body
  let (fs, e, rest) ← match fraction? rest with
    | some (fs, rest) =>
      let (e, rest) := (exponent? rest).getD (0, rest)
      some (fs, e, rest)
    | none => (exponent? rest).map fun (e, rest) => ([], e, rest)
  if !negative && isTooLarge (Ip.ofDigits 10 (ds ++ fs)) (e - fs.length) then
    return .error .outOfRange
  else return .ok (.float (textBefore cs rest), rest)

/-- The text behind a fixed word. -/
def afterWord? (word cs : List Char) : Option (List Char) :=
  if word.isPrefixOf cs then some (cs.drop word.length) else none

/-- A number that is infinite or none at all. -/
def special? (cs : List Char) : Option (Toml × List Char) := do
  let body := (sign cs).2
  let rest ← (afterWord? ['i', 'n', 'f'] body).or (afterWord? ['n', 'a', 'n'] body)
  return (.float (textBefore cs rest), rest)

/-! ## Points in time -/

/-- A number of so many digits between two bounds. -/
def field? (width low high : Nat) (cs : List Char) : Option (Nat × List Char) := do
  let ds ← (cs.take width).mapM Numeral.digit?
  let n := Ip.ofDigits 10 ds
  if ds.length = width ∧ low ≤ n ∧ n ≤ high then some (n, cs.drop width) else none

/-- The number of days of a month. -/
def monthLength (year month : Nat) : Nat :=
  if month = 2 then
    if year % 4 = 0 ∧ (year % 100 ≠ 0 ∨ year % 400 = 0) then 29 else 28
  else if month = 4 ∨ month = 6 ∨ month = 9 ∨ month = 11 then 30
  else 31

/-- The text behind a date. -/
def afterDate? (cs : List Char) : Option (List Char) := do
  let (year, cs) ← field? 4 0 9999 cs
  let (month, cs) ← field? 2 1 12 (← Ip.after? '-' cs)
  let (_, cs) ← field? 2 1 (monthLength year month) (← Ip.after? '-' cs)
  return cs

/-- The text behind a fraction of a second, if there is one. -/
def afterFraction (cs : List Char) : List Char :=
  match cs with
  | '.' :: d :: rest =>
    if d.isDigit then rest.dropWhile Char.isDigit else cs
  | _ => cs

/-- The text behind a time of day. -/
def afterTime? (cs : List Char) : Option (List Char) := do
  let (_, cs) ← field? 2 0 23 cs
  let (_, cs) ← field? 2 0 59 (← Ip.after? ':' cs)
  let (_, cs) ← field? 2 0 60 (← Ip.after? ':' cs)
  return afterFraction cs

/-- The text behind a distance from universal time. -/
def afterOffset? : List Char → Option (List Char)
  | c :: rest =>
    if c = 'Z' ∨ c = 'z' then some rest
    else if c = '+' ∨ c = '-' then do
      let (_, cs) ← field? 2 0 23 rest
      let (_, cs) ← field? 2 0 59 (← Ip.after? ':' cs)
      return cs
    else none
  | [] => none

/-- The text behind a time of day that follows a date, if one does. -/
def afterDayTime (cs : List Char) : List Char :=
  match cs with
  | c :: rest =>
    if c = 'T' ∨ c = 't' ∨ c = ' ' then
      match afterTime? rest with
      | some rest => (afterOffset? rest).getD rest
      | none => cs
    else cs
  | [] => cs

/-- A point in time, if one stands here: a date, a time of day or both. -/
def moment? (cs : List Char) : Option (Toml × List Char) := do
  let rest ← ((afterDate? cs).map afterDayTime).or (afterTime? cs)
  return (.moment (textBefore cs rest), rest)

/-! ## Numbers -/

/-- A number or a point in time. -/
def number (cs : List Char) : Except Error (Toml × List Char) :=
  match moment? cs with
  | some r => .ok r
  | none =>
    match float? cs with
    | some r => r
    | none =>
      match special? cs with
      | some r => .ok r
      | none =>
        match cs with
        | '0' :: 'x' :: rest => integerIn 16 rest
        | '0' :: 'o' :: rest => integerIn 8 rest
        | '0' :: 'b' :: rest => integerIn 2 rest
        | _ =>
          let (negative, body) := sign cs
          match whole? body with
          | none => .error .malformed
          | some (ds, rest) => do return (← signed negative (Ip.ofDigits 10 ds), rest)

end Toml
end ProxyPlane
