import ProxyPlane.Json.Error
import ProxyPlane.Json.Value
import ProxyPlane.Text.Utf8

/-!
# Scanning JSON texts

A text is scanned once, without knowing which shape is wanted, into a tree that also says where and
why scanning stopped.  Whoever walks the tree in order then meets the problems of the text and the
mismatches with the wanted shape in the order of the text, so the first one decides.

## What is here

* `Json.Scan`, the tree.  A string that is no text and a number out of range stand in it as
  problems of their own, because a member that nobody wants may hold them.
* `Json.scanValue`, `Json.scan`: from bytes to the tree, and whether something follows the value.
* `Json.skipValue`, which passes over a value below the nesting limit.
* `Scan.ofJson`, the tree of a value that is already known.
-/

set_option autoImplicit false
namespace ProxyPlane
namespace Json

/-- What a text holds, as far as it could be scanned. -/
inductive Scan
  | null
  | bool (value : Bool)
  | number (value : Except Error Number)
  | string (value : Except Error String)
  /-- The elements, and what ended the scan in place of the closing bracket. -/
  | array (items : List Scan) (stop : Option Error)
  /-- The members in the order of the text, and what ended the scan in place of the brace. -/
  | object (members : List (Except Error String × Scan)) (stop : Option Error)
  /-- An array or object below the nesting limit, and the problem met when passing over it. -/
  | deep (isObject : Bool) (skipped : Option Error)
  /-- No value can be read here. -/
  | broken (why : Error)
deriving Inhabited

/-- A piece of a text, with what follows it or the reason why the scan cannot go on. -/
abbrev Scanned (α : Type) := α × Except Error Bytes

/-- Whether a byte may stand between the parts of a text. -/
def isSpace (b : UInt8) : Bool := b == 0x20 || b == 0x0A || b == 0x09 || b == 0x0D

/-- The text behind the blanks at its start. -/
def skipSpace : Bytes → Bytes
  | [] => []
  | b :: rest => if isSpace b then skipSpace rest else b :: rest

/-! ## Strings -/

/-- The value of a hexadecimal digit. -/
def hexValue? (b : UInt8) : Option Nat :=
  if 0x30 ≤ b ∧ b ≤ 0x39 then some (b.toNat - 0x30)
  else if 0x61 ≤ b ∧ b ≤ 0x66 then some (b.toNat - 0x57)
  else if 0x41 ≤ b ∧ b ≤ 0x46 then some (b.toNat - 0x37)
  else none

/-- The number written by four hexadecimal digits. -/
def hex4? (a b c d : UInt8) : Option Nat := do
  return (((← hexValue? a) * 16 + (← hexValue? b)) * 16 + (← hexValue? c)) * 16 + (← hexValue? d)

/-- The byte that a one-letter escape stands for. -/
def unescape? (b : UInt8) : Option UInt8 :=
  if b = 0x22 ∨ b = 0x5C ∨ b = 0x2F then some b
  else if b = 0x62 then some 0x08
  else if b = 0x66 then some 0x0C
  else if b = 0x6E then some 0x0A
  else if b = 0x72 then some 0x0D
  else if b = 0x74 then some 0x09
  else none

/-- The contents of a string up to its closing quotation mark, escapes replaced.  `none` stands for
contents that are no text because of an unpaired surrogate; they are passed over all the same, and
`high` holds a high surrogate that still waits for its partner. -/
inductive StringEnd
  /-- The string was closed. -/
  | closed (contents : Option Bytes) (rest : Bytes)
  /-- The string was not closed; `early` is the first problem of one who wants the contents, and
  `why` that of one who passes over it. -/
  | stopped (early why : Error)

/-- A character put before the contents. -/
def StringEnd.put (bs : Bytes) : StringEnd → StringEnd
  | closed contents rest => closed (contents.map (bs ++ ·)) rest
  | stopped early why => stopped early why

/-- The contents are no text from here on. -/
def StringEnd.spoil : StringEnd → StringEnd
  | closed _ rest => closed none rest
  | stopped _ why => stopped .notText why

/-- The UTF-8 bytes of a code point. -/
def codeBytes (n : Nat) : Bytes := Utf8.encode (String.singleton (Char.ofNat n))

/-- The contents of a string whose opening quotation mark has been passed. -/
def scanString (high : Option Nat) : Bytes → StringEnd
  | [] => .stopped .unfinished .unfinished
  | b :: rest =>
    if b = 0x22 then .closed (if high.isNone then some [] else none) rest
    else if b < 0x20 then .stopped .malformed .malformed
    else if b = 0x5C then
      match rest with
      | [] => .stopped .unfinished .unfinished
      | e :: rest =>
        if e = 0x75 then
          match rest with
          | a :: b :: c :: d :: rest =>
            match hex4? a b c d with
            | none => .stopped .malformed .malformed
            | some n =>
              match high with
              | none =>
                if 0xDC00 ≤ n ∧ n ≤ 0xDFFF then (scanString none rest).spoil
                else if 0xD800 ≤ n ∧ n ≤ 0xDBFF then scanString (some n) rest
                else (scanString none rest).put (codeBytes n)
              | some h =>
                if 0xDC00 ≤ n ∧ n ≤ 0xDFFF then
                  (scanString none rest).put
                    (codeBytes (0x10000 + (h - 0xD800) * 0x400 + (n - 0xDC00)))
                else (scanString none rest).spoil
          | _ => .stopped .unfinished .unfinished
        else
          match unescape? e with
          | none => .stopped .malformed .malformed
          | some b =>
            if high.isNone then (scanString none rest).put [b] else (scanString none rest).spoil
    else if high.isNone then (scanString none rest).put [b]
    else (scanString none rest).spoil

/-- A string whose opening quotation mark has been passed. -/
def scanText (bs : Bytes) : Scanned (Except Error String) :=
  match scanString none bs with
  | .closed (some contents) rest =>
    (match Utf8.decode? contents with
      | some s => .ok s
      | none => .error .notText, .ok rest)
  | .closed none rest => (.error .notText, .ok rest)
  | .stopped early why => (.error early, .error why)

/-! ## Numbers -/

/-- Whether a byte is a decimal digit. -/
def isDigit (b : UInt8) : Bool := 0x30 ≤ b && b ≤ 0x39

/-- The digits at the start of a text, as numbers, and what follows them. -/
def takeDigits : Bytes → List Nat × Bytes
  | [] => ([], [])
  | b :: rest =>
    if isDigit b then
      let more := takeDigits rest
      ((b.toNat - 0x30) :: more.1, more.2)
    else ([], b :: rest)

/-- The parts of a numeral: an integer part, and a fraction and a signed exponent if there are. -/
structure Numeral where
  negative : Bool
  whole : List Nat
  fraction : Option (List Nat)
  exponent : Option (Bool × List Nat)
deriving Repr

/-- A significand of at most 64 bits, and the power of ten that it is to be multiplied with. -/
structure Significand where
  value : Nat
  exponent : Int

/-- Digits of an integer part read into a significand; the first digit that does not fit and all
digits behind it only raise the exponent. -/
def takeWhole (acc : Nat) : List Nat → Significand
  | [] => ⟨acc, 0⟩
  | d :: ds =>
    if acc * 10 + d < Nat.pow 2 64 then takeWhole (acc * 10 + d) ds
    else ⟨acc, (ds.length + 1 : Nat)⟩

/-- Digits of a fraction read behind a significand; the first digit that does not fit and all digits
behind it are dropped. -/
def takeFraction (s : Significand) : List Nat → Significand
  | [] => s
  | d :: ds =>
    if s.value * 10 + d < Nat.pow 2 64 then takeFraction ⟨s.value * 10 + d, s.exponent - 1⟩ ds
    else s

/-- The number of an exponent, or nothing if it does not fit 31 bits. -/
def takeExponent (acc : Nat) : List Nat → Option Nat
  | [] => some acc
  | d :: ds => if acc * 10 + d < Nat.pow 2 31 then takeExponent (acc * 10 + d) ds else none

/-- A power of ten applied to a magnitude, in steps of at most `10 ^ 308`. -/
def scaleMagnitude : Nat → Nat → Int → Except Error Nat
  | 0, m, _ => .ok m
  | fuel + 1, m, e =>
    if e.natAbs ≤ 308 then
      match Binary64.powerOfTen? e.natAbs with
      | none => .error .numberOutOfRange
      | some p =>
        if 0 ≤ e then
          match Binary64.mul? m p with
          | some r => .ok r
          | none => .error .numberOutOfRange
        else .ok ((Binary64.div? m p).getD 0)
    else if m = 0 then .ok 0
    else if 0 ≤ e then .error .numberOutOfRange
    else
      match Binary64.powerOfTen? 308 with
      | none => .error .numberOutOfRange
      | some p => scaleMagnitude fuel ((Binary64.div? m p).getD 0) (e + 308)

/-- The number of a significand: its nearest binary64 number, multiplied with or divided by the
nearest one to the power of ten. -/
def floatOf (negative : Bool) (s : Significand) : Except Error Number :=
  (scaleMagnitude 8 ((Binary64.magnitude? s.value 1).getD 0) s.exponent).map
    fun m => .float ⟨negative, m⟩

/-- The number of an integer part alone: an integer if it fits 64 bits, and minus zero is not an
integer. -/
def wholeNumber (negative : Bool) (s : Significand) : Except Error Number :=
  if s.exponent ≠ 0 then floatOf negative s
  else if !negative then .ok (.int s.value)
  else if s.value = 0 ∨ Nat.pow 2 63 < s.value then floatOf true s
  else .ok (.int (-(s.value : Int)))

/-- The number of a numeral. -/
def Numeral.value (n : Numeral) : Except Error Number :=
  let s := takeWhole 0 n.whole
  match n.fraction, n.exponent with
  | none, none => wholeNumber n.negative s
  | fraction, none => floatOf n.negative (takeFraction s (fraction.getD []))
  | fraction, some (down, ds) =>
    let s := takeFraction s (fraction.getD [])
    match takeExponent 0 ds with
    | some e =>
      floatOf n.negative ⟨s.value, if down then s.exponent - e else s.exponent + e⟩
    | none =>
      if s.value ≠ 0 ∧ !down then .error .numberOutOfRange else .ok (.float ⟨n.negative, 0⟩)

/-- Why digits are missing: the text ends, or something else stands there. -/
def noDigit : Bytes → Error
  | [] => .unfinishedNumber
  | _ :: _ => .malformed

/-- The exponent part of a numeral, if there is one. -/
def scanExponent (n : Numeral) (bs : Bytes) : Scanned Scan :=
  match bs with
  | [] => (.number n.value, .ok [])
  | b :: rest =>
    if b = 0x65 ∨ b = 0x45 then
      let (down, signed) : Bool × Bytes := match rest with
        | [] => (false, [])
        | s :: more =>
          if s = 0x2B then (false, more) else if s = 0x2D then (true, more) else (false, s :: more)
      let (ds, rest) := takeDigits signed
      if ds.isEmpty then (.broken (noDigit rest), .error (noDigit rest))
      else (.number { n with exponent := some (down, ds) }.value, .ok rest)
    else (.number n.value, .ok (b :: rest))

/-- The fraction of a numeral, if there is one, and what follows it. -/
def scanFraction (n : Numeral) (bs : Bytes) : Scanned Scan :=
  match bs with
  | [] => scanExponent n []
  | b :: rest =>
    if b = 0x2E then
      let (ds, rest) := takeDigits rest
      if ds.isEmpty then (.broken (noDigit rest), .error (noDigit rest))
      else scanExponent { n with fraction := some ds } rest
    else scanExponent n (b :: rest)

/-- A number whose sign has been passed.  No digit may follow a zero at its start. -/
def scanNumber (negative : Bool) (bs : Bytes) : Scanned Scan :=
  let (ds, rest) := takeDigits bs
  match ds with
  | [] => (.broken (noDigit rest), .error (noDigit rest))
  | 0 :: _ :: _ => (.broken .malformed, .error .malformed)
  | ds => scanFraction ⟨negative, ds, none, none⟩ rest

/-! ## Values -/

/-- The rest of a fixed word. -/
def scanWord (word : Bytes) (value : Scan) (bs : Bytes) : Scanned Scan :=
  match word, bs with
  | [], bs => (value, .ok bs)
  | _ :: _, [] => (.broken .unfinished, .error .unfinished)
  | w :: word, b :: bs =>
    if w = b then scanWord word value bs else (.broken .malformed, .error .malformed)

/-- What one who passes over a value makes of its problems: a number cut short is malformed. -/
def Error.whenSkipped : Error → Error
  | .unfinishedNumber => .malformed
  | e => e

/-- A value that is neither array nor object, at its first byte. -/
def scanScalar (b : UInt8) (rest : Bytes) : Scanned Scan :=
  if b = 0x22 then ((scanText rest).map .string id)
  else if b = 0x2D then scanNumber true rest
  else if isDigit b then scanNumber false (b :: rest)
  else if b = 0x6E then scanWord [0x75, 0x6C, 0x6C] .null rest
  else if b = 0x74 then scanWord [0x72, 0x75, 0x65] (.bool true) rest
  else if b = 0x66 then scanWord [0x61, 0x6C, 0x73, 0x65] (.bool false) rest
  else (.broken .malformed, .error .malformed)

/-- A member's key with the colon behind it, at the first byte of the member. -/
def scanKey (b : UInt8) (rest : Bytes) : Scanned (Except Error String) :=
  if b = 0x22 then
    match scanText rest with
    | (key, .error e) => (key, .error e)
    | (key, .ok rest) =>
      match skipSpace rest with
      | [] => (key, .error .unfinished)
      | c :: rest => if c = 0x3A then (key, .ok rest) else (key, .error .malformed)
  else (.error .malformed, .error .malformed)

/-- Passing over values below the nesting limit.  The `frames` say which brackets are open, an
object where `true`; a value is due if `due`, otherwise a comma or a bracket. -/
def skipFrames : Nat → List Bool → Bool → Bytes → Except Error Bytes
  | 0, _, _, _ => .error .malformed
  | fuel + 1, frames, due, bs =>
    match skipSpace bs with
    | [] => .error .unfinished
    | b :: rest =>
      if due then
        if b = 0x5B then
          match skipSpace rest with
          | [] => .error .unfinished
          | c :: rest =>
            if c = 0x5D then
              if frames.isEmpty then .ok rest else skipFrames fuel frames false rest
            else skipFrames fuel (false :: frames) true (c :: rest)
        else if b = 0x7B then
          match skipSpace rest with
          | [] => .error .unfinished
          | c :: rest =>
            if c = 0x7D then
              if frames.isEmpty then .ok rest else skipFrames fuel frames false rest
            else
              match (scanKey c rest).2 with
              | .error e => .error e.whenSkipped
              | .ok rest => skipFrames fuel (true :: frames) true rest
        else
          match (scanScalar b rest).2 with
          | .error e => .error e.whenSkipped
          | .ok rest => if frames.isEmpty then .ok rest else skipFrames fuel frames false rest
      else
        match frames with
        | [] => .ok (b :: rest)
        | frame :: outer =>
          if b = 0x2C then
            if frame then
              match skipSpace rest with
              | [] => .error .unfinished
              | c :: rest =>
                match (scanKey c rest).2 with
                | .error e => .error e.whenSkipped
                | .ok rest => skipFrames fuel frames true rest
            else skipFrames fuel frames true rest
          else if b = (if frame then 0x7D else 0x5D) then
            if outer.isEmpty then .ok rest else skipFrames fuel outer false rest
          else .error .malformed

/-- Passing over one array or object. -/
def skipValue (bs : Bytes) : Except Error Bytes := skipFrames (bs.length + 1) [] true bs

/-- The elements of an array up to its closing bracket, with `element` reading one of them. -/
def scanItems (element : Bytes → Scanned Scan) : Nat → Bytes → List Scan × Scanned (Option Error)
  | 0, _ => ([], some .malformed, .error .malformed)
  | fuel + 1, bs =>
    match element bs with
    | (v, .error e) => ([v], some e, .error e)
    | (v, .ok rest) =>
      match skipSpace rest with
      | [] => ([v], some .unfinished, .error .unfinished)
      | b :: rest =>
        if b = 0x5D then ([v], none, .ok rest)
        else if b = 0x2C then
          match skipSpace rest with
          | [] => ([v], some .unfinishedAfterComma, .error .unfinishedAfterComma)
          | b :: rest =>
            if b = 0x5D then ([v], some .malformed, .error .malformed)
            else
              let more := scanItems element fuel (b :: rest)
              (v :: more.1, more.2)
        else ([v], some .malformed, .error .malformed)

/-- An array whose opening bracket has been passed. -/
def scanArray (element : Bytes → Scanned Scan) (bs : Bytes) : Scanned Scan :=
  match skipSpace bs with
  | [] => (.array [] (some .unfinished), .error .unfinished)
  | b :: rest =>
    if b = 0x5D then (.array [] none, .ok rest)
    else
      let (items, stop, rest) := scanItems element (bs.length + 1) (b :: rest)
      (.array items stop, rest)

/-- The members of an object up to its closing brace, with `element` reading the value of one. -/
def scanMembers (element : Bytes → Scanned Scan) :
    Nat → Bytes → List (Except Error String × Scan) × Scanned (Option Error)
  | 0, _ => ([], some .malformed, .error .malformed)
  | fuel + 1, bs =>
    match bs with
    | [] => ([], some .unfinished, .error .unfinished)
    | b :: rest =>
      if b = 0x22 then
        match scanKey b rest with
        | (key, .error e) => ([(key, .broken e)], some e, .error e)
        | (key, .ok rest) =>
          match element rest with
          | (v, .error e) => ([(key, v)], some e, .error e)
          | (v, .ok rest) =>
            match skipSpace rest with
            | [] => ([(key, v)], some .unfinished, .error .unfinished)
            | b :: rest =>
              if b = 0x7D then ([(key, v)], none, .ok rest)
              else if b = 0x2C then
                match skipSpace rest with
                | [] => ([(key, v)], some .unfinishedAfterComma, .error .unfinishedAfterComma)
                | b :: rest =>
                  let more := scanMembers element fuel (b :: rest)
                  ((key, v) :: more.1, more.2)
              else ([(key, v)], some .malformed, .error .malformed)
      else ([], some .malformed, .error .malformed)

/-- An object whose opening brace has been passed. -/
def scanObject (element : Bytes → Scanned Scan) (bs : Bytes) : Scanned Scan :=
  match skipSpace bs with
  | [] => (.object [] (some .unfinished), .error .unfinished)
  | b :: rest =>
    if b = 0x7D then (.object [] none, .ok rest)
    else
      let (members, stop, rest) := scanMembers element (bs.length + 1) (b :: rest)
      (.object members stop, rest)

/-- An array or object below the nesting limit. -/
def scanDeep (isObject : Bool) (bs : Bytes) : Scanned Scan :=
  match skipValue bs with
  | .ok rest => (.deep isObject none, .ok rest)
  | .error e => (.deep isObject (some e), .error e)

/-- A value in which arrays and objects may still be opened `depth` deep. -/
def scanValue : Nat → Bytes → Scanned Scan
  | depth, bs =>
    match skipSpace bs with
    | [] => (.broken .unfinished, .error .unfinished)
    | b :: rest =>
      match depth with
      | 0 =>
        if b = 0x5B then scanDeep false (b :: rest)
        else if b = 0x7B then scanDeep true (b :: rest)
        else scanScalar b rest
      | depth + 1 =>
        if b = 0x5B then scanArray (scanValue depth) rest
        else if b = 0x7B then scanObject (scanValue depth) rest
        else scanScalar b rest

/-- How many arrays and objects may be open at once. -/
def maxDepth : Nat := 127

/-- What the walk over a text finds behind its value. -/
def endOfText : Except Error Bytes → Option Error
  | .error e => some e
  | .ok rest => if (skipSpace rest).isEmpty then none else some .trailing

/-- The tree of a text, and what is wrong behind its value. -/
def scan (bs : Bytes) : Scanned Scan := scanValue maxDepth bs

/-! ## Known values -/

mutual

/-- The tree of a value. -/
def Scan.ofJson : Json → Scan
  | .null => .null
  | .bool b => .bool b
  | .number n => .number (.ok n)
  | .string s => .string (.ok s)
  | .array items => .array (ofItems items) none
  | .object members => .object (ofMembers members) none

/-- The trees of the elements of an array. -/
def Scan.ofItems : List Json → List Scan
  | [] => []
  | v :: rest => Scan.ofJson v :: ofItems rest

/-- The trees of the members of an object. -/
def Scan.ofMembers : List (String × Json) → List (Except Error String × Scan)
  | [] => []
  | (k, v) :: rest => (.ok k, Scan.ofJson v) :: ofMembers rest

end

end Json
end ProxyPlane
