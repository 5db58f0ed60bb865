import ProxyPlane.Toml.Scalar

/-!
# Reading TOML texts

A text is a list of lines: keys with values, headers of tables, comments.  Each key is put into the
table whose header stands before it.  No key may be given twice, and a table that is complete is
closed to everybody else.

## What is here

* `Toml.value`, a value, in which arrays and tables may be nested up to a limit.
* `Toml.alter`, the entries of a table with what stands below some keys changed.
* `Toml.read`, the table of a whole text.
-/

set_option autoImplicit false
namespace ProxyPlane
namespace Toml

/-! ## Keys -/

/-- How deep keys and values may be nested. -/
def maxDepth : Nat := 80

/-- Whether a character may stand in a key without quotation marks. -/
def isBare (c : Char) : Bool := c.isAlphanum || c == '_' || c == '-'

/-- One part of a key. -/
def keyPart? (cs : List Char) : Option (String × List Char) :=
  match quotedKey? cs with
  | some (name, rest) => some (String.ofList name, rest)
  | none =>
    let name := cs.takeWhile isBare
    if name.isEmpty then none else some (String.ofList name, cs.dropWhile isBare)

/-- The parts of a key between dots, and the blanks around them; `fuel` bounds their number. -/
def keyParts? : Nat → List Char → Option (List String × List Char)
  | 0, _ => none
  | fuel + 1, cs => do
    let (part, rest) ← keyPart? (skipBlanks cs)
    match skipBlanks rest with
    | '.' :: rest =>
      let (parts, rest) ← keyParts? fuel rest
      return (part :: parts, rest)
    | rest => return ([part], rest)

/-- A key, by its parts before the last one, and its last one. -/
structure Key where
  path : List String
  last : String

/-- A key. -/
def key (cs : List Char) : Except Error (Key × List Char) :=
  match keyParts? (cs.length + 1) cs with
  | none => .error .malformed
  | some (parts, rest) =>
    if maxDepth < parts.length then .error .tooDeep
    else
      match parts.getLast? with
      | none => .error .malformed
      | some last => .ok (⟨parts.dropLast, last⟩, rest)

/-! ## Entries -/

/-- The entries with another value for a key that they have. -/
def setEntry (key : String) (value : Toml) (entries : List (String × Toml)) :
    List (String × Toml) :=
  entries.map fun e => if e.1 == key then (key, value) else e

/-- The entries with a value for a key that they do not have. -/
def addEntry (key : String) (value : Toml) (entries : List (String × Toml)) :
    Except Error (List (String × Toml)) :=
  if (entries.lookup key).isSome then .error (.duplicateKey key)
  else .ok (entries ++ [(key, value)])

/-- The entries of a table between braces with another one below the given keys. -/
def addInline (value : Toml) (last : String) :
    List String → List (String × Toml) → Except Error (List (String × Toml))
  | [], entries => addEntry last value entries
  | k :: path, entries =>
    match entries.lookup k with
    | none => do
      return entries ++ [(k, .inlineTable true (← addInline value last path []))]
    | some (.inlineTable true inner) => do
      return setEntry k (.inlineTable true (← addInline value last path inner)) entries
    | some (.inlineTable false _) => .error (.duplicateKey k)
    | some _ => .error (.notTable k)

/-- The entries of a table with the entries below some keys changed; tables that are missing on the
way are made.  The change sees how the last of the tables came to be.  Keys with dots do not enter
tables that have a header. -/
def alter (dotted : Bool)
    (change : Origin → List (String × Toml) → Except Error (List (String × Toml))) :
    List String → Origin → List (String × Toml) → Except Error (List (String × Toml))
  | [], origin, entries => change origin entries
  | k :: path, _, entries =>
    match entries.lookup k with
    | none => do
      let origin := if dotted then Origin.dotted else Origin.implied
      return entries ++ [(k, .table origin (← alter dotted change path origin []))]
    | some (.table origin inner) =>
      if dotted ∧ origin = .header then .error (.duplicateKey k)
      else do return setEntry k (.table origin (← alter dotted change path origin inner)) entries
    | some (.tables items) =>
      match items.getLast? with
      | none => .error (.notTable k)
      | some inner => do
        let inner ← alter dotted change path .header inner
        return setEntry k (.tables (items.dropLast ++ [inner])) entries
    | some _ => .error (.notTable k)

/-! ## Values -/

/-- The values of an array up to its closing bracket, with `element` reading one of them. -/
def items (element : List Char → Except Error (Toml × List Char)) :
    Nat → List Char → Except Error (List Toml × List Char)
  | 0, _ => .error .malformed
  | fuel + 1, cs =>
    match skipFiller false cs with
    | ']' :: rest => .ok ([], rest)
    | cs => do
      let (v, rest) ← element cs
      match skipFiller false rest with
      | ']' :: rest => return ([v], rest)
      | ',' :: rest =>
        let (vs, rest) ← items element fuel rest
        return (v :: vs, rest)
      | _ => .error .malformed

/-- The entries of a table between braces, with `element` reading the value of one. -/
def members (element : List Char → Except Error (Toml × List Char)) :
    Nat → List (String × Toml) → List Char → Except Error (List (String × Toml) × List Char)
  | 0, _, _ => .error .malformed
  | fuel + 1, entries, cs => do
    let (k, rest) ← key cs
    match rest with
    | '=' :: rest =>
      let (v, rest) ← element (skipBlanks rest)
      let entries ← addInline v k.last k.path entries
      match skipBlanks rest with
      | '}' :: rest => return (entries, rest)
      | ',' :: rest => members element fuel entries rest
      | _ => .error .malformed
    | _ => .error .malformed

/-- A value at its first character, in which values may still be nested `depth` deep. -/
def value (depth : Nat) (cs : List Char) : Except Error (Toml × List Char) :=
  match cs with
  | [] => .error .malformed
  | c :: rest =>
    if c = '"' ∨ c = '\'' then
      match string? cs with
      | some (s, rest) => .ok (.string (String.ofList s), rest)
      | none => .error .malformed
    else if c = '[' ∨ c = '{' then
      match depth with
      | 0 => .error .tooDeep
      | depth + 1 =>
        if c = '[' then do
          let (vs, rest) ← items (value depth) (rest.length + 1) rest
          return (.array vs, rest)
        else
          match skipBlanks rest with
          | '}' :: rest => .ok (.inlineTable false [], rest)
          | rest => do
            let (entries, rest) ← members (value depth) (rest.length + 1) [] rest
            return (.inlineTable false entries, rest)
    else
      match afterWord? ['t', 'r', 'u', 'e'] cs, afterWord? ['f', 'a', 'l', 's', 'e'] cs with
      | some rest, _ => .ok (.bool true, rest)
      | _, some rest => .ok (.bool false, rest)
      | none, none => number cs

/-! ## Lines -/

/-- What has been read: the entries of the outermost table, and the keys of the last header. -/
structure Progress where
  entries : List (String × Toml)
  header : List String

/-- The text of the next line. -/
def endLine (cs : List Char) : Except Error (List Char) :=
  match endLine? cs with
  | some rest => .ok rest
  | none => .error .malformed

/-- A key with its value. -/
def entryLine (p : Progress) (cs : List Char) : Except Error (Progress × List Char) := do
  let (k, rest) ← key cs
  match rest with
  | '=' :: rest =>
    let (v, rest) ← value maxDepth (skipBlanks rest)
    let rest ← endLine rest
    let put (origin : Origin) (entries : List (String × Toml)) :
        Except Error (List (String × Toml)) :=
      if origin = .dotted then addEntry k.last v entries else .error (.duplicateKey k.last)
    let below (_ : Origin) (entries : List (String × Toml)) :
        Except Error (List (String × Toml)) :=
      if k.path.isEmpty then addEntry k.last v entries
      else alter true put k.path .header entries
    return ({ p with entries := ← alter false below p.header .header p.entries }, rest)
  | _ => .error .malformed

/-- The entries with the table of a header. -/
def openTable (last : String) (entries : List (String × Toml)) :
    Except Error (List (String × Toml)) :=
  match entries.lookup last with
  | none => .ok (entries ++ [(last, .table .header [])])
  | some (.table .implied inner) => .ok (setEntry last (.table .header inner) entries)
  | some _ => .error (.duplicateKey last)

/-- The entries with one more table for a header between double brackets. -/
def openRepeated (last : String) (entries : List (String × Toml)) :
    Except Error (List (String × Toml)) :=
  match entries.lookup last with
  | none => .ok (entries ++ [(last, .tables [[]])])
  | some (.tables items) => .ok (setEntry last (.tables (items ++ [[]])) entries)
  | some _ => .error (.duplicateKey last)

/-- A header whose opening has been passed. -/
def headerLine (repeated : Bool) (p : Progress) (cs : List Char) :
    Except Error (Progress × List Char) := do
  let (k, rest) ← key cs
  let closed := if repeated then afterWord? [']', ']'] rest else afterWord? [']'] rest
  match closed with
  | none => .error .malformed
  | some rest =>
    let rest ← endLine rest
    let change (_ : Origin) := if repeated then openRepeated k.last else openTable k.last
    return (⟨← alter false change k.path .header p.entries, k.path ++ [k.last]⟩, rest)

/-- One line that is not empty. -/
def line (p : Progress) : List Char → Except Error (Progress × List Char)
  | '#' :: rest => do return (p, ← endLine ('#' :: rest))
  | '[' :: '[' :: rest => headerLine true p rest
  | '[' :: rest => headerLine false p rest
  | cs => entryLine p cs

/-- The lines of a text; `fuel` bounds their number. -/
def lines : Nat → Progress → List Char → Except Error Progress
  | 0, _, _ => .error .malformed
  | fuel + 1, p, cs =>
    match skipBlanks cs with
    | [] => .ok p
    | cs =>
      match newline? cs with
      | some rest => lines fuel p rest
      | none => do
        let (p, rest) ← line p cs
        lines fuel p rest

/-- The text behind a byte order mark at its start. -/
def skipMark : List Char → List Char
  | c :: rest => if c.toNat = 0xFEFF then rest else c :: rest
  | [] => []

/-- The table of a text. -/
def read (text : String) : Except Error Toml := do
  let cs := skipMark text.toList
  let p ← lines (cs.length + 1) ⟨[], []⟩ cs
  return .table .header p.entries

end Toml
end ProxyPlane
