import ProxyPlane.Json.Printer
import ProxyPlane.Json.Scan

/-!
# Types with a JSON form

The form of a type is declared once and serves both ways: a `Codec` writes values and reads them, a
`Member` is one key of an object, and an object type is a list of members.  Reading walks the tree
of a text in order, so the first problem of the text is the one reported.

## What is here

* `Codec`, with those of the basic types: text, truth values, bounded numbers, lists, dictionaries,
  options and values of any shape.
* `Member` and its kinds: always written, written unless empty, optional.
* `Codec.record`: objects that ignore unknown keys, and are also read from an array of their fields.
* `Codec.document`: objects that keep unknown keys, in key order, behind the declared ones.
* `Codec.decode`, `Codec.ofValue`, `Codec.compact` and `Codec.pretty` for whole texts.
-/

set_option autoImplicit false
namespace ProxyPlane
namespace Json

/-- How the values of a type are written and read. -/
structure Codec (α : Type) where
  encode : α → Json
  read : Scan → Except Error α

/-! ## Walking a tree -/

/-- The problem, if there is one. -/
def refuse : Option Error → Except Error Unit
  | none => .ok ()
  | some e => .error e

/-- The value of a tree that is not of the wanted kind: a problem of the text comes first. -/
def mismatch {α : Type} (expected : String) : Scan → Except Error α
  | .number (.error e) | .string (.error e) | .broken e => .error e
  | _ => .error (.wrongShape expected)

mutual

/-- Walking over a value that nobody wants.  Strings that are no text and numbers out of range do
not matter here. -/
def ignore : Scan → Except Error Unit
  | .array items stop => do ignoreItems items; refuse (stop.map Error.whenSkipped)
  | .object members stop => do ignoreMembers members; refuse (stop.map Error.whenSkipped)
  | .deep _ skipped => refuse skipped
  | .broken e => .error e.whenSkipped
  | _ => .ok ()

/-- Walking over the elements of an array that nobody wants. -/
def ignoreItems : List Scan → Except Error Unit
  | [] => .ok ()
  | v :: rest => do ignore v; ignoreItems rest

/-- Walking over the members of an object that nobody wants. -/
def ignoreMembers : List (Except Error String × Scan) → Except Error Unit
  | [] => .ok ()
  | (_, v) :: rest => do ignore v; ignoreMembers rest

end

mutual

/-- A value of any shape, in normal form. -/
def readAny : Scan → Except Error Json
  | .null => .ok .null
  | .bool b => .ok (.bool b)
  | .number n => n.map .number
  | .string s => s.map .string
  | .array items stop => do
    let items ← readAnyItems items
    refuse stop
    return .array items
  | .object members stop => do
    let members ← readAnyMembers members Dict.empty
    refuse stop
    return .object members.entries
  | .deep _ _ => .error .tooDeep
  | .broken e => .error e

/-- The elements of an array of any values. -/
def readAnyItems : List Scan → Except Error (List Json)
  | [] => .ok []
  | v :: rest => do
    let v ← readAny v
    let rest ← readAnyItems rest
    return v :: rest

/-- The members of an object of any values, put into a dictionary. -/
def readAnyMembers : List (Except Error String × Scan) → Dict Json → Except Error (Dict Json)
  | [], d => .ok d
  | (k, v) :: rest, d => do
    let k ← k
    let v ← readAny v
    readAnyMembers rest (d.insert k v)

end

/-- The elements of an array read one after the other. -/
def readItems {α : Type} (read : Scan → Except Error α) : List Scan → Except Error (List α)
  | [] => .ok []
  | v :: rest => do
    let v ← read v
    let rest ← readItems read rest
    return v :: rest

/-- The members of an object read one after the other into a dictionary. -/
def readMembers {α : Type} (read : Scan → Except Error α) :
    List (Except Error String × Scan) → Dict α → Except Error (Dict α)
  | [], d => .ok d
  | (k, v) :: rest, d => do
    let k ← k
    let v ← read v
    readMembers read rest (d.insert k v)

/-! ## Basic types -/

namespace Codec

/-- Values of any shape, kept in normal form. -/
def any : Codec Json where
  encode v := v
  read := readAny

/-- Texts. -/
def string : Codec String where
  encode := .string
  read
    | .string s => s
    | v => mismatch "a string" v

/-- Truth values. -/
def bool : Codec Bool where
  encode := .bool
  read
    | .bool b => .ok b
    | v => mismatch "a boolean" v

/-- Natural numbers below a bound. -/
def nat (bound : Nat) : Codec Nat where
  encode := .ofNat
  read
    | .number (.ok (.int i)) =>
      if 0 ≤ i ∧ i < bound then .ok i.toNat else .error (.wrongShape s!"an integer below {bound}")
    | v => mismatch "an integer" v

/-- Arrays. -/
def list {α : Type} (c : Codec α) : Codec (List α) where
  encode xs := .array (xs.map c.encode)
  read
    | .array items stop => do
      let items ← readItems c.read items
      refuse stop
      return items
    | .deep false _ => .error .tooDeep
    | v => mismatch "an array" v

/-- Objects with free keys. -/
def dict {α : Type} (c : Codec α) : Codec (Dict α) where
  encode d := .object (d.map c.encode).entries
  read
    | .object members stop => do
      let d ← readMembers c.read members Dict.empty
      refuse stop
      return d
    | .deep true _ => .error .tooDeep
    | v => mismatch "an object" v

/-- Objects with values of any shape. -/
def fields : Codec (Dict Json) := dict any

/-- A value or `null`. -/
def option {α : Type} (c : Codec α) : Codec (Option α) where
  encode
    | none => .null
    | some a => c.encode a
  read
    | .null => .ok none
    | v => (c.read v).map some

/-- One of several names, each of which may also be the only key of an object, with `null`. -/
def name {α : Type} (choices : List (String × α)) (nameOf : α → String) : Codec α where
  encode a := .string (nameOf a)
  read
    | .string (.ok s) =>
      match choices.lookup s with
      | some a => .ok a
      | none => .error (.wrongShape "one of the known names")
    | .object [] none => .error (.wrongShape "one of the known names")
    | .object ((.ok s, v) :: rest) stop =>
      match choices.lookup s with
      | none => .error (.wrongShape "one of the known names")
      | some a =>
        match v with
        | .null =>
          match rest, stop with
          | [], none => .ok a
          | [], some e => .error e
          | _ :: _, _ => .error (.wrongShape "a single name")
        | v => mismatch "null" v
    | .object ((.error e, _) :: _) _ => .error e
    | .object [] (some e) => .error e
    | .deep true _ => .error .tooDeep
    | v => mismatch "a name" v

end Codec

/-! ## Members of objects -/

/-- One key of an object type: whether it must be there, how its value is put into the object, and
what is written for it, if anything. -/
structure Member (σ : Type) where
  key : String
  required : Bool
  read : Scan → σ → Except Error σ
  write : σ → Option Json

namespace Member

variable {σ α : Type}

/-- A member that is always written; when it is absent the object keeps its default. -/
def always (key : String) (c : Codec α) (get : σ → α) (set : α → σ → σ) : Member σ where
  key := key
  required := false
  read v s := (c.read v).map fun a => set a s
  write s := some (c.encode (get s))

/-- A member that is always written and must be there. -/
def needed (key : String) (c : Codec α) (get : σ → α) (set : α → σ → σ) : Member σ :=
  { always key c get set with required := true }

/-- A member that is not written when a test holds of its value. -/
def unlessEmpty (empty : α → Bool) (key : String) (c : Codec α) (get : σ → α) (set : α → σ → σ) :
    Member σ where
  key := key
  required := false
  read v s := (c.read v).map fun a => set a s
  write s := if empty (get s) then none else some (c.encode (get s))

/-- A member that may be absent or `null`, and is not written then. -/
def optional (key : String) (c : Codec α) (get : σ → Option α) (set : Option α → σ → σ) :
    Member σ where
  key := key
  required := false
  read v s := (c.option.read v).map fun a => set a s
  write s := (get s).map c.encode

end Member

/-! ## Object types -/

variable {σ : Type}

/-- The declared member with a key. -/
def findMember (members : List (Member σ)) (key : String) : Option (Member σ) :=
  members.find? fun m => m.key == key

/-- The object if every member that must be there was seen. -/
def checkMissing (members : List (Member σ)) (seen : List String) (s : σ) : Except Error σ :=
  match members.find? fun m => m.required && !seen.contains m.key with
  | some m => .error (.missingField m.key)
  | none => .ok s

/-- Reading the members of an object in the order of the text.  A declared key may stand once;
`unknown` says what becomes of any other. -/
def readObject (members : List (Member σ)) (unknown : String → Scan → σ → Except Error σ) :
    List String → σ → List (Except Error String × Scan) → Except Error (σ × List String)
  | seen, s, [] => .ok (s, seen)
  | seen, s, (k, v) :: rest => do
    let k ← k
    match findMember members k with
    | some m =>
      if seen.contains k then .error (.duplicateField k)
      else
        let s ← m.read v s
        readObject members unknown (k :: seen) s rest
    | none =>
      let s ← unknown k v s
      readObject members unknown seen s rest

/-- Reading the fields of a record from an array, in the order of their declaration. -/
def readFields : List (Member σ) → σ → List Scan → Option Error → Except Error σ
  | [], s, [], none => .ok s
  | [], _, [], some .unfinishedAfterComma => .error .surplus
  | [], _, [], some e => .error e
  | [], _, _ :: _, _ => .error .surplus
  | m :: members, s, v :: rest, stop => do
    let s ← m.read v s
    readFields members s rest stop
  | m :: members, s, [], none =>
    if m.required then .error (.missingField m.key) else readFields members s [] none
  | _ :: _, _, [], some e => .error e

/-- The declared members that are written for an object. -/
def writeMembers (members : List (Member σ)) (s : σ) : List (String × Json) :=
  members.filterMap fun m => (m.write s).map fun v => (m.key, v)

namespace Codec

/-- A record: unknown keys are passed over, and an array of its fields is read as well. -/
def record (start : σ) (members : List (Member σ)) : Codec σ where
  encode s := .object (writeMembers members s)
  read
    | .object entries stop => do
      let r ← readObject members (fun _ v s => do ignore v; return s) [] start entries
      refuse stop
      checkMissing members r.2 r.1
    | .array items stop => readFields members start items stop
    | .deep _ _ => .error .tooDeep
    | v => mismatch "an object" v

/-- A section of a document: unknown keys are kept in key order and written behind the others. -/
def document (start : σ) (members : List (Member σ)) (extra : σ → Dict Json)
    (setExtra : Dict Json → σ → σ) : Codec σ where
  encode s := .object (writeMembers members s ++ (extra s).entries)
  read
    | .object entries stop => do
      let keep (k : String) (v : Scan) (s : σ) : Except Error σ := do
        let v ← readAny v
        return setExtra ((extra s).insert k v) s
      let r ← readObject members keep [] start entries
      refuse stop
      checkMissing members r.2 r.1
    | .deep true _ => .error .tooDeep
    | v => mismatch "an object" v

/-! ## Whole texts -/

variable {α : Type}

/-- The value of a text, which must hold nothing behind it. -/
def decode (c : Codec α) (bs : Bytes) : Except Error α := do
  let (tree, rest) := scan bs
  let a ← c.read tree
  refuse (endOfText rest)
  return a

/-- The value of a JSON value. -/
def ofValue (c : Codec α) (v : Json) : Except Error α :=
  match c.read (Scan.ofJson v) with
  | .error .surplus => .error (.wrongShape "no more elements than fields")
  | r => r

/-- The compact text of a value. -/
def compact (c : Codec α) (a : α) : Bytes := (c.encode a).compact

/-- The indented text of a value. -/
def pretty (c : Codec α) (a : α) : Bytes := (c.encode a).pretty

end Codec
end Json
end ProxyPlane
