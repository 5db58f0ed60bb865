import ProxyPlane.Text.Pieces

/-!
# Paths of files

A path is kept as the text in which it was given, and shown so.  Repeated slashes, dots between
slashes and a slash at the end do not change which file it names, and two dots between slashes take
back the name before them.

## What is here

* `Path.parent?`, `Path.fileName?`, `Path.join`, `Path.withFileName` and `Path.withExtension`, on
  the text.
* `Path.segments`, the names that lead to the file, and `Path.enter`, one step on the way.
-/

set_option autoImplicit false
namespace ProxyPlane
namespace Path

/-- The part of a path before its names: the root, or a single leading dot. -/
def headLength : List Char → Nat
  | '/' :: _ => 1
  | ['.'] => 1
  | '.' :: '/' :: _ => 1
  | _ => 0

/-- The names of a path body without the empty ones and the dots at its end. -/
def trimNames (names : List (List Char)) : List (List Char) :=
  (names.reverse.dropWhile fun n => n == [] || n == ['.']).reverse

/-- The root or leading dot of a path, and the names behind it. -/
def parts (cs : List Char) : List Char × List (List Char) :=
  let n := headLength cs
  (cs.take n, trimNames (pieces '/' (cs.drop n)))

/-- A path from its root or leading dot and its names. -/
def ofParts (head : List Char) (names : List (List Char)) : String :=
  String.ofList (head ++ ['/'].intercalate names)

/-- The path of the directory that holds the file, if the path has one. -/
def parent? (p : String) : Option String :=
  let (head, names) := parts p.toList
  if names.isEmpty then if head == ['.'] then some "" else none
  else some (ofParts head (trimNames names.dropLast))

/-- The last name of a path, unless it is a dot or two. -/
def fileName? (p : String) : Option String :=
  match (parts p.toList).2.getLast? with
  | none => none
  | some n => if n == ['.', '.'] then none else some (String.ofList n)

/-- Whether a path starts at the root. -/
def isAbsolute (p : String) : Bool := p.toList.head? == some '/'

/-- A path below another; an absolute one stands for itself. -/
def join (base p : String) : String :=
  if isAbsolute p || base.isEmpty then p
  else if base.toList.getLast? == some '/' then base ++ p
  else base ++ "/" ++ p

/-- The path with another last name. -/
def withFileName (p name : String) : String :=
  match fileName? p with
  | some _ => join ((parent? p).getD "") name
  | none => join p name

/-- A file name up to its last dot, if anything stands before that. -/
def stem (name : List Char) : List Char :=
  match cutLast? '.' name with
  | some ([], _) => name
  | some (before, _) => before
  | none => name

/-- The path with another extension. -/
def withExtension (p extension : String) : String :=
  match fileName? p with
  | none => p
  | some name =>
    let (head, names) := parts p.toList
    ofParts head (names.dropLast ++ [stem name.toList]) ++ "." ++ extension

/-- A way with one more name.  Two dots take its last name back; above the root is the root. -/
def enter (way : List String) (name : String) : List String :=
  if name = ".." then way.dropLast else way ++ [name]

/-- The names that lead to the file from the root, which is the working directory as well. -/
def segments (p : String) : List String :=
  (((pieces '/' p.toList).filter fun n => n != [] && n != ['.']).map String.ofList).foldl enter []

end Path
end ProxyPlane
