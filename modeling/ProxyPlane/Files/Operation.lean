import ProxyPlane.Program
import ProxyPlane.Text.Utf8

/-!
# Operations on files

## What is here

* `IoError`, the causes for which an operation fails, with their messages.
* `FileOp`, the operations, each with the type of its answer.
* `Files.read`, `Files.write` and so on, the programs of one operation, and `Files.readText`.
-/

set_option autoImplicit false
namespace ProxyPlane

/-- Why an operation on files failed. -/
inductive IoError
  | notFound
  | permissionDenied
  | alreadyExists
  | notADirectory
  | isADirectory
  | directoryNotEmpty
  | invalidInput
  | invalidName
  | invalidData
  | other
deriving DecidableEq, Repr, Inhabited

/-- One line for people. -/
def IoError.message : IoError → String
  | notFound => "no such file or directory"
  | permissionDenied => "permission denied"
  | alreadyExists => "file exists"
  | notADirectory => "not a directory"
  | isADirectory => "is a directory"
  | directoryNotEmpty => "directory not empty"
  | invalidInput => "invalid argument"
  | invalidName => "file name too long"
  | invalidData => "the contents are not valid UTF-8"
  | other => "operation failed"

/-- An operation on files, and the type of its answer. -/
inductive FileOp : Type → Type
  /-- The contents of a file. -/
  | read (path : String) : FileOp (Except IoError Bytes)
  /-- The names in a directory. -/
  | list (path : String) : FileOp (Except IoError (List String))
  /-- Whether there is a file or directory. -/
  | isPresent (path : String) : FileOp Bool
  /-- Make a directory, and those that lead to it. -/
  | makeDirs (path : String) : FileOp (Except IoError Unit)
  /-- Make a file hold these contents. -/
  | write (path : String) (contents : Bytes) : FileOp (Except IoError Unit)
  /-- Put contents behind those of a file, which is made if there is none. -/
  | append (path : String) (contents : Bytes) : FileOp (Except IoError Unit)
  /-- Put a file in the place of another, in one instant. -/
  | rename (source target : String) : FileOp (Except IoError Unit)
  /-- Remove a file. -/
  | remove (path : String) : FileOp (Except IoError Unit)
  /-- Make a file hold the contents of another. -/
  | copy (source target : String) : FileOp (Except IoError Unit)

/-- Programs that only touch files. -/
abbrev FileProgram := Program FileOp

namespace Files

/-- The contents of a file. -/
def read (path : String) : FileProgram (Except IoError Bytes) := .perform (.read path)

/-- The names in a directory. -/
def list (path : String) : FileProgram (Except IoError (List String)) := .perform (.list path)

/-- Whether there is a file or directory. -/
def isPresent (path : String) : FileProgram Bool := .perform (.isPresent path)

/-- Make a directory, and those that lead to it. -/
def makeDirs (path : String) : FileProgram (Except IoError Unit) := .perform (.makeDirs path)

/-- Make a file hold these contents. -/
def write (path : String) (contents : Bytes) : FileProgram (Except IoError Unit) :=
  .perform (.write path contents)

/-- Put contents behind those of a file. -/
def append (path : String) (contents : Bytes) : FileProgram (Except IoError Unit) :=
  .perform (.append path contents)

/-- Put a file in the place of another. -/
def rename (source target : String) : FileProgram (Except IoError Unit) :=
  .perform (.rename source target)

/-- Remove a file. -/
def remove (path : String) : FileProgram (Except IoError Unit) := .perform (.remove path)

/-- Make a file hold the contents of another. -/
def copy (source target : String) : FileProgram (Except IoError Unit) :=
  .perform (.copy source target)

/-- The text of a file, which must be UTF-8. -/
def textOf (contents : Bytes) : Except IoError String :=
  match Utf8.decode? contents with
  | some s => .ok s
  | none => .error .invalidData

/-- The text of a file. -/
def readText (path : String) : FileProgram (Except IoError String) := do
  return (← read path).bind textOf

end Files
end ProxyPlane
