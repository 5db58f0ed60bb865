import ProxyPlane.Files.Operation
import ProxyPlane.Import.Extraction
import ProxyPlane.Path
import ProxyPlane.Time.Clock

/-!
# Importing files

A file that somebody else wrote is turned into a document by an adapter, a program of its own, and
the document is read for candidates.  Either all of that succeeds or nothing is returned.  A copy
of the file is kept afterwards if that can be done.

## What is here

* `AdapterOp`, running a program, and `Adapter`, how a file becomes a document.
* `Importer`, with `Importer.checkAvailable`, `Importer.importFile` and `Importer.backup`.
* `ImportError`, why nothing was returned.
-/

set_option autoImplicit false
namespace ProxyPlane

/-! ## What an import asks of the world -/

/-- How a program that was run ended. -/
structure Finished where
  exitCode : Nat
  output : Bytes
  errors : Bytes
deriving DecidableEq, Repr, Inhabited

/-- Running a program with some arguments. -/
inductive AdapterOp : Type → Type
  | run (binary : String) (arguments : List String) : AdapterOp (Except IoError Finished)

/-- All that an import asks of the world. -/
inductive ImportOp (β : Type) : Type
  | file (op : FileOp β)
  | adapter (op : AdapterOp β)
  | clock (op : ClockOp β)

/-- Programs that import. -/
abbrev ImportProgram := Program ImportOp

/-- A program on files as part of an import. -/
def ImportProgram.files {α : Type} (p : FileProgram α) : ImportProgram α :=
  p.via fun op => .perform (.file op)

/-- Why nothing was imported. -/
inductive ImportError
  | notFound (path : String)
  | spawn (binary : String) (source : IoError)
  | adapter (text : String)
  | unavailable (binary : String)
  | parse (source : Json.Error)
deriving DecidableEq, Repr, Inhabited

/-- One line for people. -/
def ImportError.message : ImportError → String
  | notFound path => s!"source file not found: {path}"
  | spawn binary source => s!"failed to run adapter {binary}: {source.message}"
  | adapter text => s!"adapter failed: {text}"
  | unavailable binary => s!"adapter binary {binary} not found or not executable"
  | parse source => s!"parsing adapted config: {source.message}"

/-! ## Adapters -/

/-- How a file becomes a document. -/
inductive Adapter
  /-- By a program that is given the path of the file. -/
  | program (binary : String)
  /-- The document is the same for all files. -/
  | fixed (document : Bytes)
deriving DecidableEq, Repr, Inhabited

namespace Adapter

/-- The program that is run when none is named. -/
def defaultBinary : String := "caddy"

/-- The adapter that runs a program. -/
def ofBinary (binary : String) : Adapter :=
  .program (if binary.isEmpty then defaultBinary else binary)

/-- The name of the program, if there is one. -/
def binary? : Adapter → Option String
  | program binary => some binary
  | fixed _ => none

/-- The arguments that ask the program for the document of a file. -/
def arguments (path : String) : List String :=
  ["adapt", "--config", path, "--adapter", "caddyfile"]

/-- The document that a program wrote, if it ended well. -/
def documentOf (binary : String) : Except IoError Finished → Except ImportError Bytes
  | .error e => .error (.spawn binary e)
  | .ok r =>
    if r.exitCode = 0 then .ok r.output
    else
      let said := trimBlank (Utf8.decodeLossy r.errors)
      .error (.adapter s!"{binary} adapt exited with exit status: {r.exitCode}: {said}")

/-- The document of a file. -/
def adapt (path : String) : Adapter → ImportProgram (Except ImportError Bytes)
  | program binary => do
    return documentOf binary (← .perform (.adapter (.run binary (arguments path))))
  | fixed document => return .ok document

/-- Whether the adapter can be used at all. -/
def checkAvailable : Adapter → ImportProgram (Except ImportError Unit)
  | program binary => do
    return match ← Program.perform (.adapter (.run binary ["version"])) with
      | .ok r => if r.exitCode = 0 then .ok () else .error (.unavailable binary)
      | .error _ => .error (.unavailable binary)
  | fixed _ => return .ok ()

end Adapter

/-! ## Importing -/

/-- How files are imported. -/
structure Importer where
  adapter : Adapter
  /-- Where a copy of each imported file is kept. -/
  backupDir : Option String
deriving DecidableEq, Repr, Inhabited

namespace Importer

/-- Whether the adapter can be used at all. -/
def checkAvailable (i : Importer) : ImportProgram (Except ImportError Unit) :=
  i.adapter.checkAvailable

/-- The name of the copy of a file that was imported at an instant. -/
def backupName (path : String) (t : Instant) : String :=
  let name := (Path.fileName? path).getD "config"
  s!"{name}.{t.stamp}.backup"

/-- Keep a copy of a file; whether that works does not matter. -/
def backup (path dir : String) : ImportProgram Unit := do
  match ← ImportProgram.files (Files.makeDirs dir) with
  | .error _ => return ()
  | .ok () =>
    let now ← Program.perform (.clock .now)
    let _ ← ImportProgram.files (Files.copy path (Path.join dir (backupName path now)))

/-- The candidates of a file. -/
def importFile (i : Importer) (path : String) :
    ImportProgram (Except ImportError ImportResult) := do
  if !(← ImportProgram.files (Files.isPresent path)) then return .error (.notFound path)
  match ← i.adapter.adapt path with
  | .error e => return .error e
  | .ok document =>
    match extract document with
    | .error e => return .error (.parse e)
    | .ok result =>
      match i.backupDir with
      | some dir => backup path dir
      | none => pure ()
      return .ok result

end Importer
end ProxyPlane
