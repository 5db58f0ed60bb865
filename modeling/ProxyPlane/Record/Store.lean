import ProxyPlane.Files.Operation
import ProxyPlane.Path
import ProxyPlane.Record.Basic

/-!
# Stores of routing records

A store holds the records and settings that make up the desired state, and the rows of the audit.

## What is here

* `StoreOp`, what can be asked of a store, and `StoreError`, why it may fail.
* `MemoryStore`, a store that is a value, with `MemoryStore.answer`.
* `FileStore`, a store in two files: the records as one JSON text, and the audit as one JSON text a
  line, with `FileStore.answer` and `FileStore.insert`.
-/

set_option autoImplicit false
namespace ProxyPlane

/-- Why a store failed. -/
inductive StoreError
  | io (path : String) (source : IoError)
  | malformed (path : String) (source : Json.Error)
  /-- A user of the store died while changing it. -/
  | poisoned
deriving DecidableEq, Repr, Inhabited

/-- One line for people. -/
def StoreError.message : StoreError → String
  | io path source => s!"store I/O error on {path}: {source.message}"
  | malformed path source => s!"store file {path} is malformed: {source.message}"
  | poisoned => "store lock poisoned"

/-- What can be asked of a store, and the type of its answer. -/
inductive StoreOp : Type → Type
  /-- All records, enabled or not, in their order. -/
  | records : StoreOp (Except StoreError (List RoutingRecord))
  /-- The value of a setting. -/
  | setting (key : String) : StoreOp (Except StoreError (Option String))
  /-- Put a row behind those of the audit. -/
  | appendAudit (row : AuditRow) : StoreOp (Except StoreError Unit)
  /-- The rows of the audit, oldest first. -/
  | auditLog : StoreOp (Except StoreError (List AuditRow))

/-! ## In memory -/

/-- A store that is a value. -/
structure MemoryStore where
  records : List RoutingRecord
  settings : Dict String
  audit : List AuditRow
deriving DecidableEq, Inhabited

namespace MemoryStore

/-- The store of some records. -/
def ofRecords (records : List RoutingRecord) : MemoryStore := ⟨records, Dict.empty, []⟩

/-- The store with a setting. -/
def setSetting (s : MemoryStore) (key value : String) : MemoryStore :=
  { s with settings := s.settings.insert key value }

/-- The store with other records. -/
def replaceRecords (s : MemoryStore) (records : List RoutingRecord) : MemoryStore :=
  { s with records }

/-- The answer of a store, and the store after it. -/
def answer : {β : Type} → StoreOp β → MemoryStore → β × MemoryStore
  | _, .records, s => (.ok s.records, s)
  | _, .setting key, s => (.ok (s.settings.get? key), s)
  | _, .appendAudit row, s => (.ok (), { s with audit := s.audit ++ [row] })
  | _, .auditLog, s => (.ok s.audit, s)

end MemoryStore

/-! ## In files -/

/-- A store in two files. -/
structure FileStore where
  recordsPath : String
  auditPath : String
deriving DecidableEq, Repr, Inhabited

namespace FileStore

/-- The answer of an operation on a file, or the failure on the given path. -/
def orFail {α : Type} (path : String) (p : FileProgram (Except IoError α)) :
    ExceptT StoreError FileProgram α :=
  ExceptT.mk do
    return match ← p with
      | .ok a => .ok a
      | .error e => .error (.io path e)

/-- What the records file holds; a missing file holds nothing. -/
def load (s : FileStore) : ExceptT StoreError FileProgram RecordFile :=
  ExceptT.mk do
    if !(← Files.isPresent s.recordsPath) then return .ok RecordFile.empty
    return match ← Files.read s.recordsPath with
      | .error .isADirectory => .error (.malformed s.recordsPath .unreadable)
      | .error e => .error (.io s.recordsPath e)
      | .ok contents =>
        match RecordFile.codec.decode contents with
        | .ok f => .ok f
        | .error e => .error (.malformed s.recordsPath e)

/-- Make the directory that is to hold a file. -/
def makeParent (path : String) : ExceptT StoreError FileProgram Unit :=
  match Path.parent? path with
  | some dir => orFail path (Files.makeDirs dir)
  | none => return ()

/-- Write the records file: under another name first, and then renamed. -/
def save (s : FileStore) (f : RecordFile) : ExceptT StoreError FileProgram Unit := do
  makeParent s.recordsPath
  let temporary := Path.withExtension s.recordsPath "json.tmp"
  orFail s.recordsPath (Files.write temporary (RecordFile.codec.pretty f))
  orFail s.recordsPath (Files.rename temporary s.recordsPath)

/-- Put records behind those of the file, and say how many they are. -/
def insert (s : FileStore) (records : List RoutingRecord) :
    ExceptT StoreError FileProgram Nat := do
  let f ← s.load
  s.save { f with records := f.records ++ records }
  return records.length

/-- Put a row behind those of the audit file. -/
def appendAudit (s : FileStore) (row : AuditRow) : ExceptT StoreError FileProgram Unit := do
  makeParent s.auditPath
  orFail s.auditPath (Files.append s.auditPath (AuditRow.codec.compact row ++ [0x0A]))

/-- A line without the carriage return at its end. -/
def withoutReturn (line : Bytes) : Bytes :=
  if line.getLast? = some 0x0D then line.dropLast else line

/-- The lines of a file; what follows the last line break is a line unless it is empty. -/
def lines (contents : Bytes) : List Bytes :=
  let ps := pieces 0x0A contents
  ps.dropLast.map withoutReturn ++
    match ps.getLast? with
    | some last => if last.isEmpty then [] else [last]
    | none => []

/-- The rows of the lines of an audit file; blank lines are passed over. -/
def readRows (path : String) : List Bytes → Except StoreError (List AuditRow)
  | [] => .ok []
  | line :: rest =>
    match Utf8.decode? line with
    | none => .error (.io path .invalidData)
    | some text =>
      if (trimBlank text).isEmpty then readRows path rest
      else
        match AuditRow.codec.decode line with
        | .error e => .error (.malformed path e)
        | .ok row => (readRows path rest).map (row :: ·)

/-- The rows of the audit file; a missing file holds none. -/
def auditLog (s : FileStore) : ExceptT StoreError FileProgram (List AuditRow) :=
  ExceptT.mk do
    if !(← Files.isPresent s.auditPath) then return .ok []
    return match ← Files.read s.auditPath with
      | .error e => .error (.io s.auditPath e)
      | .ok contents => readRows s.auditPath (lines contents)

/-- The answer of a store in files. -/
def answer (s : FileStore) : {β : Type} → StoreOp β → FileProgram β
  | _, .records => (return (← s.load).records : ExceptT StoreError FileProgram _).run
  | _, .setting key => (return (← s.load).settings.get? key : ExceptT StoreError FileProgram _).run
  | _, .appendAudit row => (s.appendAudit row).run
  | _, .auditLog => s.auditLog.run

end FileStore
end ProxyPlane
