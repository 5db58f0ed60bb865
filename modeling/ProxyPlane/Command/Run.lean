import ProxyPlane.Command.Arguments
import ProxyPlane.Command.Help
import ProxyPlane.Import.Importer
import ProxyPlane.Settings.Load

/-!
# Running commands

## What is here

* `CommandOp`, all that a command asks of the world.
* `Command.run`, a command under some settings, and `CommandLine.run`, a whole command line.
* `Outcome`, the lines that are shown and why the command failed, if it did.
-/

set_option autoImplicit false
namespace ProxyPlane

/-! ## What a command asks of the world -/

/-- What can be asked of a source of identifiers. -/
inductive IdOp : Type → Type
  /-- An endless supply of identifiers that nothing has yet. -/
  | fresh : IdOp (Nat → String)

/-- All that a command asks of the world. -/
inductive CommandOp (β : Type) : Type
  | file (op : FileOp β)
  | admin (op : AdminOp β)
  | clock (op : ClockOp β)
  | adapter (op : AdapterOp β)
  | ids (op : IdOp β)

/-- Programs that carry out a command. -/
abbrev CommandProgram := Program CommandOp

namespace CommandProgram

/-- A program on files as part of a command. -/
def files {α : Type} (p : FileProgram α) : CommandProgram α := p.via fun op => .perform (.file op)

/-- A request of a cycle as part of a command, over a store in files. -/
def ofSync {β : Type} (store : FileStore) : SyncOp β → CommandProgram β
  | .file op => .perform (.file op)
  | .store op => files (store.answer op)
  | .admin op => .perform (.admin op)
  | .clock op => .perform (.clock op)

/-- A cycle as part of a command, over a store in files. -/
def sync {α : Type} (store : FileStore) (p : SyncProgram α) : CommandProgram α :=
  p.via (ofSync store)

/-- A request of an import as part of a command. -/
def ofImport {β : Type} : ImportOp β → CommandProgram β
  | .file op => .perform (.file op)
  | .adapter op => .perform (.adapter op)
  | .clock op => .perform (.clock op)

/-- An import as part of a command. -/
def imports {α : Type} (p : ImportProgram α) : CommandProgram α := p.via ofImport

/-- A program that talks to the proxy as part of a command. -/
def admin {α : Type} (p : AdminProgram α) : CommandProgram α := p.via fun op => .perform (.admin op)

end CommandProgram

/-! ## How a command ends -/

/-- Why a command failed. -/
inductive CommandError
  | settings (source : SettingsError)
  | admin (source : AdminError)
  | sync (source : SyncError)
  | file (source : IoError)
  | json (source : Json.Error)
  | validation (source : ValidationError)
  | imports (source : ImportError)
  | store (source : StoreError)
  /-- The command does not end, so it cannot be run to its end. -/
  | endless
deriving DecidableEq, Repr, Inhabited

/-- One line for people. -/
def CommandError.message : CommandError → String
  | settings source => source.message
  | admin source => source.message
  | sync source => source.message
  | file source => source.message
  | json source => source.message
  | validation source => source.message
  | imports source => source.message
  | store source => source.message
  | endless => "the command does not end"

/-- The lines that a command shows, and why it failed, if it did. -/
structure Outcome where
  lines : List String
  failure : Option CommandError
deriving DecidableEq, Repr, Inhabited

namespace Outcome

/-- A command that ended well. -/
def shown (lines : List String) : Outcome := ⟨lines, none⟩

/-- A command that failed and showed nothing. -/
def failed (e : CommandError) : Outcome := ⟨[], some e⟩

/-- The outcome of a result. -/
def ofResult {ε α : Type} (cause : ε → CommandError) (show_ : α → List String) :
    Except ε α → Outcome
  | .ok a => shown (show_ a)
  | .error e => failed (cause e)

end Outcome

/-! ## Commands -/

namespace Settings

/-- The store of the settings. -/
def fileStore (s : Settings) : FileStore := ⟨s.store.recordsPath, s.store.auditPath⟩

/-- The manager of the settings. -/
def manager (s : Settings) : Except AdminError SyncManager := do
  let client ← AdminClient.create s.admin.url
  return ((SyncManager.create client s.storage.configDir).withRetention
    s.storage.snapshotKeep).withRollbackTarget s.storage.rollbackTarget

/-- The importer of the settings. -/
def importer (s : Settings) : Importer :=
  ⟨.ofBinary s.imports.adapterBinary, some s.imports.backupDir⟩

end Settings

namespace Command

/-- The indented text of a document. -/
def documentLines (d : Document) : List String := [Utf8.decodeLossy d.pretty]

/-- What is shown of a cycle that succeeded. -/
def reportLines (r : ApplyReport) : List String :=
  [s!"Applied snapshot {r.snapshotSeq} ({r.routes} routes, sha256 {r.configHash}, " ++
    s!"{r.pruned} old snapshots pruned)"]

/-- Checking a document in a file. -/
def checkFile (file : String) : CommandProgram Outcome := do
  return match ← CommandProgram.files (Files.read file) with
    | .error e => .failed (.file e)
    | .ok contents =>
      match Json.Codec.any.decode contents with
      | .error e => .failed (.json e)
      | .ok v => .ofResult .validation (fun () => [s!"{file}: valid"]) (validateValue v)

/-- How many characters of a digest are shown. -/
def shortDigestLength : Nat := 12

/-- What is shown of a row of the audit. -/
def rowLine (r : AuditRow) : String :=
  let outcome := CommandSpec.padTo 6 (if r.success then "ok" else "FAILED")
  let digest := String.ofList (r.configHash.toList.take shortDigestLength)
  let error := r.error.getD ""
  s!"{r.appliedAt.textWithOffset}  {outcome}  {digest}  {error}"

/-- The last rows of the audit, newest first. -/
def showHistory (store : FileStore) (limit : Nat) : CommandProgram Outcome := do
  let rows ← CommandProgram.files store.auditLog.run
  return .ofResult .store (fun rows => (rows.reverse.take limit).map rowLine) rows

/-- What is shown of a candidate. -/
def candidateLines (c : Candidate) : List String :=
  let target := s!"{c.forwardScheme}://{c.forwardHost}:{c.forwardPort}"
  let note := if c.isActionable then "" else "  (no target, will be dropped)"
  (CommandSpec.padTo 40 c.domainNames ++ " → " ++ target ++ note) ::
    c.warnings.map fun w => "    warning: " ++ w

/-- What is shown of the result of an import. -/
def resultLines (r : ImportResult) : List String :=
  r.hosts.flatMap candidateLines ++ r.conflicts.map fun c => "conflict: " ++ c

/-- What the user wants done with some candidates; of two wishes for one, to rename wins. -/
def resolutions (skip rename : List String) : Dict Resolution :=
  Dict.ofList (skip.map (fun d => (d, .skip)) ++ rename.map fun d => (d, .rename))

/-- Put the records of candidates behind those of the store. -/
def commitHosts (store : FileStore) (r : ImportResult) (wishes : Dict Resolution) :
    CommandProgram Outcome := do
  let ids ← Program.perform (.ids .fresh)
  let lines := resultLines r
  match ← CommandProgram.files (store.insert (toRecords ids wishes r.hosts)).run with
  | .error e => return ⟨lines, some (.store e)⟩
  | .ok n => return .shown (lines ++ [s!"Imported {n} hosts into {store.recordsPath}"])

/-- Taking over the hosts of a file that somebody else wrote; only with `commit` is anything
stored. -/
def importHostsOf (s : Settings) (file : String) (commit : Bool) (skip rename : List String) :
    CommandProgram Outcome := do
  let store := s.fileStore
  match ← CommandProgram.imports s.importer.checkAvailable with
  | .error e => return .failed (.imports e)
  | .ok () =>
    match ← CommandProgram.imports (s.importer.importFile file) with
    | .error e => return .failed (.imports e)
    | .ok found =>
      match ← CommandProgram.files (store.answer .records) with
      | .error e => return .failed (.store e)
      | .ok existing =>
        let r := found.detectConflicts existing
        if commit then commitHosts store r (resolutions skip rename)
        else
          return .shown
            (resultLines r ++ [s!"Dry run; pass --commit to write {r.hosts.length} hosts"])

/-- A command under some settings. -/
def run (s : Settings) : Command → CommandProgram Outcome
  | apply => withManager fun m => do
    return .ofResult .sync reportLines (← CommandProgram.sync s.fileStore m.apply)
  | render => withManager fun m => do
    return .ofResult .sync documentLines (← CommandProgram.sync s.fileStore m.render)
  | validate file => checkFile file
  | status => withManager fun m => do
    return .ofResult .admin (fun () => [s!"Admin API at {s.admin.url} is reachable"])
      (← CommandProgram.admin m.client.ping)
  | current => withManager fun m => do
    return .ofResult .admin documentLines (← CommandProgram.admin m.client.current)
  | importHosts file commit skip rename => importHostsOf s file commit skip rename
  | history limit => showHistory s.fileStore limit
  | watch => withManager fun _ => return .failed .endless
where
  withManager (f : SyncManager → CommandProgram Outcome) : CommandProgram Outcome :=
    match s.manager with
    | .error e => return .failed (.admin e)
    | .ok m => f m

end Command

/-! ## Command lines -/

/-- The settings of an invocation. -/
def Invocation.settings (i : Invocation) (lookup : String → Option String) :
    CommandProgram (Except SettingsError Settings) := do
  let s ← CommandProgram.files (Settings.load i.config lookup)
  return s.map fun s =>
    match i.url with
    | some url => { s with admin := { s.admin with url } }
    | none => s

/-- An invocation, where `lookup` finds the variables of the environment. -/
def Invocation.run (lookup : String → Option String) (i : Invocation) : CommandProgram Outcome := do
  match ← i.settings lookup with
  | .error e => return .failed (.settings e)
  | .ok s => i.command.run s

/-- How the program ends: what it shows, its exit code, and why it failed, if it did. -/
structure Ending where
  lines : List String
  exitCode : Nat
  failure : Option CommandError
deriving DecidableEq, Repr, Inhabited

/-- The ending of an outcome. -/
def Outcome.ending (o : Outcome) : Ending := ⟨o.lines, if o.failure.isSome then 1 else 0, o.failure⟩

/-- A whole command line. -/
def CommandLine.run (lookup : String → Option String) (arguments : List String) :
    CommandProgram Ending :=
  match Invocation.read arguments with
  | .error (.help topic) => return ⟨CommandSpec.helpText topic, 0, none⟩
  | .error .misuse => return ⟨[], 2, none⟩
  | .ok i => do return (← i.run lookup).ending

end ProxyPlane
