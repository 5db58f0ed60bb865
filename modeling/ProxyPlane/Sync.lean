import ProxyPlane.Admin
import ProxyPlane.Compile
import ProxyPlane.Record.Store
import ProxyPlane.Snapshot
import ProxyPlane.Time.Clock
import ProxyPlane.Validation

/-!
# Applying the desired state

One cycle compiles the records into a document, checks it, keeps it as a snapshot and sends it to
the proxy.  If the proxy does not take it, an earlier snapshot is sent instead.

## What is here

* `SyncOp`, all that a cycle asks of the world: files, the store, the proxy and the clock.
* `SyncManager`, what a cycle needs to know, with `SyncManager.render` and `SyncManager.apply`.
* `ApplyReport` and `SyncError`, how a cycle ends, and `ApplyState`, the states it goes through.
* Writing the audit, marking the snapshot and removing old ones never change how a cycle ends.
-/

set_option autoImplicit false
namespace ProxyPlane

/-! ## What a cycle asks of the world -/

/-- All that a cycle asks of the world. -/
inductive SyncOp (β : Type) : Type
  | file (op : FileOp β)
  | store (op : StoreOp β)
  | admin (op : AdminOp β)
  | clock (op : ClockOp β)

/-- Programs that apply the desired state. -/
abbrev SyncProgram := Program SyncOp

namespace SyncProgram

/-- A program on files as part of a cycle. -/
def files {α : Type} (p : FileProgram α) : SyncProgram α := p.via fun op => .perform (.file op)

/-- A program that talks to the proxy as part of a cycle. -/
def admin {α : Type} (p : AdminProgram α) : SyncProgram α := p.via fun op => .perform (.admin op)

/-- A request to the store as part of a cycle. -/
def store {α : Type} (op : StoreOp α) : SyncProgram α := .perform (.store op)

end SyncProgram

/-! ## How a cycle ends -/

/-- Which snapshot is sent when the proxy does not take a document. -/
inductive RollbackTarget
  /-- The last one that the proxy accepted. -/
  | lastKnownGood
  /-- The newest one before that of the cycle. -/
  | previous
deriving DecidableEq, Repr, Inhabited

/-- The states of a cycle. -/
inductive ApplyState
  | compiling
  | validating
  | snapshotting
  | applying
  | success
  | rolledBack
  | failed
deriving DecidableEq, Repr, Inhabited

namespace ApplyState

/-- The name of a state. -/
def name : ApplyState → String
  | compiling => "compiling"
  | validating => "validating"
  | snapshotting => "snapshotting"
  | applying => "applying"
  | success => "success"
  | rolledBack => "rolled_back"
  | failed => "failed"

/-- Whether a cycle ends in the state. -/
def isTerminal : ApplyState → Bool
  | success | rolledBack | failed => true
  | compiling | validating | snapshotting | applying => false

end ApplyState

/-- What a successful cycle did. -/
structure ApplyReport where
  snapshotSeq : Nat
  configHash : String
  routes : Nat
  pruned : Nat
deriving DecidableEq, Repr, Inhabited

/-- Why no earlier snapshot was restored. -/
inductive RollbackError
  | unavailable
  | snapshot (source : SnapshotError)
  | push (source : AdminError)
deriving DecidableEq, Repr, Inhabited

/-- Why a cycle did not succeed. -/
inductive SyncError
  | store (source : StoreError)
  | compile (source : CompileError)
  | validation (source : ValidationError)
  | snapshot (source : SnapshotError)
  /-- The proxy did not take the document, and an earlier one was restored. -/
  | rolledBack (restored : Nat) (apply : AdminError)
  /-- The proxy did not take the document, and nothing could be restored. -/
  | rollbackFailed (apply : AdminError) (rollback : RollbackError)
deriving DecidableEq, Repr, Inhabited

/-- One line for people. -/
def RollbackError.message : RollbackError → String
  | unavailable => "no snapshot available for rollback"
  | snapshot source => source.message
  | push source => s!"rollback push failed: {source.message}"

namespace SyncError

/-- One line for people. -/
def message : SyncError → String
  | store source => s!"failed to read desired state: {source.message}"
  | compile source => s!"generate config: {source.message}"
  | validation source => s!"validation failed: {source.message}"
  | snapshot source => s!"save snapshot: {source.message}"
  | rolledBack restored apply =>
    s!"apply failed, rolled back to snapshot {restored}: {apply.message}"
  | rollbackFailed apply rollback =>
    s!"apply failed: {apply.message}, rollback also failed: {rollback.message}"

/-- The state in which a cycle ended. -/
def state : SyncError → ApplyState
  | rolledBack _ _ => .rolledBack
  | _ => .failed

/-- Whether nobody knows what the proxy runs. -/
def isUnrecoverable : SyncError → Bool
  | rollbackFailed _ _ => true
  | _ => false

end SyncError

/-! ## The cycle -/

/-- What a cycle needs to know. -/
structure SyncManager where
  client : AdminClient
  snapshots : SnapshotDir
  storageRoot : String
  /-- How many snapshots are kept. -/
  keep : Nat
  rollbackTarget : RollbackTarget
deriving DecidableEq, Repr, Inhabited

namespace SyncManager

/-- How many snapshots are kept unless somebody says otherwise. -/
def defaultRetention : Nat := 10

/-- The manager of a configuration directory. -/
def create (client : AdminClient) (configDir : String) : SyncManager :=
  ⟨client, SnapshotDir.below configDir, Path.join configDir "data", defaultRetention,
    .lastKnownGood⟩

/-- The manager with another number of snapshots to keep, which is at least one. -/
def withRetention (m : SyncManager) (keep : Nat) : SyncManager := { m with keep := max keep 1 }

/-- The manager with another choice of the snapshot to restore. -/
def withRollbackTarget (m : SyncManager) (rollbackTarget : RollbackTarget) : SyncManager :=
  { m with rollbackTarget }

/-- The document of the records and settings that the store holds, checked. -/
def documentOf (m : SyncManager) (records : List RoutingRecord) (email : String) :
    Except SyncError Document :=
  match compile records m.storageRoot email with
  | .error e => .error (.compile e)
  | .ok d =>
    match validate d with
    | .error e => .error (.validation e)
    | .ok () => .ok d

/-- The document of the desired state, without touching the proxy or the snapshots. -/
def render (m : SyncManager) : SyncProgram (Except SyncError Document) := do
  match ← SyncProgram.store .records with
  | .error e => return .error (.store e)
  | .ok records =>
    match ← SyncProgram.store (.setting acmeEmailSetting) with
    | .error e => return .error (.store e)
    | .ok email => return m.documentOf records (email.getD "")

/-- Put a row behind those of the audit; whether that works does not matter. -/
def audit (digest : String) (error : Option String) : SyncProgram Unit := do
  let appliedAt ← Program.perform (.clock .now)
  let _ ← SyncProgram.store (.appendAudit ⟨digest, appliedAt, error.isNone, error⟩)

/-- The number of routes of a document. -/
def routeCount (d : Document) : Nat := (d.servers.flatMap fun e => e.2.routes).length

/-- What is done once the proxy took a document. -/
def finish (m : SyncManager) (d : Document) (seq : Nat) : SyncProgram ApplyReport := do
  audit d.digest none
  let _ ← SyncProgram.files (m.snapshots.markGood seq).run
  let pruned ← SyncProgram.files (m.snapshots.prune m.keep).run
  return ⟨seq, d.digest, routeCount d, pruned.toOption.getD 0⟩

/-- The snapshot to restore after that of the cycle was not taken. -/
def rollbackSeq (m : SyncManager) (failed : Nat) : SnapshotProgram (Option Nat) :=
  match m.rollbackTarget with
  | .lastKnownGood => m.snapshots.lastGood
  | .previous => m.snapshots.previousBefore failed

/-- Send an earlier snapshot to the proxy, and say which. -/
def rollback (m : SyncManager) (failed : Nat) : SyncProgram (Except RollbackError Nat) := do
  match ← SyncProgram.files (m.rollbackSeq failed).run with
  | .error e => return .error (.snapshot e)
  | .ok none => return .error .unavailable
  | .ok (some target) =>
    match ← SyncProgram.files (m.snapshots.load target).run with
    | .error e => return .error (.snapshot e)
    | .ok d =>
      match ← SyncProgram.admin (m.client.load d) with
      | .error e => return .error (.push e)
      | .ok () => return .ok target

/-- What is done once the proxy did not take a document. -/
def recover (m : SyncManager) (d : Document) (seq : Nat) (apply : AdminError) :
    SyncProgram SyncError := do
  match ← m.rollback seq with
  | .ok restored =>
    audit d.digest (some apply.message)
    return .rolledBack restored apply
  | .error e =>
    let failure : SyncError := .rollbackFailed apply e
    audit d.digest (some failure.message)
    return failure

/-- One cycle. -/
def apply (m : SyncManager) : SyncProgram (Except SyncError ApplyReport) := do
  match ← m.render with
  | .error e => return .error e
  | .ok d =>
    match ← SyncProgram.files (m.snapshots.save d).run with
    | .error e => return .error (.snapshot e)
    | .ok kept =>
      match ← SyncProgram.admin (m.client.load d) with
      | .ok () => return .ok (← m.finish d kept.seq)
      | .error e => return .error (← m.recover d kept.seq e)

end SyncManager
end ProxyPlane
