import ProxyPlane.Document.Basic
import ProxyPlane.Files.Operation
import ProxyPlane.Path
import ProxyPlane.Text.Numeral
import ProxyPlane.Text.Quoted

/-!
# Snapshots

Every document is kept under a sequence number before it is sent to the proxy.  The directory of
the snapshots also holds a marker with the number of the last one that the proxy accepted.  Files
are written under another name and then renamed, so that nobody sees one half written.

## What is here

* `SnapshotDir`, the directory, with `fileName` and `parseName?` between numbers and file names.
* `SnapshotDir.save`, `load`, `list`, `markGood`, `lastGood`, `previousBefore` and `prune`.
* `SnapshotError`, what can go wrong with them.
-/

set_option autoImplicit false
namespace ProxyPlane

/-- Why an operation on snapshots failed. -/
inductive SnapshotError
  | io (path : String) (source : IoError)
  | decode (path : String) (source : Json.Error)
  | notFound (seq : Nat)
  | marker (path content : String)
deriving DecidableEq, Repr, Inhabited

/-- One line for people. -/
def SnapshotError.message : SnapshotError → String
  | io path source => s!"snapshot I/O error on {path}: {source.message}"
  | decode path source => s!"snapshot {path} is unreadable: {source.message}"
  | notFound seq => s!"snapshot {seq} not found"
  | marker path content => s!"last-good marker {path} is corrupt: {quoted content}"

/-- A snapshot on disk. -/
structure Snapshot where
  seq : Nat
  path : String
deriving DecidableEq, Repr, Inhabited

/-- The directory that snapshots are kept in. -/
structure SnapshotDir where
  dir : String
deriving DecidableEq, Repr, Inhabited

/-- Programs on files that can fail for a snapshot. -/
abbrev SnapshotProgram := ExceptT SnapshotError FileProgram

namespace SnapshotDir

/-- The snapshots of a configuration directory. -/
def below (configDir : String) : SnapshotDir := ⟨Path.join configDir "snapshots"⟩

/-! ## Names -/

/-- The name of the file with a sequence number: twenty digits. -/
def fileName (seq : Nat) : String := "config-" ++ Numeral.writePadded 20 seq ++ ".json"

/-- The path of the file with a sequence number. -/
def pathFor (s : SnapshotDir) (seq : Nat) : String := Path.join s.dir (fileName seq)

/-- The path of the marker. -/
def markerPath (s : SnapshotDir) : String := Path.join s.dir "last-good"

/-- The rest of a list behind another. -/
def dropStart? (start : List Char) (cs : List Char) : Option (List Char) :=
  if start.isPrefixOf cs then some (cs.drop start.length) else none

/-- The rest of a list before another. -/
def dropEnd? (tail : List Char) (cs : List Char) : Option (List Char) :=
  if tail.isSuffixOf cs then some (cs.take (cs.length - tail.length)) else none

/-- The sequence number in the name of a file. -/
def parseName? (name : String) : Option Nat := do
  let cs ← dropStart? "config-".toList name.toList
  let cs ← dropEnd? ".json".toList cs
  Numeral.read? (Nat.pow 2 64) cs

/-! ## Reading -/

/-- The answer of an operation on a file, or the failure on its path. -/
def orFail {α : Type} (path : String) (p : FileProgram (Except IoError α)) : SnapshotProgram α :=
  ExceptT.mk do
    return match ← p with
      | .ok a => .ok a
      | .error e => .error (.io path e)

/-- The snapshots among the entries of a directory, lowest number first. -/
def ofNames (s : SnapshotDir) (names : List String) : List Snapshot :=
  (names.filterMap fun n => (parseName? n).map fun seq => ⟨seq, Path.join s.dir n⟩).mergeSort
    fun a b => a.seq ≤ b.seq

/-- All snapshots, lowest number first; a missing directory holds none. -/
def list (s : SnapshotDir) : SnapshotProgram (List Snapshot) :=
  ExceptT.mk do
    return match ← Files.list s.dir with
      | .ok names => .ok (s.ofNames names)
      | .error .notFound => .ok []
      | .error e => .error (.io s.dir e)

/-- The document of a sequence number. -/
def load (s : SnapshotDir) (seq : Nat) : SnapshotProgram Document :=
  ExceptT.mk do
    let path := s.pathFor seq
    return match ← Files.read path with
      | .error .notFound => .error (.notFound seq)
      | .error e => .error (.io path e)
      | .ok contents =>
        match Document.decode contents with
        | .ok d => .ok d
        | .error e => .error (.decode path e)

/-- The number that the marker holds, if there is a marker. -/
def lastGood (s : SnapshotDir) : SnapshotProgram (Option Nat) :=
  ExceptT.mk do
    return match ← Files.readText s.markerPath with
      | .error .notFound => .ok none
      | .error e => .error (.io s.markerPath e)
      | .ok content =>
        match Numeral.u64? (trimBlank content) with
        | some seq => .ok (some seq)
        | none => .error (.marker s.markerPath content)

/-- The greatest of some numbers. -/
def newest? (seqs : List Nat) : Option Nat := seqs.max?

/-- The highest number below another. -/
def previousBefore (s : SnapshotDir) (seq : Nat) : SnapshotProgram (Option Nat) := do
  let snapshots ← s.list
  return newest? ((snapshots.map (·.seq)).filter fun n => n < seq)

/-! ## Writing -/

/-- The name that a file has while it is written. -/
def temporaryName (name : String) : String := "." ++ name ++ ".tmp"

/-- Make a file of the directory hold these contents, in one instant. -/
def writeAtomic (path : String) (contents : Bytes) : SnapshotProgram Unit := do
  let temporary := Path.withFileName path (temporaryName ((Path.fileName? path).getD ""))
  orFail temporary (Files.write temporary contents)
  orFail path (Files.rename temporary path)

/-- The number of the next snapshot: above all that are listed and above the marker. -/
def nextSeq (snapshots : List Snapshot) (marker : Option Nat) : Nat :=
  max ((snapshots.getLast?.map (·.seq)).getD 0) (marker.getD 0) + 1

/-- Keep a document under the next number. -/
def save (s : SnapshotDir) (d : Document) : SnapshotProgram Snapshot := do
  orFail s.dir (Files.makeDirs s.dir)
  let snapshots ← s.list
  let marker ← s.lastGood
  let seq := nextSeq snapshots marker
  let path := s.pathFor seq
  writeAtomic path d.pretty
  return ⟨seq, path⟩

/-- Remember that the proxy accepted a snapshot. -/
def markGood (s : SnapshotDir) (seq : Nat) : SnapshotProgram Unit :=
  writeAtomic s.markerPath (Utf8.encode (Numeral.write seq))

/-- Remove some snapshots, one after the other. -/
def removeAll : List Snapshot → SnapshotProgram Unit
  | [] => return ()
  | v :: rest => do
    orFail v.path (Files.remove v.path)
    removeAll rest

/-- The snapshots to be removed so that at most `keep` remain: the lowest ones, but not the one that
the marker names. -/
def surplus (keep : Nat) (marker : Option Nat) (snapshots : List Snapshot) : List Snapshot :=
  (snapshots.filter fun v => some v.seq != marker).take (snapshots.length - keep)

/-- Remove the lowest snapshots until at most `keep` remain, and say how many were removed. -/
def prune (s : SnapshotDir) (keep : Nat) : SnapshotProgram Nat := do
  let snapshots ← s.list
  if snapshots.length ≤ keep then return 0
  else
    let marker ← s.lastGood
    let gone := surplus keep marker snapshots
    removeAll gone
    return gone.length

end SnapshotDir
end ProxyPlane
