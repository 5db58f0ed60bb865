import ProxyPlane.Dict
import ProxyPlane.Files.Operation
import ProxyPlane.Path

/-!
# A tree of files

A model of the files that a program sees: directories with named entries, and files with contents.
It answers every operation on files and says how the tree looks afterwards.

The root of the tree is the working directory as well.  There are no links.  Two dots in a path take
back the name before them, which is taken to lead to a directory: whether there is one is not asked,
and none is made.  Names of entries have a greatest length, paths have none.

## What is here

* `FileTree`, files and directories.
* `FileTree.find`, the file or directory at a path, and `FileTree.alter`, which changes one entry.
* `FileTree.makeDirs`, the tree with some directories, and `FileTree.afterMakeDirs`, what making
  them comes to: before a name that is too long the others are made.
* `FileTree.answer`, which answers the operations of `FileOp`; any other operation that fails leaves
  the tree as it was.
-/

set_option autoImplicit false
namespace ProxyPlane

/-- A file with its contents, or a directory with its entries. -/
inductive FileTree
  | file (contents : Bytes)
  | dir (entries : List (String × FileTree))
deriving Inhabited

namespace FileTree

/-- A directory without entries. -/
def empty : FileTree := dir []

/-- The longest name of an entry, in bytes. -/
def maxNameLength : Nat := 255

/-- Whether a name is too long for an entry. -/
def isTooLong (name : String) : Bool := maxNameLength < name.utf8ByteSize

/-- The file or directory that some names lead to. -/
def find : FileTree → List String → Except IoError FileTree
  | t, [] => .ok t
  | file _, _ :: _ => .error .notADirectory
  | dir entries, name :: rest =>
    if isTooLong name then .error .invalidName
    else
      match entries.lookup name with
      | none => .error .notFound
      | some t => t.find rest

/-- The tree with the entry that some names lead to changed by a function, which sees what stands
there and says what is to stand there. -/
def alter (change : Option FileTree → Except IoError (Option FileTree)) :
    FileTree → List String → Except IoError FileTree
  | _, [] => .error .isADirectory
  | file _, _ :: _ => .error .notADirectory
  | dir entries, [name] =>
    if isTooLong name then .error .invalidName
    else do
      match ← change (entries.lookup name) with
      | some t => return dir (insertEntry name t entries)
      | none => return dir (entries.filter fun e => e.1 != name)
  | dir entries, name :: rest =>
    if isTooLong name then .error .invalidName
    else
      match entries.lookup name with
      | none => .error .notFound
      | some t => do return dir (insertEntry name (← t.alter change rest) entries)

/-- The tree with the directories that some names lead to. -/
def makeDirs : FileTree → List String → Except IoError FileTree
  | file _, [] => .error .alreadyExists
  | dir entries, [] => .ok (dir entries)
  | file _, _ :: _ => .error .notADirectory
  | dir entries, name :: rest =>
    if isTooLong name then .error .invalidName
    else do
      return dir (insertEntry name (← ((entries.lookup name).getD empty).makeDirs rest) entries)

/-- The result of making directories.  They are made one after the other, so that those before a
name that is too long are there afterwards. -/
def afterMakeDirs (t : FileTree) (names : List String) : Except IoError Unit × FileTree :=
  match t.makeDirs names with
  | .ok made => (.ok (), made)
  | .error e =>
    match t.makeDirs (names.takeWhile fun n => !isTooLong n) with
    | .ok made => (.error e, made)
    | .error _ => (.error e, t)

/-! ## Operations -/

/-- The names that lead to a path; an empty path leads nowhere. -/
def names? (path : String) : Except IoError (List String) :=
  if path.isEmpty then .error .notFound
  else if path.toList.contains (Char.ofNat 0) then .error .invalidInput
  else .ok (Path.segments path)

/-- Whether a path can only name a directory, because a slash or a dot ends it. -/
def wantsDirectory (path : String) : Bool :=
  match (pieces '/' path.toList).getLast? with
  | some n => n == [] || n == ['.'] || n == ['.', '.']
  | none => false

/-- What stands at a path. -/
def at? (t : FileTree) (path : String) : Except IoError FileTree := do
  match ← t.find (← names? path) with
  | file contents => if wantsDirectory path then .error .notADirectory else .ok (file contents)
  | dir entries => .ok (dir entries)

/-- The contents of a file. -/
def read (t : FileTree) (path : String) : Except IoError Bytes := do
  match ← t.at? path with
  | file contents => .ok contents
  | dir _ => .error .isADirectory

/-- The names in a directory. -/
def list (t : FileTree) (path : String) : Except IoError (List String) := do
  match ← t.at? path with
  | file _ => .error .notADirectory
  | dir entries => .ok (entries.map (·.1))

/-- The tree with a file whose contents are made from what it held before. -/
def store (t : FileTree) (path : String) (contents : Bytes → Bytes) : Except IoError FileTree := do
  let names ← names? path
  let change : Option FileTree → Except IoError (Option FileTree)
    | some (file old) =>
      if wantsDirectory path then .error .notADirectory else .ok (some (file (contents old)))
    | some (dir _) => .error .isADirectory
    | none => if wantsDirectory path then .error .isADirectory else .ok (some (file (contents [])))
  t.alter change names

/-- The tree without a file. -/
def remove (t : FileTree) (path : String) : Except IoError FileTree := do
  let change : Option FileTree → Except IoError (Option FileTree)
    | some (file _) => if wantsDirectory path then .error .notADirectory else .ok none
    | some (dir _) => .error .isADirectory
    | none => .error .notFound
  t.alter change (← names? path)

/-- The tree without whatever stands at a path. -/
def removeAll (t : FileTree) (path : String) : Except IoError FileTree := do
  let change : Option FileTree → Except IoError (Option FileTree)
    | some _ => .ok none
    | none => .error .notFound
  t.alter change (← names? path)

/-- Whether something may take the place of what stands at the target of a renaming. -/
def replaces (source : FileTree) : Option FileTree → Except IoError (Option FileTree)
  | none => .ok (some source)
  | some (file _) =>
    match source with
    | file _ => .ok (some source)
    | dir _ => .error .notADirectory
  | some (dir entries) =>
    match source with
    | file _ => .error .isADirectory
    | dir _ => if entries.isEmpty then .ok (some source) else .error .directoryNotEmpty

/-- Whether something can stand at a path; a file cannot where the path can only name a
directory. -/
def fitsAt (path : String) : FileTree → Bool
  | file _ => !wantsDirectory path
  | dir _ => true

/-- The tree with something moved to another path. -/
def rename (t : FileTree) (source target : String) : Except IoError FileTree := do
  let from_ ← names? source
  let to_ ← names? target
  let moved ← t.at? source
  if !moved.fitsAt target then .error .notADirectory
  else if from_ = to_ then return t
  else if from_.isPrefixOf to_ then .error .invalidInput
  else
    let t ← t.alter (replaces moved) to_
    t.alter (fun _ => .ok none) from_

/-- The result of a change: the new tree, or the old one and why nothing was changed. -/
def commit (t : FileTree) : Except IoError FileTree → Except IoError Unit × FileTree
  | .ok changed => (.ok (), changed)
  | .error e => (.error e, t)

/-- The answer to an operation, and the tree after it. -/
def answer : {β : Type} → FileOp β → FileTree → β × FileTree
  | _, .read path, t => (t.read path, t)
  | _, .list path, t => (t.list path, t)
  | _, .isPresent path, t => ((t.at? path).isOk, t)
  | _, .makeDirs path, t =>
    if path.isEmpty then (.ok (), t)
    else
      match names? path with
      | .ok names => t.afterMakeDirs names
      | .error e => (.error e, t)
  | _, .write path contents, t => t.commit (t.store path fun _ => contents)
  | _, .append path contents, t => t.commit (t.store path fun old => old ++ contents)
  | _, .rename source target, t => t.commit (t.rename source target)
  | _, .remove path, t => t.commit (t.remove path)
  | _, .copy source target, t =>
    t.commit (do
      let contents ← t.read source
      t.store target fun _ => contents)

end FileTree
end ProxyPlane
