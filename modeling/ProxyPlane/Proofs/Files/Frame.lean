import ProxyPlane.Proofs.Execution
import ProxyPlane.Proofs.Files.Contents

/-!
# Operations that leave a file alone

An operation that does not write a file leaves it with the bytes that it has, whether the operation
is answered, fails, or fails when half of it is done.

## What is here

* `FileTree.bytesAt?`, the bytes of a file, if there is one.
* `FileOp.Spares`, that an operation does not write a file, and `bytesAt?_of_mayAnswer`.
-/

set_option autoImplicit false
namespace ProxyPlane
namespace FileTree

/-- The bytes of the file at a path, if there is one. -/
def bytesAt? (t : FileTree) (path : String) : Option Bytes :=
  match t.read path with
  | .ok contents => some contents
  | .error _ => none

theorem bytesAt?_eq_some {t : FileTree} {path : String} {contents : Bytes} :
    t.bytesAt? path = some contents ↔ t.read path = .ok contents := by
  rw [bytesAt?]
  cases t.read path <;> simp

/-- Where nothing stands there are no bytes. -/
theorem bytesAt?_of_absent {t : FileTree} {path : String} (h : (t.at? path).isOk = false) :
    t.bytesAt? path = none := by
  rw [Option.eq_none_iff_forall_ne_some]
  intro contents hsome
  rw [isOk_at?_of_read (bytesAt?_eq_some.1 hsome)] at h
  exact absurd h nofun

variable {t t' : FileTree} {file : String}

theorem bytesAt?_congr (h : ∀ names, names? file = .ok names →
    (t'.look names).bytes? = (t.look names).bytes?) : t'.bytesAt? file = t.bytesAt? file := by
  refine Option.ext fun contents => ?_
  rw [bytesAt?_eq_some, bytesAt?_eq_some, read_eq_ok, read_eq_ok]
  refine exists_congr fun names => and_congr_right fun hnames => and_congr_right fun _ => ?_
  rw [← Sight.bytes?_eq_some, ← Sight.bytes?_eq_some, h names hnames]

/-! ## Changes -/

/-- Making directories leaves all files alone. -/
theorem bytesAt?_of_makeDirs {path : List String} (h : t.makeDirs path = .ok t') :
    t'.bytesAt? file = t.bytesAt? file :=
  bytesAt?_congr fun _ _ => bytes?_of_makeDirs h

/-- The path does not lead to the file. -/
def IsElsewhere (file path : String) : Prop :=
  ∀ names, names? file = .ok names → names? path ≠ .ok names

/-- Writing another file leaves the file alone. -/
theorem bytesAt?_of_store {path : String} {contents : Bytes → Bytes} (hpath : IsElsewhere file path)
    (h : t.store path contents = .ok t') : t'.bytesAt? file = t.bytesAt? file := by
  obtain ⟨target, htarget, -, hlook⟩ := look_of_store h
  refine bytesAt?_congr fun names hnames => ?_
  rw [hlook, if_neg]
  rintro rfl
  exact hpath _ hnames htarget

/-- What is changed, or left as it was because the change failed. -/
theorem bytesAt?_of_commit {b : Except IoError Unit} {x : Except IoError FileTree}
    (h : (b, t') = t.commit x) (hx : ∀ u, x = .ok u → u.bytesAt? file = t.bytesAt? file) :
    t'.bytesAt? file = t.bytesAt? file := by
  cases x with
  | error e =>
    cases h
    rfl
  | ok u =>
    cases h
    exact hx t' rfl

end FileTree

/-- The operation moves and removes nothing, and does not write the file. -/
def FileOp.Spares (file : String) : {β : Type} → FileOp β → Prop
  | _, .write path _ => FileTree.IsElsewhere file path
  | _, .append path _ => FileTree.IsElsewhere file path
  | _, .copy _ target => FileTree.IsElsewhere file target
  | _, .rename _ _ => False
  | _, .remove _ => False
  | _, _ => True

namespace FileTree

variable {t t' : FileTree} {file : String}

/-- **An operation that spares a file leaves it with its bytes**, also if the operation fails. -/
theorem bytesAt?_of_mayAnswer {β : Type} {op : FileOp β} {b : β} (h : op.Spares file)
    (hanswer : MayAnswer op t b t') : t'.bytesAt? file = t.bytesAt? file := by
  -- done, failed without a trace, or done in part
  rcases hanswer with hdone | ⟨e, -, rfl | htorn⟩
  · cases op with
    | read path => exact congrArg (bytesAt? · file) (congrArg Prod.snd hdone)
    | list path => exact congrArg (bytesAt? · file) (congrArg Prod.snd hdone)
    | isPresent path => exact congrArg (bytesAt? · file) (congrArg Prod.snd hdone)
    | makeDirs path =>
      rcases tree_of_answer_makeDirs hdone with rfl | ⟨names, k, -, hmade⟩
      · rfl
      · exact bytesAt?_of_makeDirs hmade
    | write path contents => exact bytesAt?_of_commit hdone fun u hu => bytesAt?_of_store h hu
    | append path contents => exact bytesAt?_of_commit hdone fun u hu => bytesAt?_of_store h hu
    | copy source target =>
      refine bytesAt?_of_commit hdone fun u hu => ?_
      obtain ⟨contents, -, hstored⟩ := bind_eq_ok.1 hu
      exact bytesAt?_of_store h hstored
    | rename source target => exact absurd h id
    | remove path => exact absurd h id
  · rfl
  · cases op with
    | makeDirs path =>
      obtain ⟨names, k, -, hmade⟩ := htorn
      exact bytesAt?_of_makeDirs hmade
    | write path contents =>
      obtain ⟨k, hstored⟩ := htorn
      exact bytesAt?_of_store h hstored
    | append path contents =>
      obtain ⟨k, hstored⟩ := htorn
      exact bytesAt?_of_store h hstored
    | copy source target =>
      obtain ⟨contents, k, -, hstored⟩ := htorn
      exact bytesAt?_of_store h hstored
    | _ => exact absurd htorn id

end FileTree
end ProxyPlane
