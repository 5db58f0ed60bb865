import ProxyPlane.Proofs.Snapshot.Names

/-!
# Snapshots as entries of a directory

What the operations on snapshots answer, and how they leave the directory, is said here of the
entries of the directory.

## What is here

* `SnapshotProgram.on`, a program run on a tree of files.
* `SnapshotDir.Holds`, that the directory has these entries.
* `numbersOf`, `markerOf` and `documentOf`, what the entries say; `on_list`, `on_lastGood` and
  `on_load` read it.
* `replaceFile`, the entries after a file was written under another name and renamed;
  `on_writeAtomic`.
-/

set_option autoImplicit false
namespace ProxyPlane

/-- The entries of a directory. -/
abbrev Entries := List (String × FileTree)

/-! ## Running programs on a tree of files -/

namespace SnapshotProgram

variable {α β : Type}

/-- What a program answers on a tree of files, and the tree after it. -/
def on (p : SnapshotProgram α) (t : FileTree) : Except SnapshotError α × FileTree :=
  p.run.run FileTree.answer t

@[simp]
theorem on_pure (a : α) (t : FileTree) : (pure a : SnapshotProgram α).on t = (.ok a, t) := rfl

theorem on_bind (p : SnapshotProgram α) (f : α → SnapshotProgram β) (t : FileTree) :
    (p >>= f).on t =
      match p.on t with
      | (.ok a, t') => (f a).on t'
      | (.error e, t') => (.error e, t') := by
  show (Program.bind p.run (ExceptT.bindCont f)).run FileTree.answer t = _
  rw [Program.run_bind, on]
  cases h : p.run.run FileTree.answer t with
  | mk r t' => cases r <;> rfl

theorem on_bind_ok {p : SnapshotProgram α} {f : α → SnapshotProgram β} {t t' : FileTree} {a : α}
    (h : p.on t = (.ok a, t')) : (p >>= f).on t = (f a).on t' := by
  rw [on_bind, h]

theorem on_bind_error {p : SnapshotProgram α} {f : α → SnapshotProgram β} {t t' : FileTree}
    {e : SnapshotError} (h : p.on t = (.error e, t')) : (p >>= f).on t = (.error e, t') := by
  rw [on_bind, h]

theorem on_orFail_ok {path : String} {op : FileOp (Except IoError α)} {t t' : FileTree} {a : α}
    (h : FileTree.answer op t = (.ok a, t')) :
    (SnapshotDir.orFail path (.perform op)).on t = (.ok a, t') := by
  show (Program.bind (.perform op) _).run FileTree.answer t = _
  rw [Program.run_bind, Program.run_perform, h]
  rfl

theorem on_orFail_error {path : String} {op : FileOp (Except IoError α)} {t t' : FileTree}
    {e : IoError} (h : FileTree.answer op t = (.error e, t')) :
    (SnapshotDir.orFail path (.perform op)).on t = (.error (.io path e), t') := by
  show (Program.bind (.perform op) _).run FileTree.answer t = _
  rw [Program.run_bind, Program.run_perform, h]
  rfl

/-- What a program of one operation answers. -/
theorem on_of_step {p : SnapshotProgram α} (op : FileOp β) {g : β → Except SnapshotError α}
    (hp : p.run = .step op fun b => .done (g b)) (t : FileTree) :
    (p.on t).1 = g (FileTree.answer op t).1 := by
  rw [on, hp, Program.run_step]
  rfl

/-- A program of one operation answers alike if the operation is answered alike. -/
theorem on_congr {p : SnapshotProgram α} (op : FileOp β) {g : β → Except SnapshotError α}
    {t t' : FileTree} (hp : p.run = .step op fun b => .done (g b))
    (h : (FileTree.answer op t').1 = (FileTree.answer op t).1) : (p.on t').1 = (p.on t).1 := by
  rw [on_of_step op hp, on_of_step op hp, h]

end SnapshotProgram

namespace SnapshotDir

open SnapshotProgram

variable {s : SnapshotDir} {t : FileTree} {es : Entries}

/-! ## The directory -/

/-- The path of the directory can be followed. -/
structure IsProper (s : SnapshotDir) : Prop where
  nonempty : s.dir ≠ ""
  noNul : Char.ofNat 0 ∉ s.dir.toList

/-- The directory is there and has these entries. -/
def Holds (s : SnapshotDir) (t : FileTree) (es : Entries) : Prop :=
  t.find (Path.segments s.dir) = .ok (.dir es)

/-- The directory has these entries, or is not there and they are none. -/
def HoldsOrAbsent (s : SnapshotDir) (t : FileTree) (es : Entries) : Prop :=
  s.Holds t es ∨ t.find (Path.segments s.dir) = .error .notFound ∧ es = []

theorem Holds.orAbsent (h : s.Holds t es) : s.HoldsOrAbsent t es := .inl h

theorem Holds.unique {es' : Entries} (h : s.Holds t es) (h' : s.Holds t es') : es = es' := by
  rw [Holds] at h h'
  rw [h] at h'
  cases h'
  rfl

theorem HoldsOrAbsent.unique {es' : Entries} (h : s.HoldsOrAbsent t es)
    (h' : s.HoldsOrAbsent t es') : es = es' := by
  rcases h with h | ⟨h, rfl⟩
  · rcases h' with h' | ⟨h', -⟩
    · exact h.unique h'
    · cases Eq.trans (Eq.symm h) h'
  · rcases h' with h' | ⟨-, rfl⟩
    · cases h.symm.trans h'
    · rfl

theorem isName_snapshots : Path.IsName "snapshots" where
  counts := by decide
  notParent := by decide
  noSlash := by decide
  noNul := by decide

theorem below_dir_ne_empty (configDir : String) : (below configDir).dir ≠ "" :=
  Path.join_ne_empty configDir isName_snapshots

theorem isProper_below {configDir : String} (h : Char.ofNat 0 ∉ configDir.toList) :
    (below configDir).IsProper :=
  ⟨below_dir_ne_empty configDir, Path.nul_not_mem_join isName_snapshots h⟩

/-- A path that can be followed is neither empty nor broken off. -/
theorem isProper_of_names? {names : List String} (h : FileTree.names? s.dir = .ok names) :
    s.IsProper := by
  rw [FileTree.names?] at h
  split at h
  · cases h
  · rename_i hempty
    split at h
    · cases h
    · rename_i hnul
      exact ⟨by simpa using hempty, by simpa using hnul⟩

theorem IsProper.names (h : s.IsProper) :
    FileTree.names? s.dir = .ok (Path.segments s.dir) :=
  FileTree.names?_eq h.nonempty h.noNul

/-- The path of an entry. -/
theorem IsProper.leadsTo (h : s.IsProper) {name : String} (hname : Path.IsName name)
    (hlength : name.toList.length ≤ 63) :
    FileTree.LeadsTo (Path.join s.dir name) (Path.segments s.dir) name :=
  FileTree.leadsTo_join hname h.noNul (not_isTooLong hlength)

theorem IsProper.leadsTo_marker (h : s.IsProper) :
    FileTree.LeadsTo s.markerPath (Path.segments s.dir) markerName :=
  h.leadsTo isName_marker (by decide)

theorem IsProper.leadsTo_pathFor (h : s.IsProper) {seq : Nat} (hseq : seq ≤ Nat.pow 2 64) :
    FileTree.LeadsTo (s.pathFor seq) (Path.segments s.dir) (fileName seq) :=
  h.leadsTo (isName_fileName seq) (by rw [length_fileName hseq]; decide)

/-! ## Reading -/

/-- The numbers of the snapshots among some names, lowest first. -/
def numbersOf (names : List String) : List Nat := (names.filterMap parseName?).mergeSort

/-- The numbers of the snapshots among the entries. -/
def numbersIn (es : Entries) : List Nat := numbersOf (es.map (·.1))

theorem map_seq_ofNames (s : SnapshotDir) (names : List String) :
    (s.ofNames names).map (·.seq) = numbersOf names := by
  rw [ofNames, List.map_mergeSort (s := fun a b => decide (a ≤ b)) fun a _ b _ => rfl,
    List.map_filterMap, numbersOf]
  congr 2
  funext n
  cases parseName? n <;> rfl

/-- The snapshots among the entries, lowest number first. -/
def snapshotsIn (s : SnapshotDir) (es : Entries) : List Snapshot := s.ofNames (es.map (·.1))

theorem ofNames_nil (s : SnapshotDir) : s.ofNames [] = [] := by
  rw [ofNames, List.filterMap_nil, List.mergeSort_nil]

/-- What the marker says among these entries. -/
def markerOf (s : SnapshotDir) (es : Entries) : Except SnapshotError (Option Nat) :=
  match es.lookup markerName with
  | none => .ok none
  | some (.dir _) => .error (.io s.markerPath .isADirectory)
  | some (.file contents) =>
    match Files.textOf contents with
    | .error e => .error (.io s.markerPath e)
    | .ok content =>
      match Numeral.u64? (trimBlank content) with
      | some seq => .ok (some seq)
      | none => .error (.marker s.markerPath content)

/-- What the file of a number says among these entries. -/
def documentOf (s : SnapshotDir) (es : Entries) (seq : Nat) : Except SnapshotError Document :=
  match es.lookup (fileName seq) with
  | none => .error (.notFound seq)
  | some (.dir _) => .error (.io (s.pathFor seq) .isADirectory)
  | some (.file contents) =>
    match Document.decode contents with
    | .ok d => .ok d
    | .error e => .error (.decode (s.pathFor seq) e)

theorem on_list (hs : s.IsProper) (h : s.HoldsOrAbsent t es) :
    s.list.on t = (.ok (s.snapshotsIn es), t) := by
  rw [SnapshotProgram.on, list]
  simp only [ExceptT.run, ExceptT.mk, Files.list, Program.bind_eq, Program.run_bind,
    Program.run_perform, FileTree.answer]
  rcases h with h | ⟨h, rfl⟩
  · rw [FileTree.list_eq hs.names h]
    rfl
  · rw [FileTree.list_of_find_error hs.names h, snapshotsIn, List.map_nil, ofNames_nil]
    rfl

theorem tree_on_lastGood (s : SnapshotDir) (t : FileTree) : (s.lastGood.on t).2 = t := rfl

theorem tree_on_load (s : SnapshotDir) (seq : Nat) (t : FileTree) : ((s.load seq).on t).2 = t := by
  rw [SnapshotProgram.on, load]
  simp only [ExceptT.run, ExceptT.mk, Files.read, Program.bind_eq, Program.run_bind,
    Program.run_perform, FileTree.answer, Program.pure_eq, Program.run_done]

theorem tree_on_previousBefore (s : SnapshotDir) (seq : Nat) (t : FileTree) :
    ((s.previousBefore seq).on t).2 = t := by
  rw [previousBefore, on_bind]
  cases h : s.list.on t with
  | mk r t' =>
    have ht : t' = t := congrArg Prod.snd h.symm
    cases r with
    | ok snapshots => exact ht
    | error e => exact ht

/-- The number before another is below it. -/
theorem lt_of_previousBefore {seq k : Nat}
    (h : ((s.previousBefore seq).on t).1 = .ok (some k)) : k < seq := by
  rw [previousBefore, on_bind] at h
  split at h
  · rename_i snapshots t' _
    have hmax : newest? ((snapshots.map (·.seq)).filter fun n => n < seq) = some k :=
      Except.ok.inj h
    have hmem := List.max?_mem hmax
    exact of_decide_eq_true (List.mem_filter.1 hmem).2
  · cases h

/-- The file of an entry, if it is there. -/
theorem read_of_holdsOrAbsent (h : s.HoldsOrAbsent t es) {path name : String}
    (hpath : FileTree.LeadsTo path (Path.segments s.dir) name) :
    t.read path =
      match es.lookup name with
      | none => .error .notFound
      | some (.file contents) => .ok contents
      | some (.dir _) => .error .isADirectory := by
  rcases h with h | ⟨h, rfl⟩
  · exact FileTree.read_eq hpath h
  · exact FileTree.read_of_find_error hpath h

theorem on_lastGood (hs : s.IsProper) (h : s.HoldsOrAbsent t es) :
    s.lastGood.on t = (s.markerOf es, t) := by
  have hread := read_of_holdsOrAbsent h hs.leadsTo_marker
  rw [SnapshotProgram.on, lastGood]
  simp only [ExceptT.run, ExceptT.mk, Files.readText, Files.read, Program.bind_eq,
    Program.pure_eq, Program.run_bind, Program.run_perform, Program.run_done, FileTree.answer,
    hread, markerOf]
  cases es.lookup markerName with
  | none => rfl
  | some u =>
    cases u with
    | dir entries => rfl
    | file contents =>
      simp only [Except.bind, Files.textOf]
      cases Utf8.decode? contents with
      | none => rfl
      | some text => rfl

theorem on_load (hs : s.IsProper) (h : s.HoldsOrAbsent t es) {seq : Nat}
    (hseq : seq ≤ Nat.pow 2 64) : (s.load seq).on t = (s.documentOf es seq, t) := by
  have hread := read_of_holdsOrAbsent h (hs.leadsTo_pathFor hseq)
  rw [SnapshotProgram.on, load]
  simp only [ExceptT.run, ExceptT.mk, Files.read, Program.bind_eq, Program.run_bind,
    Program.run_perform, FileTree.answer, hread, documentOf]
  cases es.lookup (fileName seq) with
  | none => rfl
  | some u =>
    cases u with
    | dir entries => rfl
    | file contents => rfl

/-! ## Writing -/

/-- The entries after a file was written under another name and put in the place of one. -/
def replaceFile (name : String) (contents : Bytes) (es : Entries) : Entries :=
  FileTree.place (temporaryName name) none (FileTree.place name (some (.file contents))
    (FileTree.place (temporaryName name) (some (.file contents)) es))

theorem lookup_replaceFile (name : String) (contents : Bytes) (es : Entries) (j : String) :
    (replaceFile name contents es).lookup j =
      if j = temporaryName name then none
      else if j = name then some (.file contents) else es.lookup j := by
  rw [replaceFile, FileTree.lookup_place, FileTree.lookup_place, FileTree.lookup_place]
  by_cases hj : j = temporaryName name
  · rw [if_pos hj, if_pos hj]
  · rw [if_neg hj, if_neg hj, if_neg hj]

/-- Nothing stands in the way of writing a file. -/
def CanReplace (name : String) (es : Entries) : Prop :=
  FileTree.IsFree (es.lookup name) ∧ FileTree.IsFree (es.lookup (temporaryName name))

theorem isFree_none : FileTree.IsFree none := nofun

theorem isFree_file (contents : Bytes) : FileTree.IsFree (some (.file contents)) := by
  intro entries h
  cases h

/-- There is no directory among the entries. -/
def AllFiles (es : Entries) : Prop := ∀ name, FileTree.IsFree (es.lookup name)

theorem AllFiles.canReplace (h : AllFiles es) (name : String) : CanReplace name es :=
  ⟨h name, h (temporaryName name)⟩

theorem allFiles_replaceFile (h : AllFiles es) (name : String) (contents : Bytes) :
    AllFiles (replaceFile name contents es) := by
  intro j
  rw [lookup_replaceFile]
  split
  · exact isFree_none
  · split
    · exact isFree_file contents
    · exact h j

/-- **A file is replaced in one instant**, unless a directory stands in its way. -/
theorem on_writeAtomic (hs : s.IsProper) (h : s.Holds t es) {name : String}
    (hname : Path.IsName name) (hlength : name.toList.length ≤ 58) (hfree : CanReplace name es)
    (contents : Bytes) :
    ∃ t', (writeAtomic (Path.join s.dir name) contents).on t = (.ok (), t') ∧
      s.Holds t' (replaceFile name contents es) := by
  have htemporary := FileTree.leadsTo_withFileName hname hs.noNul (isName_temporaryName hname)
    (not_isTooLong (by rw [length_temporaryName]; omega))
  have htarget := hs.leadsTo hname (by omega)
  obtain ⟨t₁, hwrite, hfind₁⟩ := FileTree.answer_write htemporary h hfree.2 contents
  have hlookup : (FileTree.place (temporaryName name) (some (.file contents)) es).lookup
      (temporaryName name) = some (.file contents) := by
    rw [FileTree.lookup_place, if_pos rfl]
  have hother : FileTree.IsFree ((FileTree.place (temporaryName name) (some (.file contents))
      es).lookup name) := by
    rw [FileTree.lookup_place, if_neg (Ne.symm (temporaryName_ne_self name))]
    exact hfree.1
  obtain ⟨t₂, hrename, hfind₂⟩ := FileTree.answer_rename htemporary htarget
    (temporaryName_ne_self name) hfind₁ hlookup hother
  refine ⟨t₂, ?_, hfind₂⟩
  rw [writeAtomic]
  simp only [Path.fileName?_join s.dir hname, Option.getD_some, Files.write, Files.rename]
  rw [on_bind_ok (on_orFail_ok hwrite), on_orFail_ok hrename]

/-- A directory under the other name stands in the way, and nothing is changed. -/
theorem on_writeAtomic_error (hs : s.IsProper) (h : s.Holds t es) {name : String}
    (hname : Path.IsName name) (hlength : name.toList.length ≤ 58) {entries : Entries}
    (hentry : es.lookup (temporaryName name) = some (.dir entries)) (contents : Bytes) :
    ∃ e, (writeAtomic (Path.join s.dir name) contents).on t = (.error e, t) := by
  have htemporary := FileTree.leadsTo_withFileName hname hs.noNul (isName_temporaryName hname)
    (not_isTooLong (by rw [length_temporaryName]; omega))
  have hwrite := FileTree.answer_write_error htemporary h hentry contents
  refine ⟨.io (Path.withFileName (Path.join s.dir name) (temporaryName name)) .isADirectory, ?_⟩
  rw [writeAtomic]
  simp only [Path.fileName?_join s.dir hname, Option.getD_some, Files.write]
  rw [on_bind_error (on_orFail_error hwrite)]

end SnapshotDir
end ProxyPlane
