import ProxyPlane.Proofs.Files.Tree

/-!
# What stands where in a tree of files

An operation that succeeds is told by what stands at every path afterwards.  It changes nothing
beside the paths that it names, save that directories may appear on the way.

## What is here

* `FileTree.look`, what stands at a path: nothing, a directory, or a file with its contents.
* `look_of_alter` and `look_of_makeDirs`: the two changes that a tree can undergo.
* `look_of_store`, `look_of_rename` and `look_of_remove`: writing, renaming and removing files.
* `read_eq_ok` and `isOk_at?`: reading a file and asking for it depend on what stands there.
-/

set_option autoImplicit false
namespace ProxyPlane
namespace FileTree

/-- What can stand at a path. -/
inductive Sight
  | nothing
  | directory
  | file (contents : Bytes)
deriving DecidableEq

/-- The bytes of a file; anything else has none. -/
def Sight.bytes? : Sight → Option Bytes
  | .file contents => some contents
  | _ => none

theorem Sight.bytes?_eq_some {x : Sight} {contents : Bytes} :
    x.bytes? = some contents ↔ x = .file contents := by
  cases x <;> simp [bytes?]

/-- The bytes that a writer finds: those of a file, and otherwise none. -/
def Sight.contents (x : Sight) : Bytes := x.bytes?.getD []

/-- What stands where some names lead to. -/
def look (t : FileTree) (names : List String) : Sight :=
  match t.find names with
  | .ok (file contents) => .file contents
  | .ok (dir _) => .directory
  | .error _ => .nothing

/-- What stands below an entry that may be missing. -/
def lookIn (entry : Option FileTree) (names : List String) : Sight :=
  match entry with
  | some t => t.look names
  | none => .nothing

@[simp]
theorem look_file_nil (contents : Bytes) : (file contents).look [] = .file contents := rfl

@[simp]
theorem look_file_cons (contents : Bytes) (name : String) (rest : List String) :
    (file contents).look (name :: rest) = .nothing := rfl

@[simp]
theorem look_dir_nil (entries : List (String × FileTree)) : (dir entries).look [] = .directory :=
  rfl

theorem look_dir_cons (entries : List (String × FileTree)) (name : String) (rest : List String) :
    (dir entries).look (name :: rest) =
      if isTooLong name then .nothing else lookIn (entries.lookup name) rest := by
  rw [look, find]
  by_cases hlong : isTooLong name = true
  · simp [hlong]
  · simp only [if_neg hlong]
    cases entries.lookup name <;> rfl

@[simp]
theorem look_empty_cons (name : String) (rest : List String) :
    empty.look (name :: rest) = .nothing := by
  simp [empty, look_dir_cons, lookIn]

/-- Below a file stands nothing. -/
theorem look_append_of_file {t : FileTree} {path rest : List String} {contents : Bytes}
    (h : t.look path = .file contents) (hrest : rest ≠ []) : t.look (path ++ rest) = .nothing := by
  induction path generalizing t with
  | nil =>
    cases t with
    | dir entries => cases h
    | file contents =>
      cases rest with
      | nil => exact absurd rfl hrest
      | cons name rest => rfl
  | cons d ds ih =>
    cases t with
    | file contents => rfl
    | dir entries =>
      rw [List.cons_append, look_dir_cons]
      rw [look_dir_cons] at h
      by_cases hlong : isTooLong d = true
      · rw [if_pos hlong]
      · rw [if_neg hlong] at h ⊢
        cases hentry : entries.lookup d with
        | none => rfl
        | some u =>
          rw [hentry] at h
          exact ih h

/-- What stands below a directory with another entry in the place of one of them. -/
theorem look_place_cons (name : String) (entry : Option FileTree)
    (entries : List (String × FileTree)) (other : String) (rest : List String) :
    (dir (place name entry entries)).look (other :: rest) =
      if other = name then if isTooLong name then .nothing else lookIn entry rest
      else (dir entries).look (other :: rest) := by
  simp only [look_dir_cons, lookup_place]
  by_cases hname : other = name <;> simp [hname]

/-- What stands at other paths than those below an entry does not depend on the entry. -/
theorem look_place_of_not_prefix {name : String} {entry : Option FileTree}
    {entries : List (String × FileTree)} {names : List String} (h : ¬[name] <+: names) :
    (dir (place name entry entries)).look names = (dir entries).look names := by
  cases names with
  | nil => rfl
  | cons other rest =>
    rw [look_place_cons, if_neg]
    rintro rfl
    exact h ⟨rest, rfl⟩

/-- **Changing an entry changes what stands there and below, and nothing else.** -/
theorem look_of_alter {change : Option FileTree → Except IoError (Option FileTree)}
    {t t' : FileTree} {path : List String} (h : t.alter change path = .ok t') :
    ∃ before after, change before = .ok after ∧
      (∀ rest, t.look (path ++ rest) = lookIn before rest) ∧
      (∀ rest, t'.look (path ++ rest) = lookIn after rest) ∧
      ∀ names, ¬path <+: names → t'.look names = t.look names := by
  induction path generalizing t t' with
  | nil => cases t <;> cases h
  | cons d ds ih =>
    cases ds with
    | nil =>
      obtain ⟨entries, entry, rfl, hd, hchange, rfl⟩ := exists_of_alter_singleton h
      have hshort : ¬isTooLong d = true := by simp [hd]
      refine ⟨entries.lookup d, entry, hchange, fun rest => ?_, fun rest => ?_,
        fun names => look_place_of_not_prefix⟩
      · rw [List.singleton_append, look_dir_cons, if_neg hshort]
      · rw [List.singleton_append, look_place_cons, if_pos rfl, if_neg hshort]
    | cons x xs =>
      obtain ⟨entries, v, v', rfl, hd, hentry, hv, rfl⟩ :=
        exists_of_alter_cons h (List.cons_ne_nil x xs)
      have hshort : ¬isTooLong d = true := by simp [hd]
      obtain ⟨before, after, hchange, hbefore, hafter, hbeside⟩ := ih hv
      refine ⟨before, after, hchange, fun rest => ?_, fun rest => ?_, fun names hnot => ?_⟩
      · rw [List.cons_append, look_dir_cons, if_neg hshort, hentry]
        exact hbefore rest
      · rw [List.cons_append, look_place_cons, if_pos rfl, if_neg hshort]
        exact hafter rest
      -- what stands below the first name is told by the induction, and nothing beside it changes
      · by_cases hbelow : [d] <+: names
        · obtain ⟨rest, rfl⟩ := hbelow
          have hrest : ¬(x :: xs) <+: rest := by
            rintro ⟨more, rfl⟩
            exact hnot ⟨more, rfl⟩
          rw [List.singleton_append, look_place_cons, if_pos rfl, if_neg hshort, look_dir_cons,
            if_neg hshort, hentry]
          exact hbeside rest hrest
        · exact look_place_of_not_prefix hbelow

/-- **Making directories puts them where there was nothing, and changes nothing else.** -/
theorem look_of_makeDirs {t t' : FileTree} {path : List String} (h : t.makeDirs path = .ok t')
    (names : List String) :
    t'.look names = if names <+: path then .directory else t.look names := by
  induction path generalizing t t' names with
  | nil =>
    cases t with
    | file contents => cases h
    | dir entries =>
      cases h
      cases names <;> simp
  | cons d ds ih =>
    obtain ⟨entries, u, rfl, hd, hu, rfl⟩ := exists_of_makeDirs_cons h
    have hshort : ¬isTooLong d = true := by simp [hd]
    cases names with
    | nil => simp
    | cons other rest =>
      by_cases hname : other = d
      · subst hname
        rw [look_place_cons, if_pos rfl, if_neg hshort, lookIn, ih hu, look_dir_cons,
          if_neg hshort]
        simp only [List.cons_prefix_cons, true_and]
        cases entries.lookup other with
        | some v => rfl
        | none => cases rest <;> simp [lookIn]
      · simp [look_place_cons, hname]

/-- Where nothing stands, nothing stands below. -/
theorem look_append_of_nothing {t : FileTree} {path : List String} (h : t.look path = .nothing)
    (rest : List String) : t.look (path ++ rest) = .nothing := by
  rw [look] at h ⊢
  split at h
  · cases h
  · cases h
  · rename_i e hfind
    rw [find_append_error hfind rest]

/-- On the way to a file there are directories. -/
theorem look_of_isPrefix {t : FileTree} {path names : List String} {contents : Bytes}
    (hfile : t.look names = .file contents) (h : path <+: names) (hne : path ≠ names) :
    t.look path = .directory := by
  obtain ⟨rest, rfl⟩ := h
  cases hpath : t.look path with
  | directory => rfl
  | nothing =>
    rw [look_append_of_nothing hpath] at hfile
    cases hfile
  | file old =>
    rw [look_append_of_file hpath (by simpa using hne)] at hfile
    cases hfile

/-- Making directories does not touch files. -/
theorem look_of_makeDirs_file {t t' : FileTree} {path names : List String} {contents : Bytes}
    (h : t.makeDirs path = .ok t') (hfile : t.look names = .file contents) :
    t'.look names = .file contents := by
  rw [look_of_makeDirs h, if_neg, hfile]
  intro hprefix
  induction path generalizing t t' names with
  | nil =>
    obtain rfl := List.prefix_nil.1 hprefix
    cases t with
    | file old => cases h
    | dir entries => cases hfile
  | cons d ds ih =>
    obtain ⟨entries, u, rfl, hd, hu, -⟩ := exists_of_makeDirs_cons h
    cases names with
    | nil => cases hfile
    | cons other rest =>
      obtain ⟨rfl, hrest⟩ := List.cons_prefix_cons.1 hprefix
      rw [look_dir_cons, if_neg (by simp [hd])] at hfile
      cases hentry : entries.lookup other with
      | none =>
        rw [hentry] at hfile
        cases hfile
      | some v =>
        rw [hentry] at hfile hu
        exact ih hu hfile hrest

/-- Making directories leaves the bytes of all files. -/
theorem bytes?_of_makeDirs {t t' : FileTree} {path names : List String}
    (h : t.makeDirs path = .ok t') : (t'.look names).bytes? = (t.look names).bytes? := by
  cases hold : t.look names with
  | file old => rw [look_of_makeDirs_file h hold]
  | nothing =>
    rw [look_of_makeDirs h, hold]
    split <;> rfl
  | directory =>
    rw [look_of_makeDirs h, hold]
    split <;> rfl

/-- The directories that lead to a file need not be made. -/
theorem look_of_makeDirs_isPrefix {t t' : FileTree} {path file : List String} {contents : Bytes}
    (h : t.makeDirs path = .ok t') (hpath : path <+: file) (hfile : t.look file = .file contents)
    (names : List String) : t'.look names = t.look names := by
  by_cases hmade : names <+: path
  · by_cases hnames : names = file
    · rw [hnames, look_of_makeDirs_file h hfile, hfile]
    · rw [look_of_makeDirs h, if_pos hmade, look_of_isPrefix hfile (hmade.trans hpath) hnames]
  · rw [look_of_makeDirs h, if_neg hmade]

/-! ## Files -/

/-- A change that is reported as done was done. -/
theorem eq_ok_of_commit {t t' : FileTree} {b : Except IoError Unit} {x : Except IoError FileTree}
    (h : (b, t') = t.commit x) (hb : ∀ e, b ≠ .error e) : b = .ok () ∧ x = .ok t' := by
  cases x with
  | error e => exact absurd (congrArg Prod.fst h) (hb e)
  | ok changed =>
    cases h
    exact ⟨rfl, rfl⟩

/-- **Reading a file** depends on what stands at its path. -/
theorem read_eq_ok {t : FileTree} {path : String} {contents : Bytes} :
    t.read path = .ok contents ↔
      ∃ names, names? path = .ok names ∧ wantsDirectory path = false ∧
        t.look names = .file contents := by
  rw [read, at?]
  cases hnames : names? path with
  | error e => simp [bind, Except.bind]
  | ok names =>
    cases hfind : t.find names with
    | error e => simp [bind, Except.bind, look, hfind]
    | ok u =>
      cases u with
      | dir entries => simp [bind, Except.bind, look, hfind]
      | file contents =>
        by_cases hwants : wantsDirectory path = true
        · simp [bind, Except.bind, look, hfind, hwants]
        · simp [bind, Except.bind, look, hfind, hwants]

/-- **Asking for a path** depends on what stands there. -/
theorem isOk_at? {t : FileTree} {path : String} :
    (t.at? path).isOk = true ↔
      ∃ names, names? path = .ok names ∧
        (t.look names = .directory ∨
          wantsDirectory path = false ∧ ∃ contents, t.look names = .file contents) := by
  rw [at?]
  cases hnames : names? path with
  | error e => simp [bind, Except.bind, Except.isOk, Except.toBool]
  | ok names =>
    cases hfind : t.find names with
    | error e => simp [bind, Except.bind, look, hfind, Except.isOk, Except.toBool]
    | ok u =>
      cases u with
      | dir entries => simp [bind, Except.bind, look, hfind, Except.isOk, Except.toBool]
      | file contents =>
        by_cases hwants : wantsDirectory path = true <;>
          simp [bind, Except.bind, look, hfind, hwants, Except.isOk, Except.toBool]

theorem isOk_at?_of_read {t : FileTree} {path : String} {contents : Bytes}
    (h : t.read path = .ok contents) :
    (t.at? path).isOk = true := by
  obtain ⟨names, hnames, hwants, hfile⟩ := read_eq_ok.1 h
  exact isOk_at?.2 ⟨names, hnames, .inr ⟨hwants, contents, hfile⟩⟩

/-- A file is read as before if the same stands at its path. -/
theorem read_congr {t t' : FileTree} {path : String} {contents : Bytes}
    (h : ∀ names, names? path = .ok names → t'.look names = t.look names) :
    t'.read path = .ok contents ↔ t.read path = .ok contents := by
  simp only [read_eq_ok]
  refine exists_congr fun names => and_congr_right fun hnames => ?_
  rw [h names hnames]

theorem isOk_at?_congr {t t' : FileTree} {path : String}
    (h : ∀ names, names? path = .ok names → t'.look names = t.look names) :
    (t'.at? path).isOk = (t.at? path).isOk := by
  rw [Bool.eq_iff_iff]
  simp only [isOk_at?]
  refine exists_congr fun names => and_congr_right fun hnames => ?_
  rw [h names hnames]

/-- A change that puts a file where no directory is changes what stands there, and nothing else. -/
theorem look_of_alter_file {change : Option FileTree → Except IoError (Option FileTree)}
    {contents : Bytes → Bytes} {t t' : FileTree} {path : List String}
    (hchange : ∀ before after, change before = .ok after → IsFree before ∧
      after = some (file (contents (lookIn before []).contents)))
    (h : t.alter change path = .ok t') (names : List String) :
    t'.look names =
      if names = path then .file (contents (t.look path).contents) else t.look names := by
  obtain ⟨before, after, hdone, hbefore, hafter, hbeside⟩ := look_of_alter h
  obtain ⟨hfree, rfl⟩ := hchange before after hdone
  have hold := hbefore []
  rw [List.append_nil] at hold
  by_cases hprefix : path <+: names
  · obtain ⟨rest, rfl⟩ := hprefix
    rw [hafter, hbefore]
    cases rest with
    | nil => simp [lookIn, hold]
    | cons x xs =>
      -- nothing stands below the entry, neither before nor afterwards
      cases before with
      | none => simp [lookIn]
      | some u =>
        cases u with
        | file old => simp [lookIn]
        | dir entries => exact absurd rfl (hfree entries)
  · rw [hbeside names hprefix, if_neg]
    rintro rfl
    exact hprefix (List.prefix_refl _)

/-- **Storing a file changes what stands at its path, and nothing else.** -/
theorem look_of_store {t t' : FileTree} {path : String} {contents : Bytes → Bytes}
    (h : t.store path contents = .ok t') :
    ∃ target, names? path = .ok target ∧ wantsDirectory path = false ∧
      ∀ names, t'.look names =
        if names = target then .file (contents (t.look target).contents) else t.look names := by
  obtain ⟨target, htarget, halter⟩ := bind_eq_ok.1 h
  have hwants : wantsDirectory path = false := by
    obtain ⟨before, after, hchange, -⟩ := look_of_alter halter
    rw [Bool.eq_false_iff]
    intro hwants
    simp only [hwants, if_true] at hchange
    split at hchange <;> cases hchange
  refine ⟨target, htarget, hwants, look_of_alter_file (fun before after hchange => ?_) halter⟩
  simp only [hwants, if_neg Bool.false_ne_true] at hchange
  split at hchange
  · cases hchange
    exact ⟨nofun, rfl⟩
  · cases hchange
  · cases hchange
    exact ⟨nofun, rfl⟩

/-- A file takes the place of another file, or stands where there was nothing. -/
theorem replaces_file_eq_ok {contents : Bytes} {before after : Option FileTree}
    (h : replaces (file contents) before = .ok after) :
    IsFree before ∧ after = some (file contents) := by
  cases before with
  | none => exact ⟨nofun, (Except.ok.inj h).symm⟩
  | some u =>
    cases u with
    | file old => exact ⟨nofun, (Except.ok.inj h).symm⟩
    | dir entries => cases h

/-- What a path leads to is the file that stands there. -/
theorem eq_file_of_at? {t u : FileTree} {path : String} {names : List String} {contents : Bytes}
    (hnames : names? path = .ok names) (hfile : t.look names = .file contents)
    (h : t.at? path = .ok u) : u = file contents := by
  rw [look] at hfile
  rw [at?, hnames] at h
  simp only [bind, Except.bind] at h
  split at hfile
  · rename_i hfind
    cases hfile
    rw [hfind] at h
    simp only at h
    split at h
    · cases h
    · exact (Except.ok.inj h).symm
  · cases hfile
  · cases hfile

/-- What it takes to rename a file: to leave it in its place, or to put it into another one and then
to take it away. -/
theorem exists_of_rename {t t' : FileTree} {source target : String} {origin : List String}
    {contents : Bytes} (h : t.rename source target = .ok t') (horigin : names? source = .ok origin)
    (hfile : t.look origin = .file contents) :
    ∃ goal, names? target = .ok goal ∧ wantsDirectory target = false ∧
      (origin = goal ∧ t' = t ∨ ¬origin <+: goal ∧
        ∃ u, t.alter (replaces (file contents)) goal = .ok u ∧
          u.alter (fun _ => .ok none) origin = .ok t') := by
  obtain ⟨origin', horigin', hrest⟩ := bind_eq_ok.1 h
  cases horigin.symm.trans horigin'
  obtain ⟨goal, hgoal, hrest⟩ := bind_eq_ok.1 hrest
  obtain ⟨moved, hmoved, hdone⟩ := bind_eq_ok.1 hrest
  obtain rfl := eq_file_of_at? horigin hfile hmoved
  have hplain : wantsDirectory target = false := by
    rw [Bool.eq_false_iff]
    intro hwants
    rw [if_pos (by simp [fitsAt, hwants])] at hdone
    cases hdone
  rw [if_neg (by simp [fitsAt, hplain])] at hdone
  refine ⟨goal, hgoal, hplain, ?_⟩
  by_cases hsame : origin = goal
  · rw [if_pos hsame] at hdone
    exact .inl ⟨hsame, (Except.ok.inj hdone).symm⟩
  · rw [if_neg hsame] at hdone
    by_cases hprefix : origin.isPrefixOf goal = true
    · rw [if_pos hprefix] at hdone
      cases hdone
    · rw [if_neg hprefix] at hdone
      obtain ⟨u, hplaced, hremoved⟩ := bind_eq_ok.1 hdone
      exact .inr ⟨by simpa using hprefix, u, hplaced, hremoved⟩

/-- **Renaming a file moves it**, and changes nothing else. -/
theorem look_of_rename {t t' : FileTree} {source target : String} {origin : List String}
    {contents : Bytes} (h : t.rename source target = .ok t') (horigin : names? source = .ok origin)
    (hfile : t.look origin = .file contents) :
    ∃ goal, names? target = .ok goal ∧ wantsDirectory target = false ∧
      ∀ names, t'.look names =
        if names = goal then .file contents
        else if names = origin then .nothing else t.look names := by
  obtain ⟨goal, hgoal, hplain, ⟨rfl, rfl⟩ | ⟨hapart, u, hplaced, hremoved⟩⟩ :=
    exists_of_rename h horigin hfile
  · refine ⟨origin, hgoal, hplain, fun names => ?_⟩
    by_cases hnames : names = origin
    · rw [if_pos hnames, hnames, hfile]
    · rw [if_neg hnames, if_neg hnames]
  · refine ⟨goal, hgoal, hplain, fun names => ?_⟩
    have hplace := @look_of_alter_file (replaces (file contents)) (fun _ => contents) t u goal
      (fun before after => replaces_file_eq_ok) hplaced
    obtain ⟨before, after, hnone, -, hafter, hbeside⟩ := look_of_alter hremoved
    obtain rfl : after = none := (Except.ok.inj hnone).symm
    -- nothing stands below a file, so that with it only its own name goes
    by_cases hbelow : origin <+: names
    · obtain ⟨rest, rfl⟩ := hbelow
      have hne : origin ++ rest ≠ goal := by
        rintro rfl
        exact hapart (List.prefix_append _ _)
      rw [hafter, if_neg hne]
      by_cases hrest : rest = []
      · simp [hrest, lookIn]
      · rw [if_neg (by simpa using hrest), look_append_of_file hfile hrest, lookIn]
    · have hnot : names ≠ origin := by
        rintro rfl
        exact hbelow (List.prefix_refl _)
      rw [hbeside names hbelow, hplace, if_neg hnot]

/-- **Removing a file leaves nothing in its place**, and changes nothing else. -/
theorem look_of_remove {t t' : FileTree} {path : String} (h : t.remove path = .ok t') :
    ∃ target contents, names? path = .ok target ∧ t.look target = .file contents ∧
      ∀ names, t'.look names = if names = target then .nothing else t.look names := by
  obtain ⟨target, htarget, halter⟩ := bind_eq_ok.1 h
  obtain ⟨before, after, hchange, hbefore, hafter, hbeside⟩ := look_of_alter halter
  obtain ⟨contents, rfl, rfl⟩ : ∃ contents, before = some (file contents) ∧ after = none := by
    split at hchange
    · split at hchange
      · cases hchange
      · exact ⟨_, rfl, (Except.ok.inj hchange).symm⟩
    · cases hchange
    · cases hchange
  have hfile : t.look target = .file contents := by simpa [lookIn] using hbefore []
  refine ⟨target, contents, htarget, hfile, fun names => ?_⟩
  by_cases hbelow : target <+: names
  · obtain ⟨rest, rfl⟩ := hbelow
    rw [hafter, lookIn]
    by_cases hrest : rest = []
    · rw [if_pos (by simp [hrest])]
    · rw [if_neg (by simpa using hrest), look_append_of_file hfile hrest]
  · rw [hbeside names hbelow, if_neg]
    rintro rfl
    exact hbelow (List.prefix_refl _)

end FileTree
end ProxyPlane
