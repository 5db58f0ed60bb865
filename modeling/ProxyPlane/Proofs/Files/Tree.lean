import ProxyPlane.Files.Tree
import ProxyPlane.Proofs.Dict
import ProxyPlane.Proofs.Outcome
import ProxyPlane.Proofs.Path

/-!
# Operations on the entries of a directory

What an operation on an entry answers, and how it leaves the directory, depends on the entries of
the directory alone.

## What is here

* `find_alter`: changing one entry changes the entries of its directory and nothing beside it.
* `find_makeDirs`: making a directory leaves one that exists as it is; `makeDirs_take` and
  `snd_afterMakeDirs`: it may be made in part, and then made again.
* `LeadsTo path dir name`: the path names an entry of a directory; `leadsTo_join` and
  `leadsTo_withFileName`.
* `read_eq`, `list_eq`, `answer_write`, `answer_rename` and `answer_remove`.
-/

set_option autoImplicit false
namespace ProxyPlane
namespace FileTree

/-! ## Finding and changing entries -/

/-- The entries of a directory with another one in the place of one of them, or without it. -/
def place (name : String) (entry : Option FileTree) (es : List (String × FileTree)) :
    List (String × FileTree) :=
  match entry with
  | some t => insertEntry name t es
  | none => es.filter fun e => e.1 != name

theorem lookup_place (name : String) (entry : Option FileTree) (es : List (String × FileTree))
    (j : String) : (place name entry es).lookup j = if j = name then entry else es.lookup j := by
  cases entry with
  | none => exact lookup_filter_ne name es j
  | some t => exact lookup_insertEntry name t es j

theorem find_cons {entries : List (String × FileTree)} {name : String}
    (hshort : isTooLong name = false) (rest : List String) :
    (dir entries).find (name :: rest) =
      match entries.lookup name with
      | none => .error .notFound
      | some t => t.find rest := by
  cases hentry : entries.lookup name with
  | none => simp only [find, hshort, Bool.false_eq_true, if_false, hentry]
  | some t => simp only [find, hshort, Bool.false_eq_true, if_false, hentry]

/-- What is found below a first name. -/
theorem exists_of_find_cons {t : FileTree} {name : String} {rest : List String} {u : FileTree}
    (h : t.find (name :: rest) = .ok u) :
    ∃ entries v, t = dir entries ∧ isTooLong name = false ∧ entries.lookup name = some v ∧
      v.find rest = .ok u := by
  cases t with
  | file contents => exact absurd h nofun
  | dir entries =>
    rw [find] at h
    split at h
    · exact absurd h nofun
    · rename_i hshort
      cases hv : entries.lookup name with
      | none =>
        rw [hv] at h
        exact absurd h nofun
      | some v =>
        rw [hv] at h
        exact ⟨entries, v, rfl, by simpa using hshort, hv, h⟩

theorem find_concat {t : FileTree} {path : List String} {es : List (String × FileTree)}
    (h : t.find path = .ok (dir es)) {name : String} (hshort : isTooLong name = false) :
    t.find (path ++ [name]) =
      match es.lookup name with
      | none => .error .notFound
      | some u => .ok u := by
  induction path generalizing t with
  | nil =>
    cases h
    rw [List.nil_append, find_cons hshort]
    rfl
  | cons d ds ih =>
    obtain ⟨entries, v, rfl, hd, hv, hfind⟩ := exists_of_find_cons h
    rw [List.cons_append, find_cons hd, hv]
    exact ih hfind

theorem find_append_error {t : FileTree} {path : List String} {e : IoError}
    (h : t.find path = .error e) (rest : List String) : t.find (path ++ rest) = .error e := by
  induction path generalizing t with
  | nil => exact absurd h nofun
  | cons d ds ih =>
    cases t with
    | file contents => exact h
    | dir entries =>
      rw [List.cons_append, find]
      rw [find] at h
      split
      · rename_i hlong
        rwa [if_pos hlong] at h
      · rename_i hshort
        rw [if_neg hshort] at h
        cases hv : entries.lookup d with
        | none =>
          rw [hv] at h
          exact h
        | some v =>
          rw [hv] at h
          exact ih h

/-- What is found below a path is found below what stands there. -/
theorem find_append (t : FileTree) (path rest : List String) :
    t.find (path ++ rest) = (t.find path).bind fun u => u.find rest := by
  cases hfind : t.find path with
  | error e => exact find_append_error hfind rest
  | ok u =>
    show t.find (path ++ rest) = u.find rest
    induction path generalizing t with
    | nil =>
      cases hfind
      rfl
    | cons d ds ih =>
      obtain ⟨entries, v, rfl, hd, hv, hfind⟩ := exists_of_find_cons hfind
      rw [List.cons_append, find_cons hd, hv]
      exact ih v hfind

section Changing

variable {change : Option FileTree → Except IoError (Option FileTree)}

/-- Changing an entry of a directory itself. -/
theorem alter_singleton {entries : List (String × FileTree)} {name : String}
    (hshort : isTooLong name = false) :
    (dir entries).alter change [name] =
      (change (entries.lookup name)).map fun entry => dir (place name entry entries) := by
  rw [alter, hshort, if_neg Bool.false_ne_true]
  cases change (entries.lookup name) with
  | error e => rfl
  | ok entry => cases entry <;> rfl

/-- Changing an entry further below changes the directory on the way to it. -/
theorem alter_cons {entries : List (String × FileTree)} {d : String} {v : FileTree}
    {rest : List String} (hd : isTooLong d = false) (hv : entries.lookup d = some v)
    (hrest : rest ≠ []) :
    (dir entries).alter change (d :: rest) =
      (v.alter change rest).map fun u => dir (place d (some u) entries) := by
  rw [alter, hd, if_neg Bool.false_ne_true, hv]
  · cases hrun : v.alter change rest with
    | error e => simp only [bind, Except.bind, hrun, Except.map]
    | ok u => simp only [bind, Except.bind, hrun, Except.map, pure, Except.pure, place]
  · exact hrest

/-- What it takes to change an entry of a directory itself. -/
theorem exists_of_alter_singleton {t t' : FileTree} {name : String}
    (h : t.alter change [name] = .ok t') :
    ∃ entries entry, t = dir entries ∧ isTooLong name = false ∧
      change (entries.lookup name) = .ok entry ∧ t' = dir (place name entry entries) := by
  cases t with
  | file contents => exact absurd h nofun
  | dir entries =>
    cases hlong : isTooLong name with
    | true =>
      rw [alter, if_pos hlong] at h
      exact absurd h nofun
    | false =>
      rw [alter_singleton hlong] at h
      obtain ⟨entry, hchange, hdone⟩ := map_eq_ok.1 h
      exact ⟨entries, entry, rfl, rfl, hchange, hdone.symm⟩

/-- What it takes to change an entry further below. -/
theorem exists_of_alter_cons {t t' : FileTree} {d : String} {rest : List String}
    (h : t.alter change (d :: rest) = .ok t') (hrest : rest ≠ []) :
    ∃ entries v v', t = dir entries ∧ isTooLong d = false ∧ entries.lookup d = some v ∧
      v.alter change rest = .ok v' ∧ t' = dir (place d (some v') entries) := by
  cases t with
  | file contents => exact absurd h nofun
  | dir entries =>
    rw [alter] at h
    · split at h
      · exact absurd h nofun
      · rename_i hshort
        cases hv : entries.lookup d with
        | none =>
          rw [hv] at h
          exact absurd h nofun
        | some v =>
          rw [hv] at h
          obtain ⟨v', hv', hdone⟩ := bind_eq_ok.1 h
          exact ⟨entries, v, v', rfl, by simpa using hshort, hv, hv', (Except.ok.inj hdone).symm⟩
    · exact hrest

/-- **Changing one entry changes the entries of its directory and nothing beside it.** -/
theorem find_alter {t : FileTree} {path : List String} {es : List (String × FileTree)}
    (h : t.find path = .ok (dir es)) {name : String} (hshort : isTooLong name = false)
    (change : Option FileTree → Except IoError (Option FileTree)) {entry : Option FileTree}
    (hchange : change (es.lookup name) = .ok entry) :
    ∃ t', t.alter change (path ++ [name]) = .ok t' ∧
      t'.find path = .ok (dir (place name entry es)) := by
  induction path generalizing t with
  | nil =>
    cases h
    refine ⟨dir (place name entry es), ?_, rfl⟩
    rw [List.nil_append, alter_singleton hshort, hchange]
    rfl
  | cons d ds ih =>
    obtain ⟨entries, v, rfl, hd, hv, hfind⟩ := exists_of_find_cons h
    obtain ⟨v', hv', hfind'⟩ := ih hfind
    refine ⟨dir (place d (some v') entries), ?_, ?_⟩
    · rw [List.cons_append, alter_cons hd hv (by simp), hv']
      rfl
    · rw [find_cons hd, lookup_place, if_pos rfl]
      exact hfind'

/-- A change that fails in a directory fails all the way to it. -/
theorem alter_append_error {t u : FileTree} {path rest : List String} {e : IoError}
    (h : t.find path = .ok u) (hrest : rest ≠ []) (herror : u.alter change rest = .error e) :
    t.alter change (path ++ rest) = .error e := by
  induction path generalizing t with
  | nil =>
    cases h
    exact herror
  | cons d ds ih =>
    obtain ⟨entries, v, rfl, hd, hv, hfind⟩ := exists_of_find_cons h
    rw [List.cons_append, alter_cons hd hv (List.append_ne_nil_of_right_ne_nil ds hrest), ih hfind]
    rfl

theorem alter_eq_error {t : FileTree} {path : List String} {es : List (String × FileTree)}
    (h : t.find path = .ok (dir es)) {name : String} (hshort : isTooLong name = false)
    {e : IoError} (hchange : change (es.lookup name) = .error e) :
    t.alter change (path ++ [name]) = .error e := by
  refine alter_append_error h (List.cons_ne_nil name []) ?_
  rw [alter_singleton hshort, hchange]
  rfl

theorem alter_of_isTooLong {t : FileTree} {path : List String} {es : List (String × FileTree)}
    (h : t.find path = .ok (dir es)) {name : String} (hlong : isTooLong name = true)
    (change : Option FileTree → Except IoError (Option FileTree)) :
    t.alter change (path ++ [name]) = .error .invalidName := by
  refine alter_append_error h (List.cons_ne_nil name []) ?_
  rw [alter, if_pos hlong]

/-- What it takes to change one entry. -/
theorem exists_of_alter {t t' : FileTree} {path : List String} {es : List (String × FileTree)}
    (h : t.find path = .ok (dir es)) {name : String}
    (halter : t.alter change (path ++ [name]) = .ok t') :
    ∃ entry, change (es.lookup name) = .ok entry ∧
      t'.find path = .ok (dir (place name entry es)) := by
  cases hlong : isTooLong name with
  | true =>
    rw [alter_of_isTooLong h hlong] at halter
    exact absurd halter nofun
  | false =>
    cases hchange : change (es.lookup name) with
    | error e =>
      rw [alter_eq_error h hlong hchange] at halter
      exact absurd halter nofun
    | ok entry =>
      obtain ⟨u, hu, hfind⟩ := find_alter h hlong change hchange
      cases hu.symm.trans halter
      exact ⟨entry, rfl, hfind⟩

end Changing

/-! ## Making directories -/

/-- Making directories below an entry that may be missing. -/
theorem makeDirs_cons {entries : List (String × FileTree)} {d : String}
    (hd : isTooLong d = false) (rest : List String) :
    (dir entries).makeDirs (d :: rest) =
      (((entries.lookup d).getD empty).makeDirs rest).map fun u =>
        dir (place d (some u) entries) := by
  rw [makeDirs, hd, if_neg Bool.false_ne_true]
  cases ((entries.lookup d).getD empty).makeDirs rest <;> rfl

/-- What it takes to make directories. -/
theorem exists_of_makeDirs_cons {t t' : FileTree} {d : String} {rest : List String}
    (h : t.makeDirs (d :: rest) = .ok t') :
    ∃ entries u, t = dir entries ∧ isTooLong d = false ∧
      ((entries.lookup d).getD empty).makeDirs rest = .ok u ∧
      t' = dir (place d (some u) entries) := by
  cases t with
  | file contents => exact absurd h nofun
  | dir entries =>
    rw [makeDirs] at h
    split at h
    · exact absurd h nofun
    · rename_i hshort
      obtain ⟨u, hu, hdone⟩ := bind_eq_ok.1 h
      exact ⟨entries, u, rfl, by simpa using hshort, hu, (Except.ok.inj hdone).symm⟩

/-- **Making a directory leaves one that exists as it is, and any other is empty.** -/
theorem find_makeDirs {t t' : FileTree} {path : List String} (h : t.makeDirs path = .ok t') :
    ∃ es, t'.find path = .ok (dir es) ∧
      (t.find path = .ok (dir es) ∨ t.find path = .error .notFound ∧ es = []) := by
  induction path generalizing t t' with
  | nil =>
    cases t with
    | file contents => exact absurd h nofun
    | dir entries =>
      cases h
      exact ⟨entries, rfl, .inl rfl⟩
  | cons d ds ih =>
    obtain ⟨entries, u, rfl, hd, hu, rfl⟩ := exists_of_makeDirs_cons h
    obtain ⟨es, hes, hbefore⟩ := ih hu
    refine ⟨es, ?_, ?_⟩
    · rw [find_cons hd, lookup_place, if_pos rfl]
      exact hes
    · rw [find_cons hd]
      cases hv : entries.lookup d with
      | some v =>
        rw [hv, Option.getD_some] at hbefore
        exact hbefore
      | none =>
        rw [hv, Option.getD_none] at hbefore
        refine .inr ⟨rfl, ?_⟩
        -- a directory that was missing is made empty, and nothing is found in that
        rcases hbefore with hfound | ⟨-, hnil⟩
        · cases ds with
          | nil =>
            cases hfound
            rfl
          | cons x xs =>
            obtain ⟨entries', v, hempty, -, hlookup, -⟩ := exists_of_find_cons hfound
            cases hempty
            exact absurd hlookup nofun
        · exact hnil

/-- **Where some of the directories are made**, the same is found as before, or an empty directory
where there was none, or a name further down is too long. -/
theorem find_of_makeDirs_take {t t' : FileTree} {names : List String} {k : Nat}
    (h : t.makeDirs (names.take k) = .ok t') :
    t'.find names = t.find names ∨ t.find names = .error .notFound ∧
      (t'.find names = .ok (dir []) ∨
        (∃ n ∈ names, isTooLong n = true) ∧ t'.find names = .error .invalidName) := by
  obtain ⟨es, hafter, hbefore⟩ := find_makeDirs h
  have hsplit : names.take k ++ names.drop k = names := List.take_append_drop k names
  rw [← hsplit, find_append, find_append, hafter]
  rcases hbefore with hbefore | ⟨hbefore, rfl⟩
  · rw [hbefore]
    exact .inl rfl
  · rw [hbefore]
    cases hrest : names.drop k with
    | nil => exact .inr ⟨rfl, .inl rfl⟩
    | cons n rest =>
      show (dir []).find (n :: rest) = _ ∨ _ ∧ ((dir []).find (n :: rest) = _ ∨
        _ ∧ (dir []).find (n :: rest) = _)
      cases hlong : isTooLong n with
      | true =>
        refine .inr ⟨rfl, .inr ⟨⟨n, ?_, hlong⟩, by rw [find, if_pos hlong]⟩⟩
        exact List.mem_append_right _ List.mem_cons_self
      | false => exact .inl (find_cons hlong rest)

theorem makeDirs_of_find {t : FileTree} {path : List String} {es : List (String × FileTree)}
    (h : t.find path = .ok (dir es)) : ∃ t', t.makeDirs path = .ok t' := by
  induction path generalizing t with
  | nil =>
    cases h
    exact ⟨_, rfl⟩
  | cons d ds ih =>
    obtain ⟨entries, v, rfl, hd, hv, hfind⟩ := exists_of_find_cons h
    obtain ⟨v', hv'⟩ := ih hfind
    refine ⟨dir (place d (some v') entries), ?_⟩
    rw [makeDirs_cons hd, hv, Option.getD_some, hv']
    rfl

/-- **Making directories can be taken up again**: whatever part of them is already there, all of
them come out the same. -/
theorem makeDirs_take {t t' : FileTree} {path : List String} {k : Nat}
    (h : t.makeDirs (path.take k) = .ok t') : t'.makeDirs path = t.makeDirs path := by
  induction path generalizing t t' k with
  | nil =>
    rw [List.take_nil] at h
    cases t with
    | file contents => exact absurd h nofun
    | dir entries =>
      cases h
      rfl
  | cons d ds ih =>
    cases k with
    | zero =>
      cases t with
      | file contents => exact absurd h nofun
      | dir entries =>
        cases h
        rfl
    | succ k =>
      rw [List.take_succ_cons] at h
      obtain ⟨entries, u, rfl, hd, hu, rfl⟩ := exists_of_makeDirs_cons h
      rw [makeDirs_cons hd, makeDirs_cons hd, lookup_place, if_pos rfl, Option.getD_some, ih hu]
      simp only [place, insertEntry_insertEntry]

/-- The names of directories that can be made are not too long. -/
theorem short_of_makeDirs {t t' : FileTree} {path : List String} (h : t.makeDirs path = .ok t') :
    ∀ n ∈ path, isTooLong n = false := by
  induction path generalizing t t' with
  | nil => exact List.forall_mem_nil _
  | cons d ds ih =>
    obtain ⟨entries, u, rfl, hd, hu, rfl⟩ := exists_of_makeDirs_cons h
    exact List.forall_mem_cons.2 ⟨hd, ih hu⟩

theorem afterMakeDirs_of_ok {t t' : FileTree} {path : List String}
    (h : t.makeDirs path = .ok t') : t.afterMakeDirs path = (.ok (), t') := by
  rw [afterMakeDirs, h]

/-- It is told whether all directories are made. -/
theorem fst_afterMakeDirs (t : FileTree) (path : List String) :
    (t.afterMakeDirs path).1 = (t.makeDirs path).map fun _ => () := by
  rw [afterMakeDirs]
  cases t.makeDirs path with
  | ok made => rfl
  | error e => cases t.makeDirs (path.takeWhile fun n => !isTooLong n) <;> rfl

/-- **Directories are made in their order**: nothing changes, or the first of them are made. -/
theorem snd_afterMakeDirs (t : FileTree) (path : List String) :
    (t.afterMakeDirs path).2 = t ∨
      ∃ k, t.makeDirs (path.take k) = .ok (t.afterMakeDirs path).2 := by
  rw [afterMakeDirs]
  cases hall : t.makeDirs path with
  | ok made => exact .inr ⟨path.length, by rw [List.take_length, hall]⟩
  | error e =>
    have htake :=
      List.prefix_iff_eq_take.1 (List.takeWhile_prefix (l := path) fun n => !isTooLong n)
    cases hsome : t.makeDirs (path.takeWhile fun n => !isTooLong n) with
    | ok made => exact .inr ⟨_, htake ▸ hsome⟩
    | error e' => exact .inl rfl

/-! ## Paths of entries -/

/-- The path names an entry of a directory. -/
structure LeadsTo (path : String) (parent : List String) (name : String) : Prop where
  names : names? path = .ok (parent ++ [name])
  plain : wantsDirectory path = false
  short : isTooLong name = false

theorem names?_eq {path : String} (hne : path ≠ "") (hnul : Char.ofNat 0 ∉ path.toList) :
    names? path = .ok (Path.segments path) := by
  rw [names?, if_neg (by simpa using hne), if_neg (by simpa using hnul)]

theorem segments_of_names? {path : String} {names : List String}
    (h : names? path = .ok names) : names = Path.segments path := by
  rw [names?] at h
  split at h
  · cases h
  · split at h
    · cases h
    · exact (Except.ok.inj h).symm

/-- A path that can name a file ends in a name. -/
theorem exists_fileName?_of_plain {path : String} (h : wantsDirectory path = false) :
    ∃ name, Path.fileName? path = some name := by
  rw [wantsDirectory] at h
  cases hlast : (pieces '/' path.toList).getLast? with
  | none => exact absurd (List.getLast?_eq_none_iff.1 hlast) (pieces_ne_nil _ _)
  | some n =>
    rw [hlast] at h
    simp only [Bool.or_eq_false_iff, beq_eq_false_iff_ne] at h
    obtain ⟨⟨hempty, hdot⟩, hdots⟩ := h
    obtain ⟨before, hpieces⟩ := List.getLast?_eq_some_iff.1 hlast
    have hcounts : Path.counts n = true := by simp [Path.counts, hempty, hdot]
    have hfilter := Path.filter_parts path.toList
    rw [Path.follow, hpieces, List.filter_append, List.filter_cons_of_pos hcounts] at hfilter
    rcases List.eq_nil_or_concat (Path.parts path.toList).2 with hnil | ⟨ns, l, hns⟩
    · rw [hnil] at hfilter
      exact absurd hfilter (by simp)
    · rw [List.concat_eq_append] at hns
      rw [hns, List.filter_append, List.filter_cons_of_pos (Path.counts_of_parts hns)] at hfilter
      obtain rfl : l = n := by simpa using (List.append_inj' hfilter rfl).2
      refine ⟨String.ofList l, ?_⟩
      rw [Path.fileName?, hns, List.getLast?_concat]
      simp [hdots]

/-- The names that lead to an entry below a directory. -/
theorem names?_join {base name : String} (h : Path.IsName name)
    (hbase : Char.ofNat 0 ∉ base.toList) :
    names? (Path.join base name) = .ok (Path.segments base ++ [name]) := by
  rw [names?_eq (Path.join_ne_empty base h) (Path.nul_not_mem_join h hbase),
    Path.segments_join base h]

theorem wantsDirectory_join (base : String) {name : String} (h : Path.IsName name) :
    wantsDirectory (Path.join base name) = false := by
  have hlast : (pieces '/' (Path.join base name).toList).getLast? = some name.toList := by
    rcases Path.toList_join base h with ⟨-, hlist⟩ | ⟨before, hlist, -, -⟩
    · rw [hlist, h.pieces_eq]
      rfl
    · rw [hlist, pieces_append, h.pieces_eq, List.getLast?_concat]
  have hcounts := h.counts
  simp only [Path.counts, Bool.and_eq_true, bne_iff_ne, ne_eq] at hcounts
  simp [wantsDirectory, hlast, hcounts.1, hcounts.2, h.notParent]

/-- A name below a directory leads to the entry of that name. -/
theorem leadsTo_join {base name : String} (h : Path.IsName name)
    (hbase : Char.ofNat 0 ∉ base.toList) (hshort : isTooLong name = false) :
    LeadsTo (Path.join base name) (Path.segments base) name where
  names := names?_join h hbase
  plain := wantsDirectory_join base h
  short := hshort

/-- Another name in its place leads to the entry beside it. -/
theorem leadsTo_withFileName {base name other : String} (h : Path.IsName name)
    (hbase : Char.ofNat 0 ∉ base.toList) (hother : Path.IsName other)
    (hshort : isTooLong other = false) :
    LeadsTo (Path.withFileName (Path.join base name) other) (Path.segments base) other where
  names := by
    obtain ⟨d, hd, hnul⟩ := Path.exists_join_of_withFileName base other h hbase
    have hsegments := Path.segments_withFileName_join base h hother
    rw [hd] at hsegments ⊢
    rw [names?_eq (Path.join_ne_empty d hother) (Path.nul_not_mem_join hother hnul), hsegments]
  plain := by
    obtain ⟨d, hd, -⟩ := Path.exists_join_of_withFileName base other h hbase
    rw [hd]
    exact wantsDirectory_join d hother
  short := hshort

/-! ## Operations -/

section Operations

variable {t : FileTree} {parent : List String} {es : List (String × FileTree)}

/-- **Reading a file of a directory.** -/
theorem read_eq {path name : String} (hpath : LeadsTo path parent name)
    (h : t.find parent = .ok (dir es)) :
    t.read path =
      match es.lookup name with
      | none => .error .notFound
      | some (file contents) => .ok contents
      | some (dir _) => .error .isADirectory := by
  rw [read, at?, hpath.names]
  simp only [bind, Except.bind, find_concat h hpath.short]
  cases es.lookup name with
  | none => rfl
  | some u =>
    cases u with
    | file contents =>
      simp only [hpath.plain, if_neg Bool.false_ne_true]
    | dir entries => rfl

/-- Nothing is read below a directory that is not there. -/
theorem read_of_find_error {path name : String} (hpath : LeadsTo path parent name) {e : IoError}
    (h : t.find parent = .error e) : t.read path = .error e := by
  rw [read, at?, hpath.names]
  simp only [bind, Except.bind, find_append_error h]

/-- **The names in a directory.** -/
theorem list_eq {path : String} (hnames : names? path = .ok parent)
    (h : t.find parent = .ok (dir es)) : t.list path = .ok (es.map (·.1)) := by
  rw [list, at?, hnames]
  simp only [bind, Except.bind, h]

/-- Nothing is listed that is not there. -/
theorem list_of_find_error {path : String} (hnames : names? path = .ok parent) {e : IoError}
    (h : t.find parent = .error e) : t.list path = .error e := by
  rw [list, at?, hnames]
  simp only [bind, Except.bind, h]

/-- Nothing stands in the way of a file. -/
def IsFree (entry : Option FileTree) : Prop := ∀ entries, entry ≠ some (dir entries)

theorem commit_alter (h : t.find parent = .ok (dir es)) {name : String}
    (hshort : isTooLong name = false)
    {change : Option FileTree → Except IoError (Option FileTree)} {entry : Option FileTree}
    (hchange : change (es.lookup name) = .ok entry) :
    ∃ t', t.commit (t.alter change (parent ++ [name])) = (.ok (), t') ∧
      t'.find parent = .ok (dir (place name entry es)) := by
  obtain ⟨t', ht', hfind⟩ := find_alter h hshort change hchange
  exact ⟨t', by rw [ht']; rfl, hfind⟩

theorem commit_alter_error (h : t.find parent = .ok (dir es)) {name : String}
    (hshort : isTooLong name = false)
    {change : Option FileTree → Except IoError (Option FileTree)} {e : IoError}
    (hchange : change (es.lookup name) = .error e) :
    t.commit (t.alter change (parent ++ [name])) = (.error e, t) := by
  rw [alter_eq_error h hshort hchange]
  rfl

/-- **Writing a file of a directory.** -/
theorem answer_write {path name : String} (hpath : LeadsTo path parent name)
    (h : t.find parent = .ok (dir es)) (hfree : IsFree (es.lookup name)) (contents : Bytes) :
    ∃ t', answer (.write path contents) t = (.ok (), t') ∧
      t'.find parent = .ok (dir (place name (some (file contents)) es)) := by
  rw [answer, store, hpath.names]
  refine commit_alter h hpath.short ?_
  rw [hpath.plain]
  cases hentry : es.lookup name with
  | none => rfl
  | some u =>
    cases u with
    | file old => rfl
    | dir entries => exact absurd hentry (hfree entries)

/-- A directory of that name stands in the way of a file. -/
theorem answer_write_error {path name : String} (hpath : LeadsTo path parent name)
    (h : t.find parent = .ok (dir es)) {entries : List (String × FileTree)}
    (hentry : es.lookup name = some (dir entries)) (contents : Bytes) :
    answer (.write path contents) t = (.error .isADirectory, t) := by
  rw [answer, store, hpath.names]
  refine commit_alter_error h hpath.short ?_
  rw [hentry]

/-- **Putting a file in the place of another of the same directory.** -/
theorem answer_rename {source target name other : String} (hsource : LeadsTo source parent name)
    (htarget : LeadsTo target parent other) (hne : name ≠ other)
    (h : t.find parent = .ok (dir es)) {contents : Bytes}
    (hentry : es.lookup name = some (file contents)) (hfree : IsFree (es.lookup other)) :
    ∃ t', answer (.rename source target) t = (.ok (), t') ∧
      t'.find parent = .ok (dir (place name none (place other (some (file contents)) es))) := by
  have hmoved : t.at? source = .ok (file contents) := by
    rw [at?, hsource.names]
    simp only [bind, Except.bind, find_concat h hsource.short, hentry, hsource.plain,
      if_neg Bool.false_ne_true]
  obtain ⟨u, hu, hufind⟩ := find_alter h htarget.short (replaces (file contents))
    (show replaces (file contents) (es.lookup other) = .ok (some (file contents)) by
      cases hother : es.lookup other with
      | none => rfl
      | some v =>
        cases v with
        | file old => rfl
        | dir entries => exact absurd hother (hfree entries))
  obtain ⟨t', ht', hfind⟩ := find_alter hufind hsource.short (fun _ => .ok none) rfl
  refine ⟨t', ?_, hfind⟩
  -- neither path is on the way to the other, so that the renaming is not refused
  have hsegments : parent ++ [name] ≠ parent ++ [other] := fun heq => hne (by simpa using heq)
  have hhead : (parent ++ [name]).isPrefixOf (parent ++ [other]) = false := by
    rw [Bool.eq_false_iff]
    intro hpre
    exact hsegments ((List.isPrefixOf_iff_prefix.1 hpre).eq_of_length (by simp))
  have hfits : (file contents).fitsAt target = true := by simp [fitsAt, htarget.plain]
  rw [answer, rename, hsource.names, htarget.names]
  simp only [bind, Except.bind, hmoved, hfits, Bool.not_true, if_neg hsegments, hhead,
    if_neg Bool.false_ne_true, hu, ht']
  rfl

/-- **Making directories** succeeds if they can be made. -/
theorem answer_makeDirs {path : String} {t' : FileTree} (hnames : names? path = .ok parent)
    (h : t.makeDirs parent = .ok t') : answer (.makeDirs path) t = (.ok (), t') := by
  have hne : ¬path.isEmpty = true := by
    intro hempty
    rw [names?, if_pos hempty] at hnames
    exact absurd hnames nofun
  rw [answer, if_neg hne, hnames]
  exact afterMakeDirs_of_ok h

/-- Making directories succeeds only if they are made. -/
theorem exists_of_answer_makeDirs {path : String} (hne : path ≠ "") {t' : FileTree}
    (h : answer (.makeDirs path) t = (.ok (), t')) :
    ∃ names, names? path = .ok names ∧ t.makeDirs names = .ok t' := by
  rw [answer, if_neg (by simpa using hne)] at h
  cases hnames : names? path with
  | error e =>
    rw [hnames] at h
    cases h
  | ok names =>
    rw [hnames] at h
    have hresult := fst_afterMakeDirs t names
    rw [show t.afterMakeDirs names = (.ok (), t') from h] at hresult
    obtain ⟨made, hmade, -⟩ := map_eq_ok.1 hresult.symm
    cases (afterMakeDirs_of_ok hmade).symm.trans h
    exact ⟨names, rfl, hmade⟩

/-- Making directories changes nothing, or the first of them are made. -/
theorem tree_of_answer_makeDirs {path : String} {b : Except IoError Unit} {t' : FileTree}
    (h : (b, t') = answer (.makeDirs path) t) :
    t' = t ∨ ∃ names k, names? path = .ok names ∧ t.makeDirs (names.take k) = .ok t' := by
  obtain rfl := congrArg Prod.snd h
  rw [answer]
  split
  · exact .inl rfl
  · cases names? path with
    | error e => exact .inl rfl
    | ok names =>
      rcases t.snd_afterMakeDirs names with hsame | ⟨k, hmade⟩
      · exact .inl hsame
      · exact .inr ⟨names, k, rfl, hmade⟩

/-- **Removing a file of a directory.** -/
theorem answer_remove {path name : String} (hpath : LeadsTo path parent name)
    (h : t.find parent = .ok (dir es)) {contents : Bytes}
    (hentry : es.lookup name = some (file contents)) :
    ∃ t', answer (.remove path) t = (.ok (), t') ∧
      t'.find parent = .ok (dir (place name none es)) := by
  rw [answer, remove, hpath.names]
  refine commit_alter h hpath.short ?_
  rw [hentry, hpath.plain]
  rfl

/-- A file that is not removed leaves the tree as it is. -/
theorem answer_remove_cases {path name : String} (hnames : names? path = .ok (parent ++ [name]))
    (h : t.find parent = .ok (dir es)) :
    (∃ t', answer (.remove path) t = (.ok (), t') ∧
      t'.find parent = .ok (dir (place name none es))) ∨
    ∃ e, answer (.remove path) t = (.error e, t) := by
  cases hremove : t.remove path with
  | error e => exact .inr ⟨e, by rw [answer, hremove]; rfl⟩
  | ok t' =>
    refine .inl ⟨t', by rw [answer, hremove]; rfl, ?_⟩
    rw [remove, hnames] at hremove
    obtain ⟨entry, hchange, hfind⟩ := exists_of_alter h hremove
    have hentry : entry = none := by
      split at hchange
      · split at hchange
        · exact absurd hchange nofun
        · cases hchange
          rfl
      · exact absurd hchange nofun
      · exact absurd hchange nofun
    exact hentry ▸ hfind

end Operations

end FileTree
end ProxyPlane
