import ProxyPlane.Proofs.Snapshot.Listing

/-!
# Keeping and marking a snapshot

A snapshot is kept, or the same is read as before.  It matters for this that the directory may be
made in part: a name on its path may be too long, and the directories before it are made all the
same.

## What is here

* `ReadsAlike`: the same is read from two trees; `readsAlike_of_entries`.
* `MadeInPart`, what is read where a name on the path is too long; `readsAlike_or_madeInPart`.
* `on_save_ok`, and `on_save_cases` for any tree: a snapshot that cannot be kept changes nothing
  that is read, or the directory is made in part.
* `Keeps`, what is known once a snapshot was kept, and what is read afterwards.
* `on_markGood`, and what the marker says after it.
-/

set_option autoImplicit false
namespace ProxyPlane
namespace SnapshotDir

open SnapshotProgram

variable {s : SnapshotDir} {t t' : FileTree} {es : Entries}

/-! ## Reading the same as before -/

/-- The same is read from two trees: the list of snapshots, the marker, and each document. -/
structure ReadsAlike (s : SnapshotDir) (t t' : FileTree) : Prop where
  list : (s.list.on t').1 = (s.list.on t).1
  lastGood : (s.lastGood.on t').1 = (s.lastGood.on t).1
  load : ∀ n, n < Nat.pow 2 64 → ((s.load n).on t').1 = ((s.load n).on t).1

theorem ReadsAlike.refl (s : SnapshotDir) (t : FileTree) : s.ReadsAlike t t :=
  ⟨rfl, rfl, fun _ _ => rfl⟩

theorem snapshotsIn_eq (s : SnapshotDir) (es : Entries) :
    s.snapshotsIn es =
      ((listedNames es).filterMap s.snapshotOf?).mergeSort fun a b => a.seq ≤ b.seq := by
  rw [snapshotsIn, ofNames, listedNames, List.filterMap_filter]
  refine congrArg (List.mergeSort · _) (List.filterMap_congr fun name _ => ?_)
  rw [snapshotOf?]
  cases parseName? name <;> rfl

/-- What is read depends on the names that are listed, the marker and the files of numbers alone. -/
theorem readsAlike_of_entries {es' : Entries} (hs : s.IsProper) (h : s.HoldsOrAbsent t es)
    (h' : s.HoldsOrAbsent t' es') (hlisted : listedNames es' = listedNames es)
    (hmarker : es'.lookup markerName = es.lookup markerName)
    (hfiles : ∀ n, es'.lookup (fileName n) = es.lookup (fileName n)) : s.ReadsAlike t t' where
  list := by rw [on_list hs h, on_list hs h', snapshotsIn_eq, snapshotsIn_eq, hlisted]
  lastGood := by rw [on_lastGood hs h, on_lastGood hs h', markerOf, markerOf, hmarker]
  load n hn := by
    rw [on_load hs h (Nat.le_of_lt hn), on_load hs h' (Nat.le_of_lt hn), documentOf, documentOf,
      hfiles]

/-- What is read depends on what stands at the path of the directory alone. -/
theorem readsAlike_of_find_eq (hs : s.IsProper)
    (h : t'.find (Path.segments s.dir) = t.find (Path.segments s.dir)) : s.ReadsAlike t t' := by
  have hlist : t'.list s.dir = t.list s.dir := by
    rw [FileTree.list, FileTree.list, FileTree.at?, FileTree.at?, hs.names]
    simp only [bind, Except.bind, h]
  have hread : ∀ {path name : String}, FileTree.LeadsTo path (Path.segments s.dir) name →
      t'.read path = t.read path := by
    intro path name hpath
    rw [FileTree.read, FileTree.read, FileTree.at?, FileTree.at?, hpath.names]
    simp only [bind, Except.bind, FileTree.find_append, h]
  exact
    { list := on_congr (.list s.dir) rfl hlist
      lastGood := on_congr (.read s.markerPath) rfl (hread hs.leadsTo_marker)
      load := fun n hn => on_congr (.read (s.pathFor n)) rfl
        (hread (hs.leadsTo_pathFor (Nat.le_of_lt hn))) }

/-- A name on the path of the directory is too long, so that there is no directory.  Those before it
were made, and where nothing was there before, it is this name that cannot be followed now. -/
structure MadeInPart (s : SnapshotDir) (t t' : FileTree) : Prop where
  long : ∃ n ∈ Path.segments s.dir, FileTree.isTooLong n = true
  list : (s.list.on t).1 = .ok [] ∧ (s.list.on t').1 = .error (.io s.dir .invalidName)
  lastGood : (s.lastGood.on t).1 = .ok none ∧
    (s.lastGood.on t').1 = .error (.io s.markerPath .invalidName)
  load : ∀ n, n < Nat.pow 2 64 → ((s.load n).on t).1 = .error (.notFound n) ∧
    ((s.load n).on t').1 = .error (.io (s.pathFor n) .invalidName)

theorem madeInPart_of_find (hs : s.IsProper)
    (hlong : ∃ n ∈ Path.segments s.dir, FileTree.isTooLong n = true)
    (h : t.find (Path.segments s.dir) = .error .notFound)
    (h' : t'.find (Path.segments s.dir) = .error .invalidName) : s.MadeInPart t t' where
  long := hlong
  list := by
    have hanswer := on_of_step (p := s.list) (.list s.dir) rfl
    rw [hanswer, hanswer, FileTree.answer, FileTree.answer, FileTree.list_of_find_error hs.names h,
      FileTree.list_of_find_error hs.names h']
    exact ⟨rfl, rfl⟩
  lastGood := by
    have hanswer := on_of_step (p := s.lastGood) (.read s.markerPath) rfl
    rw [hanswer, hanswer, FileTree.answer, FileTree.answer,
      FileTree.read_of_find_error hs.leadsTo_marker h,
      FileTree.read_of_find_error hs.leadsTo_marker h']
    exact ⟨rfl, rfl⟩
  load n hn := by
    have hpath := hs.leadsTo_pathFor (Nat.le_of_lt hn)
    have hanswer := on_of_step (p := s.load n) (.read (s.pathFor n)) rfl
    rw [hanswer, hanswer, FileTree.answer, FileTree.answer, FileTree.read_of_find_error hpath h,
      FileTree.read_of_find_error hpath h']
    exact ⟨rfl, rfl⟩

/-- **However much of the directory is made**, the same is read as before, unless a name on its path
is too long. -/
theorem readsAlike_or_madeInPart (h : t' = t ∨ ∃ names k, FileTree.names? s.dir = .ok names ∧
    t.makeDirs (names.take k) = .ok t') : s.ReadsAlike t t' ∨ s.MadeInPart t t' := by
  rcases h with rfl | ⟨names, k, hnames, hmade⟩
  · exact .inl (.refl s t')
  have hs : s.IsProper := isProper_of_names? hnames
  cases hs.names.symm.trans hnames
  rcases FileTree.find_of_makeDirs_take hmade with hsame | ⟨hbefore, hafter | ⟨hlong, hafter⟩⟩
  · exact .inl (readsAlike_of_find_eq hs hsame)
  · have habsent : s.HoldsOrAbsent t [] := .inr ⟨hbefore, rfl⟩
    exact .inl (readsAlike_of_entries hs habsent (.inl hafter) rfl rfl fun _ => rfl)
  · exact .inr (madeInPart_of_find hs hlong hbefore hafter)

/-! ## Keeping -/

/-- The directory can be made. -/
def CanMake (s : SnapshotDir) (t : FileTree) : Prop :=
  ∃ t', t.makeDirs (Path.segments s.dir) = .ok t'

theorem Holds.canMake (h : s.Holds t es) : s.CanMake t := FileTree.makeDirs_of_find h

/-- No name is too long on the path of a directory that can be made. -/
theorem CanMake.not_madeInPart (h : s.CanMake t) : ¬s.MadeInPart t t' := by
  obtain ⟨u, hu⟩ := h
  rintro ⟨⟨n, hn, hlong⟩, -⟩
  rw [FileTree.short_of_makeDirs hu n hn] at hlong
  exact Bool.false_ne_true hlong

theorem on_makeDirs (hs : s.IsProper) (h : s.HoldsOrAbsent t es) (hmake : s.CanMake t) :
    ∃ t', (orFail s.dir (Files.makeDirs s.dir)).on t = (.ok (), t') ∧ s.Holds t' es := by
  obtain ⟨t', ht'⟩ := hmake
  refine ⟨t', on_orFail_ok (FileTree.answer_makeDirs hs.names ht'), ?_⟩
  · obtain ⟨es', hfind, hbefore⟩ := FileTree.find_makeDirs ht'
    have heq : es' = es := by
      rcases h with h | ⟨h, rfl⟩
      · rcases hbefore with hb | ⟨hb, -⟩
        · exact Holds.unique hb h
        · cases hb.symm.trans h
      · rcases hbefore with hb | ⟨-, hnil⟩
        · cases hb.symm.trans h
        · exact hnil
    exact heq ▸ hfind

/-- **A snapshot is kept** unless the marker is unreadable or something stands in the way. -/
theorem on_save_ok (hs : s.IsProper) (h : s.HoldsOrAbsent t es) (hmake : s.CanMake t)
    {marker : Option Nat} (hmarker : s.markerOf es = .ok marker)
    (hlimit : nextIn es marker ≤ Nat.pow 2 64)
    (hfree : CanReplace (fileName (nextIn es marker)) es) (d : Document) :
    ∃ t', (s.save d).on t =
        (.ok ⟨nextIn es marker, s.pathFor (nextIn es marker)⟩, t') ∧
      s.Holds t' (replaceFile (fileName (nextIn es marker)) d.pretty es) := by
  obtain ⟨t₁, hmade, h₁⟩ := on_makeDirs hs h hmake
  obtain ⟨t₂, hwrite, h₂⟩ :=
    on_writeAtomic hs h₁ (isName_fileName _) (length_fileName_le hlimit) hfree d.pretty
  refine ⟨t₂, ?_, h₂⟩
  rw [save, on_bind_ok hmade, on_bind_ok (on_list hs h₁.orAbsent),
    on_bind_ok ((on_lastGood hs h₁.orAbsent).trans (by rw [hmarker]))]
  simp only [nextSeq_eq]
  rw [pathFor, on_bind_ok hwrite, on_pure]

/-- Nothing is kept below a path that cannot be made. -/
theorem on_save_of_makeDirs {e : SnapshotError} {t' : FileTree}
    (h : (orFail s.dir (Files.makeDirs s.dir)).on t = (.error e, t')) (d : Document) :
    (s.save d).on t = (.error e, t') := by
  rw [save, on_bind_error h]

/-- A directory can be made only if all those on its path can. -/
theorem canMake_of_answer (hne : s.dir ≠ "")
    (h : (FileTree.answer (.makeDirs s.dir) t).1 = .ok ()) : s.IsProper ∧ s.CanMake t := by
  obtain ⟨names, hnames, hmade⟩ := FileTree.exists_of_answer_makeDirs hne (Prod.ext h rfl)
  have hs : s.IsProper := isProper_of_names? hnames
  cases hs.names.symm.trans hnames
  exact ⟨hs, _, hmade⟩

theorem on_makeDirs_error (hne : s.dir ≠ "") (h : ¬(s.IsProper ∧ s.CanMake t)) :
    ∃ e t', (orFail s.dir (Files.makeDirs s.dir)).on t = (.error e, t') ∧
      (s.ReadsAlike t t' ∨ s.MadeInPart t t') := by
  cases hanswer : FileTree.answer (.makeDirs s.dir) t with
  | mk r t' =>
    cases r with
    | ok u => exact absurd (canMake_of_answer hne (congrArg Prod.fst hanswer)) h
    | error e =>
      have htree := FileTree.tree_of_answer_makeDirs hanswer.symm
      exact ⟨.io s.dir e, t', on_orFail_error hanswer, readsAlike_or_madeInPart htree⟩

/-- No number is so great that there is none after it. -/
structure IsBelowLimit (s : SnapshotDir) (t : FileTree) : Prop where
  listed : ∀ snapshots, (s.list.on t).1 = .ok snapshots →
    ∀ v ∈ snapshots, v.seq ≠ Nat.pow 2 64 - 1
  marker : (s.lastGood.on t).1 ≠ .ok (some (Nat.pow 2 64 - 1))

theorem IsBelowLimit.nextIn_lt (hlimit : s.IsBelowLimit t) (hs : s.IsProper)
    (h : s.HoldsOrAbsent t es) {marker : Option Nat} (hmarker : s.markerOf es = .ok marker) :
    nextIn es marker < Nat.pow 2 64 := by
  have hlisted := hlimit.listed (s.snapshotsIn es) (by rw [on_list hs h])
  have hgood := hlimit.marker
  rw [on_lastGood hs h, hmarker] at hgood
  refine Nat.lt_of_le_of_lt (nextIn_le (Nat.pow 2 64 - 1) ?_ ?_ (by decide)) (by decide)
  · intro k hk
    refine Nat.lt_of_le_of_ne (Nat.le_sub_one_of_lt (lt_of_mem_numbersIn hk)) ?_
    rw [numbersIn, ← map_seq_ofNames s] at hk
    obtain ⟨v, hv, rfl⟩ := List.mem_map.1 hk
    exact hlisted v hv
  · rintro k rfl
    refine Nat.lt_of_le_of_ne (Nat.le_sub_one_of_lt (lt_of_markerOf hmarker)) ?_
    rintro rfl
    exact hgood rfl

/-- What is known once a document was kept under a number. -/
structure Keeps (s : SnapshotDir) (t : FileTree) (d : Document) (n : Nat) (t' : FileTree)
    (es : Entries) (marker : Option Nat) : Prop where
  proper : s.IsProper
  before : s.HoldsOrAbsent t es
  marked : s.markerOf es = .ok marker
  seq : n = nextIn es marker
  after : s.Holds t' (replaceFile (fileName n) d.pretty es)

/-- **A snapshot is kept or the same is read as before.**  It is not kept if the directory cannot be
made, the marker is unreadable, or a directory stands in the way. -/
theorem on_save_cases (hne : s.dir ≠ "") (hlimit : s.IsBelowLimit t) (d : Document) :
    (∃ e t', (s.save d).on t = (.error e, t') ∧ (s.ReadsAlike t t' ∨ s.MadeInPart t t')) ∨
    ∃ n t' es marker, (s.save d).on t = (.ok ⟨n, s.pathFor n⟩, t') ∧
      s.Keeps t d n t' es marker ∧ n < Nat.pow 2 64 := by
  by_cases hready : s.IsProper ∧ s.CanMake t
  case neg =>
    obtain ⟨e, t', he, hreads⟩ := on_makeDirs_error hne hready
    exact .inl ⟨e, t', on_save_of_makeDirs he d, hreads⟩
  obtain ⟨hs, t₀, ht₀⟩ := hready
  obtain ⟨es, -, hbefore⟩ := FileTree.find_makeDirs ht₀
  have h : s.HoldsOrAbsent t es := hbefore
  obtain ⟨t₁, hmade, h₁⟩ := on_makeDirs hs h ⟨t₀, ht₀⟩
  have hsame : s.ReadsAlike t t₁ := readsAlike_of_entries hs h h₁.orAbsent rfl rfl fun _ => rfl
  cases hmarker : s.markerOf es with
  | error e =>
    refine .inl ⟨e, t₁, ?_, .inl hsame⟩
    rw [save, on_bind_ok hmade, on_bind_ok (on_list hs h₁.orAbsent),
      on_bind_error ((on_lastGood hs h₁.orAbsent).trans (by rw [hmarker]))]
  | ok marker =>
    have hnext := hlimit.nextIn_lt hs h hmarker
    by_cases hfree : FileTree.IsFree (es.lookup (temporaryName (fileName (nextIn es marker))))
    · have hreplace : CanReplace (fileName (nextIn es marker)) es :=
        ⟨by rw [lookup_nextIn_eq_none hnext]; exact isFree_none, hfree⟩
      obtain ⟨t', hsave, hafter⟩ :=
        on_save_ok hs h ⟨t₀, ht₀⟩ hmarker (Nat.le_of_lt hnext) hreplace d
      exact .inr ⟨_, t', es, marker, hsave, ⟨hs, h, hmarker, rfl, hafter⟩, hnext⟩
    · obtain ⟨entries, hentry⟩ := Classical.not_forall_not.1 hfree
      obtain ⟨e, he⟩ := on_writeAtomic_error hs h₁ (isName_fileName _)
        (length_fileName_le (Nat.le_of_lt hnext)) hentry d.pretty
      refine .inl ⟨e, t₁, ?_, .inl hsame⟩
      rw [save, on_bind_ok hmade, on_bind_ok (on_list hs h₁.orAbsent),
        on_bind_ok ((on_lastGood hs h₁.orAbsent).trans (by rw [hmarker]))]
      simp only [nextSeq_eq]
      rw [pathFor, on_bind_error he]

/-! ## What is read afterwards -/

theorem markerOf_of_lookup {n : Nat} (hn : n < Nat.pow 2 64)
    (h : es.lookup markerName = some (.file (Utf8.encode (Numeral.write n)))) :
    s.markerOf es = .ok (some n) := by
  rw [markerOf, h]
  simp only [Files.textOf, Utf8.decode?_encode, Numeral.u64?_trimBlank_write, if_pos hn]

theorem documentOf_of_lookup {n : Nat} {d : Document} (hd : Document.decode d.pretty = .ok d)
    (h : es.lookup (fileName n) = some (.file d.pretty)) : s.documentOf es n = .ok d := by
  rw [documentOf, h]
  simp only [hd]

theorem lookup_replaceFile_self (name : String) (contents : Bytes) (es : Entries) :
    (replaceFile name contents es).lookup name = some (.file contents) := by
  rw [lookup_replaceFile, if_neg (Ne.symm (temporaryName_ne_self name)), if_pos rfl]

theorem lookup_marker_replaceFile (n : Nat) (contents : Bytes) (es : Entries) :
    (replaceFile (fileName n) contents es).lookup markerName = es.lookup markerName := by
  rw [lookup_replaceFile, if_neg (Ne.symm (temporaryName_ne_marker _)),
    if_neg (Ne.symm (fileName_ne_marker n))]

theorem lookup_fileName_replaceFile {name : String} {k : Nat} (hne : fileName k ≠ name)
    (contents : Bytes) (es : Entries) :
    (replaceFile name contents es).lookup (fileName k) = es.lookup (fileName k) := by
  rw [lookup_replaceFile, if_neg (Ne.symm (temporaryName_ne_fileName _ _)), if_neg hne]

section Keeps

variable {d : Document} {n : Nat} {t' : FileTree} {marker : Option Nat}

/-- **The document is read back from its snapshot.** -/
theorem Keeps.on_load (h : s.Keeps t d n t' es marker) (hn : n ≤ Nat.pow 2 64)
    (hd : Document.decode d.pretty = .ok d) : (s.load n).on t' = (.ok d, t') := by
  rw [SnapshotDir.on_load h.proper h.after.orAbsent hn,
    documentOf_of_lookup hd (lookup_replaceFile_self _ _ _)]

theorem Keeps.markerOf (h : s.Keeps t d n t' es marker) :
    s.markerOf (replaceFile (fileName n) d.pretty es) = .ok marker := by
  rw [← h.marked, SnapshotDir.markerOf, lookup_marker_replaceFile, SnapshotDir.markerOf]

/-- **The marker stays as it is.** -/
theorem Keeps.lastGood_eq (h : s.Keeps t d n t' es marker) :
    (s.lastGood.on t').1 = (s.lastGood.on t).1 := by
  rw [on_lastGood h.proper h.after.orAbsent, on_lastGood h.proper h.before, h.markerOf, h.marked]

theorem Keeps.numbersIn_eq (h : s.Keeps t d n t' es marker) (hn : n < Nat.pow 2 64) :
    numbersIn (replaceFile (fileName n) d.pretty es) = numbersIn es ++ [n] := by
  refine numbersIn_replaceFile hn _ fun k hk => ?_
  rw [h.seq]
  exact lt_nextIn hk marker

theorem Keeps.lookup_eq_none (h : s.Keeps t d n t' es marker) (hn : n < Nat.pow 2 64) :
    es.lookup (fileName n) = none := by
  rw [h.seq] at hn ⊢
  exact lookup_nextIn_eq_none hn

/-- **One snapshot more is listed.** -/
theorem Keeps.perm_snapshotsIn (h : s.Keeps t d n t' es marker) (hn : n < Nat.pow 2 64) :
    (s.snapshotsIn (replaceFile (fileName n) d.pretty es)).Perm
      (⟨n, s.pathFor n⟩ :: s.snapshotsIn es) := by
  have hfresh := h.lookup_eq_none hn
  have hperm := (perm_listedNames_replaceFile hn d.pretty hfresh).filterMap s.snapshotOf?
  rw [List.filterMap_cons_some (b := ⟨n, s.pathFor n⟩)
    (by rw [snapshotOf?, parseName?_fileName, if_pos hn]; rfl)] at hperm
  exact ((s.perm_snapshotsIn _).trans hperm).trans ((s.perm_snapshotsIn es).symm.cons _)

end Keeps

/-! ## Marking -/

/-- The entries after a number was marked. -/
def markedIn (seq : Nat) (es : Entries) : Entries :=
  replaceFile markerName (Utf8.encode (Numeral.write seq)) es

theorem lookup_marker_markedIn (seq : Nat) (es : Entries) :
    (markedIn seq es).lookup markerName = some (.file (Utf8.encode (Numeral.write seq))) :=
  lookup_replaceFile_self _ _ _

theorem lookup_fileName_markedIn (k seq : Nat) (es : Entries) :
    (markedIn seq es).lookup (fileName k) = es.lookup (fileName k) :=
  lookup_fileName_replaceFile (fileName_ne_marker k) _ es

theorem listedNames_markedIn (seq : Nat) (es : Entries) :
    listedNames (markedIn seq es) = listedNames es := listedNames_replaceFile_marker _ es

theorem numbersIn_markedIn (seq : Nat) (es : Entries) :
    numbersIn (markedIn seq es) = numbersIn es := by
  rw [numbersIn_eq, listedNames_markedIn, ← numbersIn_eq]

/-- **A number is marked** unless something stands in the way. -/
theorem on_markGood (hs : s.IsProper) (h : s.Holds t es) (hfree : CanReplace markerName es)
    (seq : Nat) : ∃ t', (s.markGood seq).on t = (.ok (), t') ∧ s.Holds t' (markedIn seq es) :=
  on_writeAtomic hs h isName_marker (by decide) hfree _

/-- A number that was marked had nothing in its way. -/
theorem holds_of_on_markGood (hs : s.IsProper) (h : s.Holds t es) {marker : Option Nat}
    (hmarker : s.markerOf es = .ok marker) {seq : Nat} {t' : FileTree}
    (hmark : (s.markGood seq).on t = (.ok (), t')) : s.Holds t' (markedIn seq es) := by
  have hfree : CanReplace markerName es := by
    refine ⟨fun entries hentry => ?_, fun entries hentry => ?_⟩
    · rw [markerOf, hentry] at hmarker
      cases hmarker
    · obtain ⟨e, he⟩ := on_writeAtomic_error hs h isName_marker (by decide) hentry
        (Utf8.encode (Numeral.write seq))
      rw [markGood, markerPath] at hmark
      cases hmark.symm.trans he
  obtain ⟨t₁, hmark₁, h₁⟩ := on_markGood hs h hfree seq
  cases hmark₁.symm.trans hmark
  exact h₁

end SnapshotDir
end ProxyPlane
