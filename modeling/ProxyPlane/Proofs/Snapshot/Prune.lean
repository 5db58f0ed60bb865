import ProxyPlane.Proofs.Snapshot.Save

/-!
# Removing old snapshots

Files are removed one after the other, and the first that cannot be removed ends it.  Only files
that are listed are removed, so that the marker stays, and never the one that the marker names.

## What is here

* `without`, the entries without some names.
* `on_removeAll`, for any entries: some of the files are gone, and all of them on success.
* `on_prune`, what `prune` can remove from any directory; `on_prune_of_removable`, when it works.
* `length_add_of_on_prune`, how many snapshots remain.
* `on_prune_newest`: if the marker names the newest snapshot, then the newest ones remain.
-/

set_option autoImplicit false
namespace ProxyPlane
namespace SnapshotDir

open SnapshotProgram

variable {s : SnapshotDir} {t : FileTree} {es : Entries}

/-! ## Removing files -/

/-- The entries without those of some names. -/
def without (names : List String) (es : Entries) : Entries :=
  es.filter fun e => decide (e.1 ∉ names)

theorem without_nil (es : Entries) : without [] es = es := by
  rw [without, List.filter_eq_self]
  intro e _
  exact decide_eq_true List.not_mem_nil

theorem without_place_none (name : String) (names : List String) (es : Entries) :
    without names (FileTree.place name none es) = without (name :: names) es := by
  rw [without, FileTree.place, List.filter_filter, without]
  refine List.filter_congr fun e _ => ?_
  simp only [List.mem_cons, not_or, Bool.decide_and, bne, beq_eq_decide, decide_not]
  rw [Bool.and_comm]

theorem lookup_without (names : List String) (es : Entries) (j : String) :
    (without names es).lookup j = if j ∈ names then none else es.lookup j := by
  induction names generalizing es with
  | nil => rw [without_nil, if_neg List.not_mem_nil]
  | cons name names ih =>
    rw [← without_place_none, ih, FileTree.lookup_place]
    by_cases hj : j ∈ names
    · rw [if_pos hj, if_pos (List.mem_cons_of_mem _ hj)]
    · rw [if_neg hj]
      by_cases hname : j = name
      · rw [if_pos hname, if_pos (hname ▸ List.mem_cons_self)]
      · rw [if_neg hname, if_neg (by simp [hname, hj])]

theorem allFiles_without (h : AllFiles es) (names : List String) : AllFiles (without names es) := by
  intro j
  rw [lookup_without]
  split
  · exact isFree_none
  · exact h j

theorem listedNames_without (names : List String) (es : Entries) :
    listedNames (without names es) = (listedNames es).filter fun n => decide (n ∉ names) := by
  have hmap : (without names es).map (·.1) = (es.map (·.1)).filter fun n => decide (n ∉ names) := by
    rw [without, List.filter_map]
    rfl
  rw [listedNames, hmap, List.filter_filter, listedNames, List.filter_filter]
  exact List.filter_congr fun n _ => Bool.and_comm _ _

/-- A file that can be removed. -/
def IsRemovable (es : Entries) (name : String) : Prop :=
  FileTree.isTooLong name = false ∧ ∃ contents, es.lookup name = some (.file contents)

/-- **Some of the files are gone**: all of them, or those before one that cannot be removed. -/
theorem on_removeAll (hs : s.IsProper) (h : s.Holds t es) (names : List String)
    (hnames : ∀ n ∈ names, Path.IsName n) (gone : List Snapshot)
    (hgone : gone.map (·.path) = names.map (Path.join s.dir)) :
    ∃ done rest t' r, names = done ++ rest ∧ (removeAll gone).on t = (r, t') ∧
      s.Holds t' (without done es) ∧ (r = .ok () → rest = []) ∧
      ∀ e, r = .error e → ∃ n ∈ rest.head?, ¬IsRemovable (without done es) n := by
  induction names generalizing t es gone with
  | nil =>
    rw [List.map_nil, List.map_eq_nil_iff] at hgone
    subst hgone
    refine ⟨[], [], t, .ok (), rfl, rfl, ?_, fun _ => rfl, fun e he => absurd he nofun⟩
    rwa [without_nil]
  | cons name names ih =>
    cases gone with
    | nil => cases hgone
    | cons v gone =>
      obtain ⟨hfirst, hgone⟩ := List.cons.inj hgone
      have hpath : v.path = Path.join s.dir name := hfirst
      have hname := hnames name List.mem_cons_self
      have hleads : FileTree.names? v.path = .ok (Path.segments s.dir ++ [name]) := by
        rw [hpath, FileTree.names?_join hname hs.noNul]
      rcases FileTree.answer_remove_cases hleads h with ⟨t₁, hremove, h₁⟩ | ⟨e, hremove⟩
      · obtain ⟨done, rest, t', r, hsplit, hrun, hholds, hok, herror⟩ :=
          ih h₁ (fun n hn => hnames n (List.mem_cons_of_mem _ hn)) gone hgone
        rw [without_place_none] at hholds herror
        refine ⟨name :: done, rest, t', r, by rw [hsplit]; rfl, ?_, hholds, hok, herror⟩
        rw [removeAll, Files.remove, on_bind_ok (on_orFail_ok hremove), hrun]
      -- the first file that cannot be removed is where it ends
      · refine ⟨[], name :: names, t, .error (.io v.path e), rfl, ?_, ?_,
          fun heq => absurd heq nofun, fun _ _ => ⟨name, rfl, ?_⟩⟩
        · rw [removeAll, Files.remove, on_bind_error (on_orFail_error hremove)]
        · rwa [without_nil]
        · rintro ⟨hshort, contents, hentry⟩
          rw [without_nil] at hentry
          have hleads := FileTree.leadsTo_join hname hs.noNul hshort
          obtain ⟨t', hremove', -⟩ := FileTree.answer_remove hleads h hentry
          rw [← hpath] at hremove'
          cases hremove.symm.trans hremove'

/-! ## Listed snapshots -/

/-- The name of the file of a snapshot. -/
def entryName (v : Snapshot) : String := (Path.fileName? v.path).getD ""

theorem entryName_join (s : SnapshotDir) {name : String} (h : Path.IsName name) (seq : Nat) :
    entryName ⟨seq, Path.join s.dir name⟩ = name := by
  rw [entryName, Path.fileName?_join s.dir h, Option.getD_some]

theorem mem_snapshotsIn {v : Snapshot} (hv : v ∈ s.snapshotsIn es) :
    ∃ name ∈ listedNames es, parseName? name = some v.seq ∧ v.path = Path.join s.dir name := by
  rw [snapshotsIn, ofNames, List.mem_mergeSort, List.mem_filterMap] at hv
  obtain ⟨name, hname, hv⟩ := hv
  obtain ⟨seq, hseq, rfl⟩ := Option.map_eq_some_iff.1 hv
  exact ⟨name, List.mem_filter.2 ⟨hname, by rw [hseq]; rfl⟩, hseq, rfl⟩

/-- What a listed snapshot says of its file. -/
theorem entryName_spec {v : Snapshot} (hv : v ∈ s.snapshotsIn es) :
    entryName v ∈ listedNames es ∧ parseName? (entryName v) = some v.seq ∧
      v.path = Path.join s.dir (entryName v) := by
  obtain ⟨name, hname, hparse, hpath⟩ := mem_snapshotsIn hv
  have heq : entryName v = name := by
    rw [entryName, hpath, Path.fileName?_join s.dir (isName_of_parseName? hparse),
      Option.getD_some]
  rw [heq]
  exact ⟨hname, hparse, hpath⟩

theorem isName_entryName {gone : List Snapshot} (hgone : ∀ v ∈ gone, v ∈ s.snapshotsIn es) :
    ∀ name ∈ gone.map entryName, Path.IsName name := by
  intro name hname
  obtain ⟨v, hv, rfl⟩ := List.mem_map.1 hname
  exact isName_of_parseName? (entryName_spec (hgone v hv)).2.1

theorem map_path_eq {gone : List Snapshot} (hgone : ∀ v ∈ gone, v ∈ s.snapshotsIn es) :
    gone.map (·.path) = (gone.map entryName).map (Path.join s.dir) := by
  rw [List.map_map]
  exact List.map_congr_left fun v hv => (entryName_spec (hgone v hv)).2.2

/-- What is removed is listed. -/
theorem mem_of_mem_surplus {keep : Nat} {marker : Option Nat} {snapshots : List Snapshot}
    {v : Snapshot} (h : v ∈ surplus keep marker snapshots) :
    v ∈ snapshots ∧ some v.seq ≠ marker := by
  obtain ⟨hlisted, hother⟩ := List.mem_filter.1 (List.mem_of_mem_take h)
  exact ⟨hlisted, bne_iff_ne.1 hother⟩

theorem perm_entryNames (s : SnapshotDir) (es : Entries) :
    ((s.snapshotsIn es).map entryName).Perm (listedNames es) := by
  refine ((List.mergeSort_perm _ _).map entryName).trans ?_
  rw [List.map_filterMap, listedNames, ← List.filterMap_eq_filter]
  refine List.Perm.of_eq (List.filterMap_congr fun name _ => ?_)
  cases hparse : parseName? name with
  | none => rw [Option.guard, hparse, if_neg (by simp)]; rfl
  | some seq =>
    rw [Option.guard, hparse, if_pos (Option.isSome_some), Option.map_some, Option.map_some,
      entryName_join s (isName_of_parseName? hparse)]

/-! ## Pruning -/

theorem on_prune_of_ok (hs : s.IsProper) (h : s.Holds t es) (keep : Nat) {marker : Option Nat}
    (hmarker : s.markerOf es = .ok marker) :
    ∃ done rest t' r, (surplus keep marker (s.snapshotsIn es)).map entryName = done ++ rest ∧
      (s.prune keep).on t = (r, t') ∧ s.Holds t' (without done es) ∧
      (∀ k, r = .ok k → rest = [] ∧ k = done.length) ∧
      ∀ e, r = .error e → ∃ n ∈ rest.head?, ¬IsRemovable (without done es) n := by
  rw [prune, on_bind_ok (on_list hs h.orAbsent)]
  by_cases hkeep : (s.snapshotsIn es).length ≤ keep
  · rw [if_pos hkeep, surplus, Nat.sub_eq_zero_of_le hkeep, List.take_zero]
    refine ⟨[], [], t, .ok 0, rfl, rfl, by rwa [without_nil], fun k hk => ?_,
      fun e he => absurd he nofun⟩
    cases hk
    exact ⟨rfl, rfl⟩
  · rw [if_neg hkeep, on_bind_ok ((on_lastGood hs h.orAbsent).trans (by rw [hmarker]))]
    have hlisted : ∀ v ∈ surplus keep marker (s.snapshotsIn es), v ∈ s.snapshotsIn es :=
      fun v hv => (mem_of_mem_surplus hv).1
    obtain ⟨done, rest, t', r, hsplit, hrun, hholds, hok, herror⟩ :=
      on_removeAll hs h _ (isName_entryName hlisted) _ (map_path_eq hlisted)
    cases r with
    | ok u =>
      refine ⟨done, rest, t', .ok _, hsplit, on_bind_ok hrun, hholds, fun k hk => ?_,
        fun e he => absurd he nofun⟩
      cases hk
      have hrest := hok rfl
      rw [hrest, List.append_nil] at hsplit
      exact ⟨hrest, by rw [← hsplit, List.length_map]⟩
    | error e =>
      exact ⟨done, rest, t', .error e, hsplit, on_bind_error hrun, hholds,
        fun k hk => absurd hk nofun, fun e' _ => herror e rfl⟩

theorem surplus_sublist (keep : Nat) (marker : Option Nat) (snapshots : List Snapshot) :
    (surplus keep marker snapshots).Sublist snapshots :=
  (List.take_sublist _ _).trans List.filter_sublist

/-- **Pruning works** if the files can be removed. -/
theorem on_prune_of_removable (hs : s.IsProper) (h : s.Holds t es) (keep : Nat)
    {marker : Option Nat} (hmarker : s.markerOf es = .ok marker)
    (hnodup : (listedNames es).Nodup)
    (hremovable : ∀ v ∈ s.snapshotsIn es, IsRemovable es (entryName v)) :
    ∃ t', (s.prune keep).on t = (.ok (surplus keep marker (s.snapshotsIn es)).length, t') ∧
      s.Holds t' (without ((surplus keep marker (s.snapshotsIn es)).map entryName) es) := by
  obtain ⟨done, rest, t', r, hsplit, hrun, hholds, hok, herror⟩ :=
    on_prune_of_ok hs h keep hmarker
  have hdistinct := ((perm_entryNames s es).nodup_iff.2 hnodup).sublist
    ((surplus_sublist keep marker _).map entryName)
  rw [hsplit] at hdistinct
  cases r with
  | error e =>
    obtain ⟨x, hx, hnot⟩ := herror e rfl
    have hxrest := List.mem_of_mem_head? hx
    obtain ⟨v, hv, rfl⟩ := List.mem_map.1 (hsplit ▸ List.mem_append_right done hxrest)
    have hlisted := (surplus_sublist keep marker _).subset hv
    have hdone : entryName v ∉ done := fun hdone =>
      (List.nodup_append.1 hdistinct).2.2 _ hdone _ hxrest rfl
    obtain ⟨hshort, contents, hentry⟩ := hremovable v hlisted
    exact absurd ⟨hshort, contents, by rw [lookup_without, if_neg hdone, hentry]⟩ hnot
  | ok k =>
    obtain ⟨hrest, hk⟩ := hok k rfl
    rw [hrest, List.append_nil] at hsplit
    rw [← hsplit, List.length_map] at hk
    rw [← hsplit] at hholds
    exact ⟨t', by rw [hrun, hk], hholds⟩

/-- Nothing is removed while the marker is unreadable. -/
theorem on_prune_of_error (hs : s.IsProper) (h : s.Holds t es) (keep : Nat) {e : SnapshotError}
    (hmarker : s.markerOf es = .error e) :
    ∃ r, (s.prune keep).on t = (r, t) ∧ ∀ k, r = .ok k → k = 0 := by
  rw [prune, on_bind_ok (on_list hs h.orAbsent)]
  split
  · exact ⟨.ok 0, rfl, fun k hk => by cases hk; rfl⟩
  · refine ⟨.error e, ?_, fun k hk => absurd hk nofun⟩
    rw [on_bind_error ((on_lastGood hs h.orAbsent).trans (by rw [hmarker]))]

/-- **What can be removed**: listed files, and never the one that the marker names. -/
theorem on_prune (hs : s.IsProper) (h : s.Holds t es) (keep : Nat) :
    ∃ (gone : List Snapshot) (done rest : List String) (t' : FileTree)
      (r : Except SnapshotError Nat), gone.Sublist (s.snapshotsIn es) ∧
      (∀ v ∈ gone, s.markerOf es ≠ .ok (some v.seq)) ∧ gone.map entryName = done ++ rest ∧
      (s.prune keep).on t = (r, t') ∧ s.Holds t' (without done es) ∧
      ∀ k, r = .ok k → rest = [] ∧ k = done.length := by
  cases hmarker : s.markerOf es with
  | error e =>
    obtain ⟨r, hrun, hzero⟩ := on_prune_of_error hs h keep hmarker
    refine ⟨[], [], [], t, r, List.nil_sublist _, fun v hv => absurd hv List.not_mem_nil, rfl, hrun,
      by rwa [without_nil], fun k hk => ⟨rfl, hzero k hk⟩⟩
  | ok marker =>
    obtain ⟨done, rest, t', r, hsplit, hrun, hholds, hok, -⟩ := on_prune_of_ok hs h keep hmarker
    refine ⟨surplus keep marker (s.snapshotsIn es), done, rest, t', r, ?_, ?_, hsplit, hrun, hholds,
      hok⟩
    · exact surplus_sublist keep marker _
    · intro v hv heq
      cases heq
      exact (mem_of_mem_surplus hv).2 rfl

theorem filter_not_mem_of_nodup {α : Type} [DecidableEq α] {done rest : List α}
    (h : (done ++ rest).Nodup) : (done ++ rest).filter (fun a => decide (a ∉ done)) = rest := by
  have hdisjoint := (List.nodup_append.1 h).2.2
  rw [List.filter_append, List.filter_eq_nil_iff.2, List.filter_eq_self.2, List.nil_append]
  · exact fun a ha => decide_eq_true fun hmem => hdisjoint a hmem a ha rfl
  · exact fun a ha h => of_decide_eq_true h ha

theorem length_filter_of_perm {names done rest : List String} (hnodup : names.Nodup)
    (hperm : names.Perm (done ++ rest)) :
    (names.filter fun n => decide (n ∉ done)).length + done.length = names.length := by
  have hlength := (hperm.filter fun n => decide (n ∉ done)).length_eq
  rw [filter_not_mem_of_nodup (hperm.nodup_iff.1 hnodup)] at hlength
  rw [hlength, hperm.length_eq, List.length_append, Nat.add_comm]

/-- **How many are removed**, where no two snapshots have the same name. -/
theorem length_add_of_on_prune (hs : s.IsProper) (h : s.Holds t es) {keep k : Nat} {t' : FileTree}
    (hnodup : (listedNames es).Nodup) (hprune : (s.prune keep).on t = (.ok k, t')) :
    ∃ done, s.Holds t' (without done es) ∧ (∀ n ∈ done, parseName? n ≠ none) ∧
      (numbersIn (without done es)).length + k = (numbersIn es).length := by
  obtain ⟨gone, done, rest, t₁, r, hsub, -, hsplit, hrun, hholds, hok⟩ := on_prune hs h keep
  cases hrun.symm.trans hprune
  obtain ⟨hrest, hk⟩ := hok k rfl
  rw [hrest, List.append_nil] at hsplit
  obtain ⟨others, hothers⟩ := (hsub.map entryName).exists_perm_append
  have hperm := (perm_entryNames s es).symm.trans hothers
  rw [hsplit] at hperm
  refine ⟨done, hholds, fun n hn hnone => ?_, ?_⟩
  · have hlisted := (List.mem_filter.1 (hperm.mem_iff.2 (List.mem_append_left _ hn))).2
    rw [hnone] at hlisted
    exact absurd hlisted Bool.false_ne_true
  · rw [length_numbersIn, length_numbersIn, listedNames_without, hk]
    exact length_filter_of_perm hnodup hperm

/-! ## The newest snapshots -/

/-- All snapshots have the names that they are given when they are kept. -/
def IsCanonical (es : Entries) : Prop := ∀ name ∈ listedNames es, ∃ n, name = fileName n

theorem IsCanonical.snapshotsIn_eq (hes : IsCanonical es) (s : SnapshotDir) :
    s.snapshotsIn es = (numbersIn es).map fun n => ⟨n, s.pathFor n⟩ := by
  have hself : ∀ v ∈ s.snapshotsIn es, v = ⟨v.seq, s.pathFor v.seq⟩ := by
    intro v hv
    obtain ⟨hlisted, hparse, hpath⟩ := entryName_spec hv
    obtain ⟨n, hn⟩ := hes _ hlisted
    rw [hn, parseName?_fileName, Option.ite_none_right_eq_some, Option.some.injEq] at hparse
    rw [hn, hparse.2] at hpath
    rw [pathFor, ← hpath]
  rw [numbersIn, ← map_seq_ofNames s, List.map_map]
  conv_lhs => rw [← List.map_id (s.snapshotsIn es)]
  exact List.map_congr_left hself

theorem IsCanonical.perm_listedNames (hes : IsCanonical es) (s : SnapshotDir) :
    ((numbersIn es).map fileName).Perm (listedNames es) := by
  have hnames : (s.snapshotsIn es).map entryName = (numbersIn es).map fileName := by
    rw [hes.snapshotsIn_eq s, List.map_map]
    refine List.map_congr_left fun n _ => ?_
    rw [Function.comp_apply, pathFor, entryName_join s (isName_fileName n)]
  rw [← hnames]
  exact perm_entryNames s es

theorem numbersIn_without (hes : IsCanonical es) (gone : List Nat) :
    numbersIn (without (gone.map fileName) es) =
      (numbersIn es).filter fun n => decide (n ∉ gone) := by
  have hfilter : ((listedNames es).filter fun n => decide (n ∉ gone.map fileName)).filterMap
      parseName? = ((listedNames es).filterMap parseName?).filter fun n => decide (n ∉ gone) := by
    rw [List.filterMap_filter, List.filter_filterMap]
    refine List.filterMap_congr fun name hname => ?_
    obtain ⟨n, rfl⟩ := hes name hname
    have hmem : fileName n ∈ gone.map fileName ↔ n ∈ gone := by
      refine ⟨fun h => ?_, List.mem_map_of_mem⟩
      obtain ⟨k, hk, heq⟩ := List.mem_map.1 h
      exact fileName_injective heq ▸ hk
    rw [parseName?_fileName]
    by_cases hn : n < Nat.pow 2 64
    · rw [if_pos hn, Option.filter_some]
      simp only [hmem]
    · rw [if_neg hn, ite_self]
      rfl
  rw [numbersIn_eq, listedNames_without, hfilter]
  refine mergeSort_eq_of_perm ?_ ((pairwise_numbersIn es).filter _)
  rw [numbersIn_eq]
  exact (List.mergeSort_perm _ _).symm.filter _

theorem isRemovable_of_allFiles (hfiles : AllFiles es) {name : String}
    (hname : name ∈ listedNames es) (hshort : FileTree.isTooLong name = false) :
    IsRemovable es name := by
  refine ⟨hshort, ?_⟩
  cases hentry : es.lookup name with
  | none => exact absurd hentry (lookup_ne_none_of_mem (List.mem_filter.1 hname).1)
  | some u =>
    cases u with
    | dir entries => exact absurd hentry (hfiles _ entries)
    | file contents => exact ⟨contents, rfl⟩

/-- The names of snapshots are short. -/
theorem IsCanonical.not_isTooLong (hes : IsCanonical es) {name : String}
    (hname : name ∈ listedNames es) : FileTree.isTooLong name = false := by
  obtain ⟨n, rfl⟩ := hes name hname
  have hparse := (List.mem_filter.1 hname).2
  rw [parseName?_fileName] at hparse
  refine SnapshotDir.not_isTooLong ?_
  by_cases hn : n < Nat.pow 2 64
  · rw [length_fileName (Nat.le_of_lt hn)]
    decide
  · rw [if_neg hn] at hparse
    exact absurd hparse Bool.false_ne_true

theorem IsCanonical.surplus_eq (hes : IsCanonical es) (s : SnapshotDir)
    (hnodup : (numbersIn es).Nodup) {n : Nat} {older : List Nat}
    (hnumbers : numbersIn es = older ++ [n]) (keep : Nat) :
    surplus keep (some n) (s.snapshotsIn es) =
      (older.take ((numbersIn es).length - keep)).map fun k => ⟨k, s.pathFor k⟩ := by
  have hfilter : (numbersIn es).filter (fun k => some k != some n) = older := by
    rw [hnumbers] at hnodup ⊢
    have hne : ∀ k ∈ older, k ≠ n := fun k hk =>
      (List.nodup_append.1 hnodup).2.2 k hk n List.mem_cons_self
    rw [List.filter_append, List.filter_eq_self.2 fun k hk => by simpa using hne k hk,
      List.filter_cons_of_neg (by simp), List.filter_nil, List.append_nil]
  rw [surplus, hes.snapshotsIn_eq s, List.length_map, List.filter_map, ← List.map_take]
  congr 2

/-- **The newest snapshots remain**, if the marker names the newest. -/
theorem on_prune_newest (hs : s.IsProper) (h : s.Holds t es) (hes : IsCanonical es)
    (hfiles : AllFiles es) (hnodup : (numbersIn es).Nodup) {n : Nat}
    (hmarker : s.markerOf es = .ok (some n)) {older : List Nat}
    (hnumbers : numbersIn es = older ++ [n]) {keep : Nat} (hkeep : 1 ≤ keep) :
    ∃ (t' : FileTree) (gone : List Nat),
      (s.prune keep).on t = (.ok ((numbersIn es).length - keep), t') ∧
      s.Holds t' (without (gone.map fileName) es) ∧ n ∉ gone ∧
      numbersIn (without (gone.map fileName) es) =
        (numbersIn es).drop ((numbersIn es).length - keep) := by
  -- the marked number comes last, so that none of those that go is passed over
  have hle : (numbersIn es).length - keep ≤ older.length := by
    rw [hnumbers, List.length_append, List.length_singleton]
    omega
  have htake : (numbersIn es).take ((numbersIn es).length - keep) =
      older.take ((numbersIn es).length - keep) := by
    generalize (numbersIn es).length - keep = m at hle
    rw [hnumbers, List.take_append_of_le_length hle]
  generalize hgone : older.take ((numbersIn es).length - keep) = gone at htake
  have hlength : gone.length = (numbersIn es).length - keep := by
    rw [← hgone, List.length_take, Nat.min_eq_left hle]
  have holder : ∀ k ∈ gone, k ∈ older := fun k hk => List.mem_of_mem_take (hgone ▸ hk)
  have hnames : (surplus keep (some n) (s.snapshotsIn es)).map entryName = gone.map fileName := by
    rw [hes.surplus_eq s hnodup hnumbers, hgone, List.map_map]
    refine List.map_congr_left fun k _ => ?_
    rw [Function.comp_apply, pathFor, entryName_join s (isName_fileName k)]
  have hcount : (surplus keep (some n) (s.snapshotsIn es)).length =
      (numbersIn es).length - keep := by
    rw [hes.surplus_eq s hnodup hnumbers, hgone, List.length_map, hlength]
  have hdistinct : (listedNames es).Nodup :=
    (hes.perm_listedNames s).nodup_iff.1 (hnodup.map fileName_injective)
  have hremovable : ∀ v ∈ s.snapshotsIn es, IsRemovable es (entryName v) := fun v hv =>
    isRemovable_of_allFiles hfiles (entryName_spec hv).1
      (hes.not_isTooLong (entryName_spec hv).1)
  obtain ⟨t', hrun, hholds⟩ :=
    on_prune_of_removable hs h keep hmarker hdistinct hremovable
  rw [hcount] at hrun
  rw [hnames] at hholds
  refine ⟨t', gone, hrun, hholds, fun hmem => ?_, ?_⟩
  · rw [hnumbers] at hnodup
    exact (List.nodup_append.1 hnodup).2.2 n (holder n hmem) n List.mem_cons_self rfl
  · rw [numbersIn_without hes, ← htake]
    rw [← List.take_append_drop ((numbersIn es).length - keep) (numbersIn es)] at hnodup
    have hrest := filter_not_mem_of_nodup hnodup
    rwa [List.take_append_drop] at hrest

end SnapshotDir
end ProxyPlane
