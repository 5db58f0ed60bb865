import ProxyPlane.Compile
import ProxyPlane.Proofs.Snapshot.Survivors

/-!
# How the names of snapshots are spelled

The name of a snapshot is listed whenever a number can be read from it, but a document is looked for
under the number in twenty digits.  So what is listed is found if its name is spelled out like this,
and a snapshot whose number is written shorter, longer or with a sign is listed but not found.

## What is here

* `IsSpelledOut`, twenty digits, and `isSpelledOut_iff`: these are the names that are given.
* `documentAt`, what the file of a snapshot holds, and `on_load_of_path`, when it is loaded.
* `on_load_notFound_iff`: a listed snapshot is not found if none with its number is spelled out.
* `readsListed_iff`: what is listed is what is loaded exactly if all names are spelled out.
-/

set_option autoImplicit false
namespace ProxyPlane
namespace SnapshotDir

open SnapshotProgram

/-! ## Names -/

/-- Twenty digits stand where the number is in the name of a snapshot. -/
def IsSpelledOut (name : String) : Prop :=
  ∃ ds : List Char, name.toList = "config-".toList ++ ds ++ ".json".toList ∧ ds.length = 20 ∧
    ∀ c ∈ ds, c.isDigit = true

theorem length_padded {n : Nat} (hn : n < Nat.pow 2 64) :
    (List.replicate (20 - (Nat.toDigits 10 n).length) '0' ++ Nat.toDigits 10 n).length = 20 := by
  have hdigits : (Nat.toDigits 10 n).length ≤ 20 := by
    rw [Nat.length_toDigits_le_iff (by decide) (by decide)]
    exact Nat.lt_trans hn (by decide)
  rw [List.length_append, List.length_replicate]
  omega

theorem isSpelledOut_fileName {n : Nat} (hn : n < Nat.pow 2 64) : IsSpelledOut (fileName n) :=
  ⟨_, toList_fileName n, length_padded hn, fun _ => Numeral.isDigit_of_mem_padded⟩

/-- **The names with twenty digits are those that are given** to snapshots. -/
theorem isSpelledOut_iff {name : String} {n : Nat} (hparse : parseName? name = some n) :
    IsSpelledOut name ↔ name = fileName n := by
  obtain ⟨cs, hname, hvalue, hn⟩ := exists_of_parseName? hparse
  refine ⟨?_, fun h => h ▸ isSpelledOut_fileName hn⟩
  rintro ⟨ds, hname', hlength, hdigits⟩
  obtain rfl : cs = ds :=
    List.append_cancel_left (List.append_cancel_right (hname.symm.trans hname'))
  have hne : cs ≠ [] := List.ne_nil_of_length_pos (by omega)
  rw [Numeral.value?_of_isDigit hne hdigits] at hvalue
  have hpadded : Numeral.digits? 0
      (List.replicate (20 - (Nat.toDigits 10 n).length) '0' ++ Nat.toDigits 10 n) = some n := by
    rw [Numeral.digits?_replicate_zero, Numeral.digits?_toDigits]
  obtain ⟨-, rfl⟩ := Numeral.digits?_inj hvalue hpadded (hlength.trans (length_padded hn).symm)
  rw [← String.toList_inj, hname, toList_fileName]

variable {s : SnapshotDir} {t : FileTree} {es : Entries} {v : Snapshot} {listed : List Snapshot}

/-- A snapshot stands at the path of its number if its name is spelled out. -/
theorem path_eq_iff (hv : v ∈ s.snapshotsIn es) :
    v.path = s.pathFor v.seq ↔ IsSpelledOut (entryName v) := by
  obtain ⟨-, hparse, hpath⟩ := entryName_spec hv
  rw [isSpelledOut_iff hparse]
  refine ⟨fun h => ?_, fun h => by rw [hpath, h, pathFor]⟩
  rw [entryName, h, pathFor, Path.fileName?_join s.dir (isName_fileName _), Option.getD_some]

/-! ## Loading -/

/-- What the file of a snapshot holds. -/
def documentAt (t : FileTree) (v : Snapshot) : Except SnapshotError Document :=
  match (FileTree.answer (.read v.path) t).1 with
  | .error e => .error (.io v.path e)
  | .ok contents =>
    match Document.decode contents with
    | .ok d => .ok d
    | .error e => .error (.decode v.path e)

/-- **The file that is listed is loaded**, if it stands at the path of its number. -/
theorem on_load_of_path (hs : s.IsProper) (hes : s.HoldsOrAbsent t es)
    (hv : v ∈ s.snapshotsIn es) (hpath : v.path = s.pathFor v.seq) :
    ((s.load v.seq).on t).1 = documentAt t v := by
  obtain ⟨hlisted, hparse, -⟩ := entryName_spec hv
  rw [(isSpelledOut_iff hparse).1 ((path_eq_iff hv).1 hpath)] at hlisted
  have hentry := lookup_ne_none_of_mem (List.mem_filter.1 hlisted).1
  have hn := Nat.le_of_lt (lt_of_mem_numbersIn (seq_mem_numbersIn hv))
  have hread := read_of_holdsOrAbsent hes (hs.leadsTo_pathFor hn)
  rw [on_load hs hes hn, documentOf, documentAt, hpath, FileTree.answer, hread]
  cases hlookup : es.lookup (fileName v.seq) with
  | none => exact absurd hlookup hentry
  | some u => cases u <;> rfl

/-- **A listed snapshot is not found** if none with its number is spelled out. -/
theorem on_load_notFound_iff (hs : s.IsProper) (hes : s.HoldsOrAbsent t es)
    (hv : v ∈ s.snapshotsIn es) :
    ((s.load v.seq).on t).1 = .error (.notFound v.seq) ↔
      ∀ w ∈ s.snapshotsIn es, w.seq = v.seq → ¬IsSpelledOut (entryName w) := by
  have hn := lt_of_mem_numbersIn (seq_mem_numbersIn hv)
  have hmissing : ((s.load v.seq).on t).1 = .error (.notFound v.seq) ↔
      es.lookup (fileName v.seq) = none := by
    rw [on_load hs hes (Nat.le_of_lt hn), documentOf]
    cases es.lookup (fileName v.seq) with
    | none => simp
    | some u =>
      cases u with
      | dir entries => simp
      | file contents => cases hdecode : Document.decode contents <;> simp [hdecode]
  rw [hmissing]
  refine ⟨fun hnone w hw hseq hspelled => ?_, fun hnot => ?_⟩
  · obtain ⟨hlisted, hparse, -⟩ := entryName_spec hw
    rw [(isSpelledOut_iff hparse).1 hspelled, hseq] at hlisted
    exact lookup_ne_none_of_mem (List.mem_filter.1 hlisted).1 hnone
  · by_contra hentry
    have hparse : parseName? (fileName v.seq) = some v.seq := by rw [parseName?_fileName, if_pos hn]
    have hlisted : fileName v.seq ∈ listedNames es :=
      List.mem_filter.2 ⟨mem_names_of_lookup hentry, by rw [hparse]; rfl⟩
    refine hnot ⟨v.seq, s.pathFor v.seq⟩ ?_ rfl ?_
    · rw [(s.perm_snapshotsIn es).mem_iff, List.mem_filterMap]
      exact ⟨_, hlisted, by rw [snapshotOf?, hparse]; rfl⟩
    · rw [pathFor, entryName_join s (isName_fileName _)]
      exact isSpelledOut_fileName hn

/-! ## What is listed -/

/-- What is read of the snapshots that are listed. -/
structure ReadsListed (s : SnapshotDir) (t : FileTree) (listed : List Snapshot) : Prop where
  paths : ∀ v ∈ listed, v.path = s.pathFor v.seq
  ordered : AreOrdered listed
  loads : ∀ v ∈ listed, ((s.load v.seq).on t).1 = documentAt t v
  /-- The number before another is that of a listed snapshot, and it is the greatest. -/
  previous : ∀ n k, ((s.previousBefore n).on t).1 = .ok (some k) →
    ∃ v ∈ listed, v.seq = k ∧ k < n ∧ ∀ w ∈ listed, w.seq < n → w.seq ≤ k

/-- Snapshots whose names are spelled out have different numbers. -/
theorem nodup_numbers (hnames : (es.map (·.1)).Nodup)
    (hspelled : ∀ v ∈ s.snapshotsIn es, IsSpelledOut (entryName v)) :
    ((s.snapshotsIn es).map (·.seq)).Nodup := by
  refine List.Nodup.of_map fileName ?_
  have hmap : ((s.snapshotsIn es).map (·.seq)).map fileName =
      (s.snapshotsIn es).map entryName := by
    rw [List.map_map]
    exact List.map_congr_left fun v hv =>
      ((isSpelledOut_iff (entryName_spec hv).2.1).1 (hspelled v hv)).symm
  rw [hmap, (perm_entryNames s es).nodup_iff]
  exact hnames.filter _

theorem exists_of_previousBefore (hlist : (s.list.on t).1 = .ok listed) {n k : Nat}
    (h : ((s.previousBefore n).on t).1 = .ok (some k)) :
    ∃ v ∈ listed, v.seq = k ∧ k < n ∧ ∀ w ∈ listed, w.seq < n → w.seq ≤ k := by
  have hrun : s.list.on t = (.ok listed, t) := Prod.ext hlist rfl
  rw [previousBefore, on_bind_ok hrun, on_pure, Except.ok.injEq, newest?,
    List.max?_eq_some_iff] at h
  obtain ⟨hmem, hgreatest⟩ := h
  obtain ⟨hmem, hlt⟩ := List.mem_filter.1 hmem
  obtain ⟨v, hv, rfl⟩ := List.mem_map.1 hmem
  refine ⟨v, hv, rfl, of_decide_eq_true hlt, fun w hw hwlt => hgreatest _ ?_⟩
  exact List.mem_filter.2 ⟨List.mem_map_of_mem hw, decide_eq_true hwlt⟩

/-- **What is listed is what is loaded** exactly if the names are spelled out. -/
theorem readsListed_iff {configDir : String}
    (hlist : ((below configDir).list.on t).1 = .ok listed)
    (hnames : ∀ names, (FileTree.answer (.list (below configDir).dir) t).1 = .ok names →
      names.Nodup) :
    (below configDir).ReadsListed t listed ↔ ∀ v ∈ listed, IsSpelledOut (entryName v) := by
  obtain ⟨es, hs, hes, rfl⟩ := exists_of_on_list (below_dir_ne_empty configDir) hlist
  have hdistinct : (es.map (·.1)).Nodup := by
    rcases hes with h | ⟨-, rfl⟩
    · exact hnames _ (by rw [FileTree.answer, FileTree.list_eq hs.names h])
    · exact List.nodup_nil
  refine ⟨fun h v hv => (path_eq_iff hv).1 (h.paths v hv), fun hspelled => ?_⟩
  have hpaths : ∀ v ∈ (below configDir).snapshotsIn es, v.path = (below configDir).pathFor v.seq :=
    fun v hv => (path_eq_iff hv).2 (hspelled v hv)
  exact {
    paths := hpaths
    ordered := areOrdered_snapshotsIn (nodup_numbers hdistinct hspelled)
    loads := fun v hv => on_load_of_path hs hes hv (hpaths v hv)
    previous := fun n k h => exists_of_previousBefore hlist h }

/-- A tree with one snapshot, whose name is given. -/
def namedTree (name : String) : FileTree :=
  .dir [("etc", .dir [("proxy", .dir [("snapshots", .dir [(name, .file [])])])])]

theorem on_list_namedTree {name : String} {n : Nat} (hparse : parseName? name = some n) :
    ((below "/etc/proxy").list.on (namedTree name)).1 =
      .ok [⟨n, Path.join (below "/etc/proxy").dir name⟩] := by
  have hholds : (below "/etc/proxy").Holds (namedTree name) [(name, .file [])] := rfl
  rw [on_list (isProper_below (by decide)) hholds.orAbsent, snapshotsIn, ofNames,
    List.map_singleton, List.filterMap_cons_some (by rw [hparse]; rfl), List.filterMap_nil,
    List.mergeSort_singleton]

/-- A document with an address for certificates. -/
def mailedDocument : Document := Compile.document "/data" "ops@example.org" []

/-- A tree with two snapshots, the later one first. -/
def pairTree : FileTree :=
  .dir [("etc", .dir [("proxy", .dir [("snapshots",
    .dir [(fileName 12, .file mailedDocument.pretty), ("last-good", .file []),
      (fileName 7, .file Document.empty.pretty)])])])]

theorem mergeSort_pair {α : Type} (le : α → α → Bool) (a b : α) :
    [a, b].mergeSort le = if le a b then [a, b] else [b, a] := by
  simp [List.mergeSort, List.MergeSort.Internal.splitInTwo, List.cons_merge_cons]

theorem on_list_pairTree :
    ((below "/etc/proxy").list.on pairTree).1 =
      .ok [⟨7, (below "/etc/proxy").pathFor 7⟩, ⟨12, (below "/etc/proxy").pathFor 12⟩] := by
  have hnames : [fileName 12, "last-good", fileName 7].filterMap (fun n => (parseName? n).map
      fun seq => (⟨seq, Path.join (below "/etc/proxy").dir n⟩ : Snapshot)) =
      [⟨12, (below "/etc/proxy").pathFor 12⟩, ⟨7, (below "/etc/proxy").pathFor 7⟩] := rfl
  have hlist : ((below "/etc/proxy").list.on pairTree).1 =
      .ok ((below "/etc/proxy").ofNames [fileName 12, "last-good", fileName 7]) := rfl
  rw [hlist, ofNames, hnames, mergeSort_pair]
  rfl

theorem readsListed_spelledOut :
    (below "/etc/proxy").ReadsListed pairTree
        [⟨7, (below "/etc/proxy").pathFor 7⟩, ⟨12, (below "/etc/proxy").pathFor 12⟩] ∧
      (((below "/etc/proxy").load 7).on pairTree).1 = .ok Document.empty ∧
      (((below "/etc/proxy").load 12).on pairTree).1 = .ok mailedDocument := by
  refine ⟨(readsListed_iff on_list_pairTree ?_).2 ?_, by decide +kernel, by decide +kernel⟩
  · intro names hnames
    cases hnames
    decide +kernel
  · intro v hv
    rcases List.mem_pair.1 hv with rfl | rfl
    · rw [pathFor, entryName_join _ (isName_fileName 7)]
      exact isSpelledOut_fileName (by decide)
    · rw [pathFor, entryName_join _ (isName_fileName 12)]
      exact isSpelledOut_fileName (by decide)

/-- **A snapshot is listed that is not found**, because its number is not written in twenty
digits. -/
theorem not_found_of_short :
    ∃ v, ((below "/etc/proxy").list.on (namedTree "config-5.json")).1 = .ok [v] ∧ v.seq = 5 ∧
      v.path ≠ (below "/etc/proxy").pathFor 5 ∧
      ((below "/etc/proxy").load 5).on (namedTree "config-5.json") =
        (.error (.notFound 5), namedTree "config-5.json") :=
  ⟨_, on_list_namedTree rfl, rfl, by decide, rfl⟩

end SnapshotDir
end ProxyPlane
