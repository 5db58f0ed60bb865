import ProxyPlane.Proofs.Snapshot.Directory
import Mathlib.Data.List.Sort

/-!
# Listed snapshots and the next number

The number of a new snapshot is above all that the directory says, so that its file is a new entry
and its number stands behind all that are listed.

## What is here

* `listedNames`, the names that are listed, and how `replaceFile` changes them.
* `numbersIn_replaceFile`: the new number stands behind the others.
* `nextIn`, the number of the next snapshot; `lt_nextIn` and `nextIn_le`.
-/

set_option autoImplicit false
namespace ProxyPlane
namespace SnapshotDir

variable {s : SnapshotDir} {es : Entries}

/-! ## Listed names -/

/-- The names of the snapshots among the entries. -/
def listedNames (es : Entries) : List String :=
  (es.map (·.1)).filter fun name => (parseName? name).isSome

theorem filterMap_listedNames (es : Entries) :
    (listedNames es).filterMap parseName? = (es.map (·.1)).filterMap parseName? := by
  rw [listedNames, List.filterMap_filter]
  congr 1
  funext name
  cases parseName? name <;> rfl

theorem filter_names_insertEntry {p : String → Bool} {name : String} (hp : p name = false)
    (entry : FileTree) (es : Entries) :
    ((insertEntry name entry es).map (·.1)).filter p = (es.map (·.1)).filter p := by
  induction es with
  | nil => simp [insertEntry, hp]
  | cons e rest ih =>
    obtain ⟨k, v⟩ := e
    rw [insertEntry]
    split
    · rw [List.map_cons, List.filter_cons_of_neg (by simp [hp])]
    · split
      · rename_i hk
        subst hk
        rfl
      · rw [List.map_cons, List.map_cons, List.filter_cons, List.filter_cons, ih]

theorem perm_names_insertEntry {name : String} (entry : FileTree) {es : Entries}
    (h : es.lookup name = none) :
    ((insertEntry name entry es).map (·.1)).Perm (name :: es.map (·.1)) := by
  induction es with
  | nil => exact List.Perm.refl _
  | cons e rest ih =>
    obtain ⟨k, v⟩ := e
    have hk : name ≠ k := by
      rintro rfl
      rw [lookup_cons_self] at h
      cases h
    rw [lookup_cons_of_ne hk] at h
    rw [insertEntry, if_neg hk]
    split
    · exact List.Perm.refl _
    · rw [List.map_cons, List.map_cons]
      exact ((ih h).cons k).trans (List.Perm.swap name k _)

/-- An entry that is no snapshot does not change what is listed. -/
theorem listedNames_place {name : String} (hname : parseName? name = none)
    (entry : Option FileTree) (es : Entries) :
    listedNames (FileTree.place name entry es) = listedNames es := by
  cases entry with
  | some u => exact filter_names_insertEntry (by rw [hname]; rfl) u es
  | none =>
    have hmap : (es.filter fun e => e.1 != name).map (·.1) =
        (es.map (·.1)).filter fun k => k != name := by
      rw [List.filter_map]
      rfl
    rw [FileTree.place, listedNames, hmap, List.filter_filter, listedNames]
    refine List.filter_congr fun k _ => ?_
    by_cases hk : k = name
    · subst hk
      rw [hname]
      rfl
    · rw [bne_iff_ne.2 hk, Bool.and_true]

/-- A new entry with the name of a snapshot is listed. -/
theorem perm_listedNames_place {name : String} {n : Nat} (hname : parseName? name = some n)
    (u : FileTree) {es : Entries} (h : es.lookup name = none) :
    (listedNames (FileTree.place name (some u) es)).Perm (name :: listedNames es) := by
  refine ((perm_names_insertEntry u h).filter _).trans ?_
  rw [List.filter_cons_of_pos (by rw [hname]; rfl)]
  exact List.Perm.refl _

theorem listedNames_replaceFile_marker (contents : Bytes) (es : Entries) :
    listedNames (replaceFile markerName contents es) = listedNames es := by
  rw [replaceFile, listedNames_place (parseName?_temporaryName _),
    listedNames_place parseName?_marker, listedNames_place (parseName?_temporaryName _)]

theorem perm_listedNames_replaceFile {n : Nat} (hn : n < Nat.pow 2 64) (contents : Bytes)
    {es : Entries} (h : es.lookup (fileName n) = none) :
    (listedNames (replaceFile (fileName n) contents es)).Perm (fileName n :: listedNames es) := by
  have hparse : parseName? (fileName n) = some n := by rw [parseName?_fileName, if_pos hn]
  have hfresh : (FileTree.place (temporaryName (fileName n)) (some (.file contents)) es).lookup
      (fileName n) = none := by
    rw [FileTree.lookup_place, if_neg (Ne.symm (temporaryName_ne_self _)), h]
  have hperm := perm_listedNames_place hparse (.file contents) hfresh
  rw [listedNames_place (parseName?_temporaryName _)] at hperm
  rwa [replaceFile, listedNames_place (parseName?_temporaryName _)]

/-! ## Listed numbers -/

theorem mergeSort_eq_of_perm {l l' : List Nat} (h : l.Perm l') (hsorted : l'.Pairwise (· ≤ ·)) :
    l.mergeSort = l' := by
  refine List.Perm.eq_of_pairwise (fun a b _ _ => Nat.le_antisymm)
    (List.pairwise_mergeSort' (· ≤ ·) l) hsorted ?_
  exact (List.mergeSort_perm l _).trans h

theorem numbersIn_eq (es : Entries) :
    numbersIn es = ((listedNames es).filterMap parseName?).mergeSort := by
  rw [numbersIn, numbersOf, filterMap_listedNames]

theorem numbersIn_nil : numbersIn [] = [] := List.mergeSort_nil

theorem pairwise_numbersIn (es : Entries) : (numbersIn es).Pairwise (· ≤ ·) :=
  List.pairwise_mergeSort' (· ≤ ·) _

theorem length_snapshotsIn (s : SnapshotDir) (es : Entries) :
    (s.snapshotsIn es).length = (numbersIn es).length := by
  rw [numbersIn, ← map_seq_ofNames s, List.length_map, snapshotsIn]

theorem mem_numbersIn {es : Entries} {k : Nat} :
    k ∈ numbersIn es ↔ ∃ name ∈ listedNames es, parseName? name = some k := by
  rw [numbersIn_eq, List.mem_mergeSort, List.mem_filterMap]

theorem length_numbersIn (es : Entries) : (numbersIn es).length = (listedNames es).length := by
  rw [numbersIn_eq, List.length_mergeSort, List.length_filterMap_eq_countP,
    List.countP_eq_length]
  intro name hname
  exact (List.mem_filter.1 hname).2

/-- The snapshot of a name, if it is the name of one. -/
def snapshotOf? (s : SnapshotDir) (name : String) : Option Snapshot :=
  (parseName? name).map fun seq => ⟨seq, Path.join s.dir name⟩

theorem perm_snapshotsIn (s : SnapshotDir) (es : Entries) :
    (s.snapshotsIn es).Perm ((listedNames es).filterMap s.snapshotOf?) := by
  refine (List.mergeSort_perm _ _).trans (List.Perm.of_eq ?_)
  rw [listedNames, List.filterMap_filter]
  refine List.filterMap_congr fun name _ => ?_
  rw [snapshotOf?]
  cases parseName? name <;> rfl

theorem lookup_ne_none_of_mem {name : String} (h : name ∈ es.map (·.1)) :
    es.lookup name ≠ none := by
  intro hnone
  obtain ⟨e, he, rfl⟩ := List.mem_map.1 h
  exact absurd (List.lookup_eq_none_iff.1 hnone e he) (by simp)

theorem mem_names_of_lookup {name : String} (h : es.lookup name ≠ none) :
    name ∈ es.map (·.1) := by
  by_contra hmem
  refine h (List.lookup_eq_none_iff.2 fun e he => ?_)
  have hne : name ≠ e.1 := fun heq => hmem (heq ▸ List.mem_map_of_mem he)
  simpa using hne

/-- The file of a number that is not listed is not there. -/
theorem lookup_fileName_eq_none {n : Nat} (hn : n < Nat.pow 2 64) (h : n ∉ numbersIn es) :
    es.lookup (fileName n) = none := by
  by_contra hlookup
  have hparse : parseName? (fileName n) = some n := by rw [parseName?_fileName, if_pos hn]
  refine h (mem_numbersIn.2 ⟨fileName n, ?_, hparse⟩)
  exact List.mem_filter.2 ⟨mem_names_of_lookup hlookup, by rw [hparse]; rfl⟩

/-- **The new number stands behind the others.** -/
theorem numbersIn_replaceFile {n : Nat} (hn : n < Nat.pow 2 64) (contents : Bytes)
    (h : ∀ k ∈ numbersIn es, k < n) :
    numbersIn (replaceFile (fileName n) contents es) = numbersIn es ++ [n] := by
  have hfresh := lookup_fileName_eq_none hn fun hmem => Nat.lt_irrefl n (h n hmem)
  have hperm := (perm_listedNames_replaceFile hn contents hfresh).filterMap parseName?
  rw [List.filterMap_cons_some (by rw [parseName?_fileName, if_pos hn])] at hperm
  rw [numbersIn_eq]
  refine mergeSort_eq_of_perm (hperm.trans ?_) ?_
  · have hsorted := List.mergeSort_perm ((listedNames es).filterMap parseName?) (· ≤ ·)
    rw [← numbersIn_eq] at hsorted
    exact (hsorted.symm.cons n).trans (List.perm_append_singleton n _).symm
  · rw [List.pairwise_append]
    refine ⟨pairwise_numbersIn es, List.pairwise_singleton _ _, fun a ha b hb => ?_⟩
    rw [List.mem_singleton.1 hb]
    exact Nat.le_of_lt (h a ha)

/-! ## The next number -/

/-- The number of the next snapshot. -/
def nextIn (es : Entries) (marker : Option Nat) : Nat :=
  max ((numbersIn es).getLast?.getD 0) (marker.getD 0) + 1

theorem nextSeq_eq (s : SnapshotDir) (es : Entries) (marker : Option Nat) :
    nextSeq (s.snapshotsIn es) marker = nextIn es marker := by
  rw [nextSeq, nextIn, numbersIn, snapshotsIn, ← map_seq_ofNames s, List.getLast?_map]

theorem le_getLast {l : List Nat} (h : l.Pairwise (· ≤ ·)) {k : Nat} (hk : k ∈ l) :
    k ≤ l.getLast?.getD 0 := by
  rcases List.eq_nil_or_concat l with rfl | ⟨init, last, rfl⟩
  · exact absurd hk (List.not_mem_nil)
  · rw [List.concat_eq_append] at h hk ⊢
    rw [List.getLast?_concat, Option.getD_some]
    rcases List.mem_append.1 hk with hk | hk
    · exact (List.pairwise_append.1 h).2.2 k hk last (List.mem_singleton.2 rfl)
    · exact Nat.le_of_eq (List.mem_singleton.1 hk)

/-- **The next number is above all that are listed.** -/
theorem lt_nextIn {k : Nat} (hk : k ∈ numbersIn es) (marker : Option Nat) :
    k < nextIn es marker := by
  have hle := le_getLast (pairwise_numbersIn es) hk
  rw [nextIn]
  omega

/-- The file of the next number is not there. -/
theorem lookup_nextIn_eq_none {marker : Option Nat} (hnext : nextIn es marker < Nat.pow 2 64) :
    es.lookup (fileName (nextIn es marker)) = none :=
  lookup_fileName_eq_none hnext fun hmem => Nat.lt_irrefl _ (lt_nextIn hmem marker)

/-- **The next number is above the marker.** -/
theorem marker_lt_nextIn (es : Entries) (k : Nat) : k < nextIn es (some k) := by
  rw [nextIn, Option.getD_some]
  omega

theorem nextIn_le {marker : Option Nat} (bound : Nat) (hlisted : ∀ k ∈ numbersIn es, k < bound)
    (hmarker : ∀ k, marker = some k → k < bound) (hpos : 0 < bound) :
    nextIn es marker ≤ bound := by
  have hlast : (numbersIn es).getLast?.getD 0 < bound := by
    cases h : (numbersIn es).getLast? with
    | none => exact hpos
    | some k => exact hlisted k (List.mem_of_getLast? h)
  have hgood : marker.getD 0 < bound := by
    cases marker with
    | none => exact hpos
    | some k => exact hmarker k rfl
  rw [nextIn]
  omega

theorem lt_of_mem_numbersIn {k : Nat} (hk : k ∈ numbersIn es) : k < Nat.pow 2 64 := by
  obtain ⟨name, -, hname⟩ := mem_numbersIn.1 hk
  obtain ⟨-, -, -, hlt⟩ := exists_of_parseName? hname
  exact hlt

theorem lt_of_markerOf {k : Nat} (h : s.markerOf es = .ok (some k)) : k < Nat.pow 2 64 := by
  rw [markerOf] at h
  cases hentry : es.lookup markerName with
  | none =>
    rw [hentry] at h
    cases h
  | some u =>
    rw [hentry] at h
    cases u with
    | dir entries => cases h
    | file contents =>
      simp only at h
      split at h
      · cases h
      · split at h
        · rename_i seq hseq
          cases h
          rw [Numeral.u64?, Numeral.read?, Option.filter_eq_some_iff] at hseq
          exact of_decide_eq_true hseq.2
        · cases h

end SnapshotDir
end ProxyPlane
