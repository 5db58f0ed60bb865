import ProxyPlane.Proofs.Snapshot.Interruption

/-!
# Directories whose snapshots are intact

A directory is intact if every listed snapshot has its whole document and the marker names a listed
one.  It stays intact whatever is stopped: half a file is not listed, a new snapshot has a new
number, and the one that the marker names is not removed.

## What is here

* `Intact`, for given documents that are kept under numbers and numbers that count as taken.
* `Intact.of_wrote_file`, `Intact.of_wrote_marker` and `Intact.without`: it stays so.
* `Intact.exists_markerOf` and `Intact.nextIn_le`, what can be read, and the next number.
-/

set_option autoImplicit false
namespace ProxyPlane
namespace SnapshotDir

/-- The file of a number holds a document of which something is known. -/
def HasDocument (known : Nat → Document → Prop) (es : Entries) (n : Nat) : Prop :=
  ∃ d, known n d ∧ es.lookup (fileName n) = some (.file d.pretty)

/-- Every listed snapshot has its document, and the marker names one that was taken. -/
structure Intact (kept taken : Nat → Document → Prop) (bound : Nat) (es : Entries) : Prop where
  canonical : IsCanonical es
  bounded : ∀ n ∈ numbersIn es, n ≤ bound
  documents : ∀ n ∈ numbersIn es, HasDocument kept es n
  marked : es.lookup markerName = none ∨
    ∃ n ∈ numbersIn es, HasDocument taken es n ∧
      es.lookup markerName = some (.file (Utf8.encode (Numeral.write n)))

variable {s : SnapshotDir} {kept kept' taken taken' : Nat → Document → Prop} {bound bound' n : Nat}
  {d : Document} {es es' : Entries} {marker : Option Nat}

theorem HasDocument.of_lookup_eq {known : Nat → Document → Prop} (h : HasDocument known es n)
    (hfile : es'.lookup (fileName n) = es.lookup (fileName n)) : HasDocument known es' n := by
  obtain ⟨d, hd, hlookup⟩ := h
  exact ⟨d, hd, hfile.trans hlookup⟩

theorem intact_nil : Intact kept taken bound [] where
  canonical := fun _ h => absurd h List.not_mem_nil
  bounded := by
    rw [numbersIn_nil]
    exact fun _ h => absurd h List.not_mem_nil
  documents := by
    rw [numbersIn_nil]
    exact fun _ h => absurd h List.not_mem_nil
  marked := .inl rfl

theorem IsCanonical.without (hes : IsCanonical es) (names : List String) :
    IsCanonical (without names es) := by
  intro name hname
  rw [listedNames_without] at hname
  exact hes name (List.mem_filter.1 hname).1

theorem IsCanonical.mem_numbersIn (hes : IsCanonical es) :
    n ∈ numbersIn es ↔ n < Nat.pow 2 64 ∧ fileName n ∈ listedNames es := by
  rw [SnapshotDir.mem_numbersIn]
  constructor
  · rintro ⟨name, hlisted, hparse⟩
    obtain ⟨k, rfl⟩ := hes name hlisted
    rw [parseName?_fileName, Option.ite_none_right_eq_some, Option.some.injEq] at hparse
    obtain ⟨hlimit, rfl⟩ := hparse
    exact ⟨hlimit, hlisted⟩
  · rintro ⟨hlimit, hlisted⟩
    exact ⟨fileName n, hlisted, by rw [parseName?_fileName, if_pos hlimit]⟩

theorem mem_numbersIn_without (hes : IsCanonical es) {done : List String} :
    n ∈ numbersIn (without done es) ↔ n ∈ numbersIn es ∧ fileName n ∉ done := by
  rw [(hes.without done).mem_numbersIn, hes.mem_numbersIn, listedNames_without, List.mem_filter,
    decide_eq_true_iff, and_assoc]

namespace Intact

/-- More may be kept and taken; what is kept need only be so where its file is there. -/
theorem mono (h : Intact kept taken bound es)
    (hkept : ∀ n d, es.lookup (fileName n) = some (.file d.pretty) → kept n d → kept' n d)
    (htaken : ∀ n d, taken n d → taken' n d) (hbound : bound ≤ bound') :
    Intact kept' taken' bound' es where
  canonical := h.canonical
  bounded := fun n hn => Nat.le_trans (h.bounded n hn) hbound
  documents := by
    intro n hn
    obtain ⟨d, hd, hfile⟩ := h.documents n hn
    exact ⟨d, hkept n d hfile hd, hfile⟩
  marked := by
    refine h.marked.imp id ?_
    rintro ⟨n, hn, ⟨d, hd, hfile⟩, hmarker⟩
    exact ⟨n, hn, ⟨d, htaken n d hd, hfile⟩, hmarker⟩

/-! ## What can be read -/

theorem exists_markerOf (h : Intact kept taken bound es) :
    ∃ marker, s.markerOf es = .ok marker := by
  rcases h.marked with hnone | ⟨n, hn, -, hmarker⟩
  · exact ⟨none, by rw [markerOf, hnone]⟩
  · exact ⟨some n, markerOf_of_lookup (lt_of_mem_numbersIn hn) hmarker⟩

/-- **The marker names a listed snapshot** whose document was taken. -/
theorem mem_of_markerOf (h : Intact kept taken bound es) (hmarker : s.markerOf es = .ok (some n)) :
    n ∈ numbersIn es ∧ HasDocument taken es n := by
  rcases h.marked with hnone | ⟨k, hk, htaken, hlookup⟩
  · rw [markerOf, hnone] at hmarker
    cases hmarker
  · cases (markerOf_of_lookup (lt_of_mem_numbersIn hk) hlookup).symm.trans hmarker
    exact ⟨hk, htaken⟩

theorem nextIn_le (h : Intact kept taken bound es) (hmarker : s.markerOf es = .ok marker) :
    nextIn es marker ≤ bound + 1 := by
  refine SnapshotDir.nextIn_le (bound + 1) (fun k hk => Nat.lt_succ_of_le (h.bounded k hk)) ?_
    (Nat.succ_pos bound)
  rintro k rfl
  exact Nat.lt_succ_of_le (h.bounded k (h.mem_of_markerOf hmarker).1)

/-! ## What it withstands -/

theorem of_listedNames_eq (h : Intact kept taken bound es)
    (hnames : listedNames es' = listedNames es)
    (hfile : ∀ n, es'.lookup (fileName n) = es.lookup (fileName n))
    (hmarked : es'.lookup markerName = none ∨ ∃ n ∈ numbersIn es, HasDocument taken es n ∧
      es'.lookup markerName = some (.file (Utf8.encode (Numeral.write n)))) :
    Intact kept taken bound es' := by
  have hnumbers : numbersIn es' = numbersIn es := by
    rw [numbersIn_eq, hnames, ← numbersIn_eq]
  exact {
    canonical := by
      rw [IsCanonical, hnames]
      exact h.canonical
    bounded := by
      rw [hnumbers]
      exact h.bounded
    documents := by
      rw [hnumbers]
      exact fun n hn => (h.documents n hn).of_lookup_eq (hfile n)
    marked := by
      rw [hnumbers]
      refine hmarked.imp id ?_
      rintro ⟨n, hn, hdocument, hmarker⟩
      exact ⟨n, hn, hdocument.of_lookup_eq (hfile n), hmarker⟩ }

/-- **Half a file is not seen.** -/
theorem place_temporaryName (h : Intact kept taken bound es) (name : String)
    (entry : Option FileTree) :
    Intact kept taken bound (FileTree.place (temporaryName name) entry es) := by
  refine h.of_listedNames_eq (listedNames_place (parseName?_temporaryName name) entry es)
    (fun n => ?_) ?_
  · rw [FileTree.lookup_place, if_neg (Ne.symm (temporaryName_ne_fileName name n))]
  · rw [FileTree.lookup_place, if_neg (Ne.symm (temporaryName_ne_marker name))]
    exact h.marked

/-- **A new snapshot takes the place of no other.** -/
theorem replaceFile (h : Intact kept taken bound es) (hlimit : n < Nat.pow 2 64)
    (habove : ∀ k ∈ numbersIn es, k < n) (hbound : n ≤ bound) (hkept : kept n d) :
    Intact kept taken bound (replaceFile (fileName n) d.pretty es) := by
  have hfresh := lookup_fileName_eq_none hlimit fun hmem => Nat.lt_irrefl n (habove n hmem)
  have hnumbers := numbersIn_replaceFile hlimit d.pretty habove
  -- the number is above the others, so that their files stay
  have hother : ∀ k ∈ numbersIn es, (SnapshotDir.replaceFile (fileName n) d.pretty es).lookup
      (fileName k) = es.lookup (fileName k) := fun k hk =>
    lookup_fileName_replaceFile (fun heq => Nat.ne_of_lt (habove k hk) (fileName_injective heq)) _
      es
  exact {
    canonical := by
      intro name hname
      rcases List.mem_cons.1 ((perm_listedNames_replaceFile hlimit d.pretty hfresh).mem_iff.1 hname)
        with rfl | hname
      · exact ⟨n, rfl⟩
      · exact h.canonical name hname
    bounded := by
      intro k hk
      rw [hnumbers, List.mem_append, List.mem_singleton] at hk
      rcases hk with hk | rfl
      · exact h.bounded k hk
      · exact hbound
    documents := by
      intro k hk
      rw [hnumbers, List.mem_append, List.mem_singleton] at hk
      rcases hk with hk | rfl
      · exact (h.documents k hk).of_lookup_eq (hother k hk)
      · exact ⟨d, hkept, lookup_replaceFile_self _ _ _⟩
    marked := by
      rw [lookup_marker_replaceFile, hnumbers]
      refine h.marked.imp id ?_
      rintro ⟨k, hk, hdocument, hmarker⟩
      exact ⟨k, List.mem_append_left _ hk, hdocument.of_lookup_eq (hother k hk), hmarker⟩ }

/-- **A number may be marked** if its document was taken. -/
theorem markedIn (h : Intact kept taken bound es) (hn : n ∈ numbersIn es)
    (htaken : HasDocument taken es n) : Intact kept taken bound (markedIn n es) :=
  h.of_listedNames_eq (listedNames_markedIn n es) (fun k => lookup_fileName_markedIn k n es)
    (.inr ⟨n, hn, htaken, lookup_marker_markedIn n es⟩)

/-- Wherever keeping a document is stopped. -/
theorem of_wrote_file (h : Intact kept taken bound es)
    (hwrote : Wrote (fileName (nextIn es marker)) d.pretty es es')
    (hlimit : nextIn es marker < Nat.pow 2 64) (hbound : nextIn es marker ≤ bound)
    (hkept : kept (nextIn es marker) d) : Intact kept taken bound es' := by
  cases hwrote with
  | nothing => exact h
  | part written => exact h.place_temporaryName _ _
  | whole => exact h.replaceFile hlimit (fun k hk => lt_nextIn hk marker) hbound hkept

/-- Wherever marking a number is stopped. -/
theorem of_wrote_marker (h : Intact kept taken bound es)
    (hwrote : Wrote markerName (Utf8.encode (Numeral.write n)) es es') (hn : n ∈ numbersIn es)
    (htaken : HasDocument taken es n) : Intact kept taken bound es' := by
  cases hwrote with
  | nothing => exact h
  | part written => exact h.place_temporaryName _ _
  | whole => exact h.markedIn hn htaken

/-- **Listed files may be removed**, but not the one that the marker names. -/
theorem without (h : Intact kept taken bound es) (hmarker : s.markerOf es = .ok marker)
    {done : List String} (hdone : ∀ name ∈ done, ∃ k, parseName? name = some k ∧ marker ≠ some k) :
    Intact kept taken bound (without done es) where
  canonical := h.canonical.without done
  bounded := fun n hn => h.bounded n ((mem_numbersIn_without h.canonical).1 hn).1
  documents := by
    intro n hn
    obtain ⟨hlisted, hkeep⟩ := (mem_numbersIn_without h.canonical).1 hn
    exact (h.documents n hlisted).of_lookup_eq (by rw [lookup_without, if_neg hkeep])
  marked := by
    have hkeep : markerName ∉ done := fun hmem => by
      obtain ⟨k, hk, -⟩ := hdone _ hmem
      cases parseName?_marker.symm.trans hk
    rw [lookup_without, if_neg hkeep]
    refine h.marked.imp id ?_
    rintro ⟨n, hn, hdocument, hlookup⟩
    have hlimit := lt_of_mem_numbersIn hn
    have hnamed : fileName n ∉ done := fun hmem => by
      obtain ⟨k, hk, hne⟩ := hdone _ hmem
      rw [parseName?_fileName, if_pos hlimit, Option.some.injEq] at hk
      subst hk
      rw [markerOf_of_lookup hlimit hlookup, Except.ok.injEq] at hmarker
      exact hne hmarker.symm
    exact ⟨n, (mem_numbersIn_without h.canonical).2 ⟨hn, hnamed⟩,
      hdocument.of_lookup_eq (by rw [lookup_without, if_neg hnamed]), hlookup⟩

end Intact

end SnapshotDir
end ProxyPlane
