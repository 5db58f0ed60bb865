import ProxyPlane.Proofs.Snapshot.Survivors
import ProxyPlane.Proofs.Sync.Runs

/-!
# The directory of snapshots along a run

The number of a snapshot is derived from what the directory holds, although old snapshots are
removed from it.  The newest one is never removed, so that no number is ever given twice.

## What is here

* `Numbered`, what the directory says of the numbers that were given, and `Follows.numbered`.
* `Retains`, how a cycle changes the numbers that are listed.
* `Names` and `KeepsNewest`, what can be read from the directory after a run.
* `snapshot_directory_spec`, what holds of the directory after every run.
-/

set_option autoImplicit false
namespace ProxyPlane

open SnapshotDir SnapshotProgram

section Retention

variable {σ : Type} (answers : {β : Type} → StoreOp β → σ → β × σ)

/-- The files once a cycle has marked its snapshot, or as many of its steps as it gets to. -/
def Cycle.unpruned (c : Cycle σ) : FileTree :=
  match c.rendered answers with
  | .ok d =>
    match (c.manager.snapshots.save d).on c.before.files with
    | (.ok kept, t) => c.manager.markedFiles kept.seq t
    | (.error _, t) => t
  | .error _ => c.before.files

/-- What the directory says of the numbers that were given. -/
structure Numbered (es : Entries) (issued : List Nat) : Prop where
  canonical : IsCanonical es
  nodup : (numbersIn es).Nodup
  increasing : issued.Pairwise (· < ·)
  covered : ∀ k ∈ issued, ∃ j ∈ numbersIn es, k ≤ j

/-- How a cycle changes the numbers that are listed. -/
def Retains (s : SnapshotDir) (c : Cycle σ) (es es' : Entries) : Prop :=
  if c.isTaken answers then
    ∃ unpruned n, c.issued answers = some n ∧ s.Holds (c.unpruned answers) unpruned ∧
      IsCanonical unpruned ∧ numbersIn unpruned = numbersIn es ++ [n] ∧
      numbersIn es' = newest c.manager.keep (numbersIn unpruned)
  else numbersIn es <+: numbersIn es'

variable {answers} {s : SnapshotDir} {start w : Plant σ} {past cycles : List (Cycle σ)}
  {c : Cycle σ} {es es' : Entries}

section Numbered

variable {t t' : FileTree} {d : Document} {n : Nat} {marker : Option Nat} {issued : List Nat}

theorem numbered_nil : Numbered [] [] where
  canonical := nofun
  nodup := by
    rw [numbersIn_eq, List.nodup_mergeSort]
    exact List.nodup_nil
  increasing := List.Pairwise.nil
  covered := nofun

/-- **A new snapshot has a number above all that were given.** -/
theorem Numbered.of_keeps (h : Numbered es issued) (hkeeps : s.Keeps t d n t' es marker)
    (hn : n < Nat.pow 2 64) :
    Numbered (replaceFile (fileName n) d.pretty es) (issued ++ [n]) where
  canonical := by
    intro name hname
    have hperm := perm_listedNames_replaceFile hn d.pretty (hkeeps.lookup_eq_none hn)
    rcases List.mem_cons.1 (hperm.mem_iff.1 hname) with rfl | hname
    · exact ⟨n, rfl⟩
    · exact h.canonical name hname
  nodup := by
    rw [hkeeps.numbersIn_eq hn, List.nodup_append]
    refine ⟨h.nodup, List.nodup_singleton n, fun a ha b hb => ?_⟩
    rw [List.mem_singleton.1 hb, hkeeps.seq]
    exact Nat.ne_of_lt (lt_nextIn ha marker)
  increasing := by
    rw [List.pairwise_append]
    refine ⟨h.increasing, List.pairwise_singleton _ _, fun k hk b hb => ?_⟩
    -- a number that is gone is not above one that is still listed
    obtain ⟨j, hj, hkj⟩ := h.covered k hk
    rw [List.mem_singleton.1 hb, hkeeps.seq]
    exact Nat.lt_of_le_of_lt hkj (lt_nextIn hj marker)
  covered := by
    intro k hk
    rw [hkeeps.numbersIn_eq hn]
    rcases List.mem_append.1 hk with hk | hk
    · obtain ⟨j, hj, hkj⟩ := h.covered k hk
      exact ⟨j, List.mem_append_left _ hj, hkj⟩
    · exact ⟨n, List.mem_append_right _ List.mem_cons_self, Nat.le_of_eq (List.mem_singleton.1 hk)⟩

theorem Numbered.markedIn (h : Numbered es issued) (n : Nat) :
    Numbered (markedIn n es) issued where
  canonical := by
    rw [IsCanonical, listedNames_markedIn]
    exact h.canonical
  nodup := by
    rw [numbersIn_markedIn]
    exact h.nodup
  increasing := h.increasing
  covered := by
    rw [numbersIn_markedIn]
    exact h.covered

/-- Removing snapshots does no harm as long as the newest stays. -/
theorem Numbered.without (h : Numbered es (issued ++ [n])) {gone : List Nat}
    (hn : n ∈ numbersIn (without (gone.map fileName) es)) :
    Numbered (without (gone.map fileName) es) (issued ++ [n]) where
  canonical := by
    intro name hname
    rw [listedNames_without] at hname
    exact h.canonical name (List.mem_filter.1 hname).1
  nodup := by
    rw [numbersIn_without h.canonical]
    exact h.nodup.filter _
  increasing := h.increasing
  covered := by
    intro k hk
    refine ⟨n, hn, ?_⟩
    rcases List.mem_append.1 hk with hk | hk
    · exact Nat.le_of_lt ((List.pairwise_append.1 h.increasing).2.2 k hk n List.mem_cons_self)
    · exact Nat.le_of_eq (List.mem_singleton.1 hk)

/-- **The newest snapshots remain** when one was kept and marked and old ones are removed. -/
theorem Numbered.pruned {m : SyncManager} (h : Numbered es issued)
    (hkeeps : m.snapshots.Keeps t d n t' es marker) (hn : n < Nat.pow 2 64) (hfiles : AllFiles es)
    (hkeep : 1 ≤ m.keep) :
    ∃ unpruned es', m.snapshots.Holds (m.markedFiles n t') unpruned ∧ IsCanonical unpruned ∧
      numbersIn unpruned = numbersIn es ++ [n] ∧
      m.snapshots.Holds (m.prunedFiles n t').2 es' ∧ AllFiles es' ∧
      Numbered es' (issued ++ [n]) ∧ numbersIn es' = newest m.keep (numbersIn unpruned) := by
  have hs := hkeeps.proper
  have hkept := allFiles_replaceFile hfiles (fileName n) d.pretty
  have hnumbered := (h.of_keeps hkeeps hn).markedIn n
  obtain ⟨t₁, hmark, h₁⟩ := on_markGood hs hkeeps.after (hkept.canReplace _) n
  have hmarked : m.markedFiles n t' = t₁ := by rw [SyncManager.markedFiles, hmark]
  have hnumbers : numbersIn (SnapshotDir.markedIn n (replaceFile (fileName n) d.pretty es)) =
      numbersIn es ++ [n] := by
    rw [numbersIn_markedIn, hkeeps.numbersIn_eq hn]
  have hallmarked : AllFiles (SnapshotDir.markedIn n (replaceFile (fileName n) d.pretty es)) :=
    allFiles_replaceFile hkept _ _
  obtain ⟨t₂, gone, hprune, hholds, -, hremain⟩ :=
    on_prune_newest hs h₁ hnumbered.canonical hallmarked hnumbered.nodup
      (markerOf_of_lookup hn (lookup_marker_markedIn n _)) hnumbers hkeep
  have hpruned : (m.prunedFiles n t').2 = t₂ := by
    rw [SyncManager.prunedFiles, hmarked, hprune]
  refine ⟨_, _, hmarked ▸ h₁, hnumbered.canonical, hnumbers, hpruned ▸ hholds,
    allFiles_without hallmarked _, hnumbered.without ?_, hremain⟩
  rw [hremain]
  have hmem := mem_newest_concat hkeep (numbersIn es) n
  rwa [← hnumbers] at hmem

end Numbered

theorem retains_of_untaken {failure : SyncError} (houtcome : c.outcome answers = .error failure)
    (hnumbers : numbersIn es <+: numbersIn es') : Retains answers s c es es' := by
  rw [Retains, Cycle.isTaken, houtcome]
  exact hnumbers

theorem retains_of_taken {report : ApplyReport} (houtcome : c.outcome answers = .ok report)
    (h : ∃ unpruned n, c.issued answers = some n ∧ s.Holds (c.unpruned answers) unpruned ∧
      IsCanonical unpruned ∧ numbersIn unpruned = numbersIn es ++ [n] ∧
      numbersIn es' = newest c.manager.keep (numbersIn unpruned)) : Retains answers s c es es' := by
  rw [Retains, Cycle.isTaken, houtcome]
  exact h

/-- **One more cycle.**  Numbers go on increasing, and what is listed changes as it should. -/
theorem Follows.numbered (h : Follows answers s start past w c) (htidy : Tidy s w.files es)
    (hnumbered : Numbered es (past.filterMap fun c => c.issued answers))
    (hlimit : ∀ n, c.issued answers = some n → n < Nat.pow 2 64) :
    ∃ es', Tidy s (c.after answers).files es' ∧
      Numbered es' ((past ++ [c]).filterMap fun c => c.issued answers) ∧
      Retains answers s c es es' := by
  rw [List.filterMap_append]
  obtain ⟨outcome, w', houtcome, hafter, hends⟩ := c.ends answers
  rw [hafter]
  obtain ⟨-, hdir, hkeep, hfiles, -⟩ := h
  subst hdir
  rw [← hfiles] at htidy
  -- a number is issued just if the document was kept, and then by the one file that is new
  cases hends with
  | @unrendered e _ hrender hrendering =>
    have hissued : c.issued answers = none := by rw [Cycle.issued, Cycle.rendered, hrender]
    rw [List.filterMap_cons_none hissued, List.filterMap_nil, List.append_nil]
    exact ⟨es, htidy, hnumbered, retains_of_untaken houtcome (List.prefix_refl _)⟩
  | @unsaved d _ cause t hrender hrendering hsave =>
    have hissued : c.issued answers = none :=
      Cycle.issued_eq answers (by rw [Cycle.rendered, hrender]) hsave
    rw [List.filterMap_cons_none hissued, List.filterMap_nil, List.append_nil]
    exact ⟨es, htidy.of_on_save_error hsave, hnumbered,
      retains_of_untaken houtcome (List.prefix_refl _)⟩
  | @taken d _ kept t hrender hrendering hsave hpush =>
    have hrendered : c.rendered answers = .ok d := by rw [Cycle.rendered, hrender]
    have hissued := Cycle.issued_eq answers hrendered hsave
    rw [List.filterMap_cons_some hissued, List.filterMap_nil]
    obtain ⟨n, marker, rfl, hkeeps, -⟩ := htidy.keeps_of_on_save hsave
    obtain ⟨unpruned, es', hunpruned, hcanonical, hnumbers, hholds, hfiles', hnumbered', hnewest⟩ :=
      hnumbered.pruned hkeeps (hlimit n hissued) htidy.files hkeep
    refine ⟨es', ⟨htidy.proper, hholds.orAbsent, hholds.canMake, hfiles'⟩, hnumbered',
      retains_of_taken houtcome ⟨unpruned, n, hissued, ?_, hcanonical, hnumbers, hnewest⟩⟩
    rw [Cycle.unpruned, hrendered]
    simp only [hsave]
    exact hunpruned
  | @untaken d _ kept t e r p hrender hrendering hsave hpush hback =>
    have hrendered : c.rendered answers = .ok d := by rw [Cycle.rendered, hrender]
    have hissued := Cycle.issued_eq answers hrendered hsave
    rw [List.filterMap_cons_some hissued, List.filterMap_nil]
    obtain ⟨n, marker, rfl, hkeeps, -⟩ := htidy.keeps_of_on_save hsave
    have hn := hlimit n hissued
    refine ⟨_, hkeeps.tidy htidy.files, hnumbered.of_keeps hkeeps hn,
      retains_of_untaken houtcome ?_⟩
    rw [hkeeps.numbersIn_eq hn]
    exact List.prefix_append _ _

/-- After every run, the numbers are as they should be. -/
theorem IsRun.numbered (h : IsRun answers s start cycles w) (htidy : Tidy s start.files [])
    (hlimit : ∀ c ∈ cycles, ∀ n, c.issued answers = some n → n < Nat.pow 2 64) :
    ∃ es, Tidy s w.files es ∧ Numbered es (cycles.filterMap fun c => c.issued answers) := by
  induction h with
  | nil => exact ⟨[], htidy, numbered_nil⟩
  | @snoc past w c hpast hdir hkeep hfiles hrunning ih =>
    obtain ⟨es, hes, hnumbered⟩ := ih fun x hx => hlimit x (List.mem_append_left _ hx)
    have hfollows : Follows answers s start past w c := ⟨hpast, hdir, hkeep, hfiles, hrunning⟩
    obtain ⟨es', hes', hnumbered', -⟩ :=
      hfollows.numbered hes hnumbered (hlimit c (by simp))
    exact ⟨es', hes', hnumbered'⟩

/-! ## What is read after a run -/

variable (answers)

/-- The directory names a cycle: the marker is the number of its snapshot, which is still listed,
and the document that it sent is read back. -/
structure Names (s : SnapshotDir) (t : FileTree) (g : Cycle σ) (report : ApplyReport)
    (d : Document) (listed : List Snapshot) : Prop where
  outcome : g.outcome answers = .ok report
  lastGood : (s.lastGood.on t).1 = .ok (some report.snapshotSeq)
  list : (s.list.on t).1 = .ok listed
  listed : ⟨report.snapshotSeq, s.pathFor report.snapshotSeq⟩ ∈ listed
  load : ((s.load report.snapshotSeq).on t).1 = .ok d
  sent : g.sent answers = [g.manager.client.loadRequest d]

/-- What a cycle does to the snapshots that are listed: if its document was taken, then the newest
of those that were listed before it pruned remain; if not, then none is removed. -/
def KeepsNewest (s : SnapshotDir) (c : Cycle σ) : Prop :=
  ∃ before after, (s.list.on c.before.files).1 = .ok before ∧
    (s.list.on (c.after answers).files).1 = .ok after ∧
    if c.isTaken answers then
      ∃ unpruned n, c.issued answers = some n ∧
        (s.list.on (c.unpruned answers)).1 = .ok unpruned ∧
        unpruned = before ++ [⟨n, s.pathFor n⟩] ∧ after = newest c.manager.keep unpruned ∧
        after.length = min unpruned.length c.manager.keep
    else before <+: after

variable {answers}

theorem mem_of_lastTaken? {g : Cycle σ} (h : lastTaken? answers cycles = some g) : g ∈ cycles :=
  (List.mem_filter.1 (List.mem_of_getLast? h)).1

theorem lastTaken?_eq_none :
    lastTaken? answers cycles = none ↔ ∀ c ∈ cycles, c.isTaken answers = false := by
  rw [lastTaken?, List.getLast?_eq_none_iff, List.filter_eq_nil_iff]
  simp only [Bool.not_eq_true]

/-- **What the directory remembers can be read from it.** -/
theorem Remembered.names {g : Cycle σ} {d : Document} {n : Nat} {t : FileTree}
    (h : Remembered answers g es n d) (htidy : Tidy s t es) (hcanonical : IsCanonical es)
    (hn : n < Nat.pow 2 64) : ∃ report listed, Names answers s t g report d listed := by
  obtain ⟨report, houtcome, hseq⟩ := h.outcome
  have hmem : n ∈ numbersIn es := by
    by_contra hnot
    cases h.file.symm.trans (lookup_fileName_eq_none hn hnot)
  refine ⟨report, s.snapshotsIn es, ?_⟩
  exact {
    outcome := houtcome
    lastGood := by rw [on_lastGood htidy.proper htidy.entries, hseq, markerOf_of_lookup hn h.marker]
    list := by rw [on_list htidy.proper htidy.entries]
    listed := by
      rw [hseq, hcanonical.snapshotsIn_eq s]
      exact List.mem_map_of_mem hmem
    load := by
      rw [hseq, SnapshotDir.on_load htidy.proper htidy.entries h.small,
        documentOf_of_lookup h.readable h.file]
    sent := h.sent }

/-- There is no marker exactly as long as no document was taken. -/
theorem Remembers.lastGood_iff {last : Option (Cycle σ)} {t : FileTree}
    (h : Remembers answers es last) (htidy : Tidy s t es)
    (hsmall : ∀ g ∈ last, ∀ n, g.issued answers = some n → n < Nat.pow 2 64) :
    (s.lastGood.on t).1 = .ok none ↔ last = none := by
  rw [on_lastGood htidy.proper htidy.entries]
  cases last with
  | none =>
    refine iff_of_true ?_ rfl
    rw [markerOf, show es.lookup markerName = none from h]
  | some g =>
    obtain ⟨n, d, hremembered⟩ := h
    refine iff_of_false (fun hnone => ?_) (Option.some_ne_none g)
    rw [markerOf_of_lookup (hsmall g rfl n hremembered.issued) hremembered.marker] at hnone
    cases hnone

/-- What a cycle does to the numbers it does to the snapshots. -/
theorem Retains.keepsNewest (h : Retains answers s c es es') (hbefore : Tidy s c.before.files es)
    (hafter : Tidy s (c.after answers).files es') (hes : IsCanonical es) (hes' : IsCanonical es') :
    KeepsNewest answers s c := by
  refine ⟨s.snapshotsIn es, s.snapshotsIn es', by rw [on_list hbefore.proper hbefore.entries],
    by rw [on_list hafter.proper hafter.entries], ?_⟩
  rw [Retains] at h
  by_cases htaken : c.isTaken answers
  · rw [if_pos htaken] at h ⊢
    obtain ⟨unpruned, n, hissued, hholds, hcanonical, hnumbers, hnewest⟩ := h
    have hlisted : s.snapshotsIn es' = newest c.manager.keep (s.snapshotsIn unpruned) := by
      rw [hes'.snapshotsIn_eq, hcanonical.snapshotsIn_eq, hnewest, map_newest]
    refine ⟨s.snapshotsIn unpruned, n, hissued, by rw [on_list hbefore.proper hholds.orAbsent], ?_,
      hlisted, by rw [hlisted, length_newest]⟩
    rw [hcanonical.snapshotsIn_eq, hes.snapshotsIn_eq, hnumbers, List.map_append,
      List.map_singleton]
  · rw [if_neg htaken] at h ⊢
    rw [hes.snapshotsIn_eq, hes'.snapshotsIn_eq]
    exact h.map _

/-- Every cycle of a run. -/
theorem IsRun.keepsNewest (hrun : IsRun answers s start cycles w) (htidy : Tidy s start.files [])
    (hlimit : ∀ c ∈ cycles, ∀ n, c.issued answers = some n → n < Nat.pow 2 64)
    {later : List (Cycle σ)} (hcycles : cycles = past ++ c :: later) :
    KeepsNewest answers s c := by
  obtain ⟨w₀, hfollows⟩ := hrun.exists_follows hcycles
  obtain ⟨es, hes, hnumbered⟩ :=
    hfollows.run.numbered htidy fun x hx => hlimit x (by simp [hcycles, hx])
  obtain ⟨es', hes', hnumbered', hretains⟩ :=
    hfollows.numbered hes hnumbered (hlimit c (by simp [hcycles]))
  have hbefore : Tidy s c.before.files es := by rwa [hfollows.files]
  exact hretains.keepsNewest hbefore hes' hnumbered.canonical hnumbered'.canonical

/-- **The directory of snapshots along a run.**  Over a directory that is not there at first and
that only cycles write, numbers only increase; the marker, the list and the files name the last
cycle whose document was taken; and each such cycle keeps the newest snapshots, while no other
removes any. -/
theorem snapshot_directory_spec {configDir : String}
    (habsent : (FileTree.answer (.isPresent (SnapshotDir.below configDir).dir) start.files).1 =
      false)
    (hmake : (FileTree.answer (.makeDirs (SnapshotDir.below configDir).dir) start.files).1 = .ok ())
    (hrun : IsRun answers (SnapshotDir.below configDir) start cycles w)
    (hlimit : ∀ c ∈ cycles, ∀ n, c.issued answers = some n → n < Nat.pow 2 64) :
    (cycles.filterMap fun c => c.issued answers).Pairwise (· < ·) ∧
    (((SnapshotDir.below configDir).lastGood.on w.files).1 = .ok none ↔
      ∀ c ∈ cycles, c.isTaken answers = false) ∧
    (∀ g, lastTaken? answers cycles = some g → ∃ report d listed,
      Names answers (SnapshotDir.below configDir) w.files g report d listed) ∧
    ∀ past c later, cycles = past ++ c :: later →
      KeepsNewest answers (SnapshotDir.below configDir) c := by
  have htidy := tidy_of_absent (below_dir_ne_empty configDir) habsent hmake
  obtain ⟨es, hes, hnumbered⟩ := hrun.numbered htidy hlimit
  obtain ⟨es', hes', hremembers⟩ := hrun.remembers htidy
  obtain rfl : es = es' := hes.entries.unique hes'.entries
  refine ⟨hnumbered.increasing, ?_, fun g hg => ?_, fun past c later hcycles =>
    hrun.keepsNewest htidy hlimit hcycles⟩
  · rw [← lastTaken?_eq_none]
    exact hremembers.lastGood_iff hes fun g hg => hlimit g (mem_of_lastTaken? hg)
  · rw [hg] at hremembers
    obtain ⟨n, d, hremembered⟩ := hremembers
    have hn := hlimit g (mem_of_lastTaken? hg) n hremembered.issued
    obtain ⟨report, listed, hnames⟩ := hremembered.names hes hnumbered.canonical hn
    exact ⟨report, d, listed, hnames⟩

theorem snapshot_directory_spec_secondCycle :
    [firstCycle, secondCycle].filterMap (fun c => c.issued MemoryStore.answer) = [1, 2] ∧
      ([firstCycle, secondCycle].filterMap fun c => c.issued MemoryStore.answer).Pairwise
        (· < ·) ∧
      ((SnapshotDir.below "/etc/proxy").lastGood.on
        (secondCycle.after MemoryStore.answer).files).1 ≠ .ok none ∧
      (∃ report d listed, Names MemoryStore.answer (SnapshotDir.below "/etc/proxy")
        (secondCycle.after MemoryStore.answer).files firstCycle report d listed) ∧
      KeepsNewest MemoryStore.answer (SnapshotDir.below "/etc/proxy") firstCycle ∧
      KeepsNewest MemoryStore.answer (SnapshotDir.below "/etc/proxy") secondCycle := by
  obtain ⟨huntaken, hissued⟩ := untaken_secondCycle
  have hlimit : ∀ c ∈ [firstCycle, secondCycle], ∀ n, c.issued MemoryStore.answer = some n →
      n < Nat.pow 2 64 := by
    intro c hc n hn
    rcases List.mem_pair.1 hc with rfl | rfl
    · rw [← Option.some.inj (issued_firstCycle.symm.trans hn)]
      decide
    · rw [← Option.some.inj (hissued.symm.trans hn)]
      decide
  obtain ⟨hincreasing, hnone, hnames, hkeeps⟩ := snapshot_directory_spec absent_ofFiles_empty
    makeDirs_ofFiles_empty isRun_secondCycle hlimit
  have hlast : lastTaken? MemoryStore.answer [firstCycle, secondCycle] = some firstCycle := by
    rw [← List.nil_append [firstCycle, secondCycle]]
    refine lastTaken?_split isTaken_firstCycle fun c hc => ?_
    rw [List.mem_singleton.1 hc, huntaken]
  refine ⟨?_, hincreasing, fun hgood => ?_, hnames firstCycle hlast, hkeeps [] firstCycle _ rfl,
    hkeeps [firstCycle] secondCycle [] rfl⟩
  · simp [issued_firstCycle, hissued]
  · have hfirst := hnone.1 hgood firstCycle List.mem_cons_self
    exact absurd (hfirst.symm.trans isTaken_firstCycle) Bool.false_ne_true

end Retention
end ProxyPlane
