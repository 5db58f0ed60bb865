import ProxyPlane.Proofs.Snapshot.Integrity
import ProxyPlane.Proofs.Sync.Interruption
import ProxyPlane.Proofs.Sync.Runs

/-!
# What is found after an interruption

Cycles follow each other over one directory of snapshots, and any of them may have been stopped.
Whatever they left, everything that is listed can be read and the next cycle can go on.

## What is here

* `Attempt`, a cycle that may have been stopped, and `IsHistory`, attempts that follow each other;
  `IsRun.isHistory`, for those that were not stopped.
* `Attempt.Keeps` and `Attempt.IsTaken`, what an attempt left and what was answered.
* `IsHistory.intact`: the directory is intact after every history.
* `recoverable_after_interruption`, what is read from it, and the next number.
-/

set_option autoImplicit false
namespace ProxyPlane

open SnapshotDir SnapshotProgram

section Recovery

variable {σ : Type}

/-! ## Attempts -/

/-- A cycle that may have been stopped, the exchanges until then, and what it left. -/
structure Attempt (σ : Type) where
  cycle : Cycle σ
  heard : List Exchange
  left : Plant σ

variable (answers : {β : Type} → StoreOp β → σ → β × σ)

/-- Attempts that follow each other over a directory, each of them stopped anywhere or not at all,
and what there is after them. -/
inductive IsHistory (s : SnapshotDir) (start : Plant σ) : List (Attempt σ) → Plant σ → Prop
  | nil : IsHistory s start [] start
  | snoc {past : List (Attempt σ)} {w : Plant σ} (a : Attempt σ) (hpast : IsHistory s start past w)
    (hdir : a.cycle.manager.snapshots = s) (hfiles : a.cycle.before.files = w.files)
    (hleaves : SyncProgram.Leaves answers a.cycle.manager.apply a.cycle.before a.heard a.left) :
    IsHistory s start (past ++ [a]) a.left

/-- A cycle that came to its end. -/
def Cycle.attempt (c : Cycle σ) : Attempt σ :=
  ⟨c, c.manager.apply.trace (Plant.answer answers) SyncOp.heard c.before, c.after answers⟩

/-- The attempt left a snapshot with this number and the document that its cycle had rendered. -/
structure Attempt.Keeps (s : SnapshotDir) (a : Attempt σ) (n : Nat) (d : Document) : Prop where
  rendered : a.cycle.rendered answers = .ok d
  valid : validate d = .ok ()
  issued : a.cycle.issued answers = some n
  loaded : ((s.load n).on a.left.files).1 = .ok d

/-- The attempt sent the document of its cycle, to be kept under this number, and was answered with
success. -/
structure Attempt.IsTaken (a : Attempt σ) (n : Nat) (d : Document) : Prop where
  rendered : a.cycle.rendered answers = .ok d
  issued : a.cycle.issued answers = some n
  answered : ∃ response later,
    a.heard = (a.cycle.manager.client.loadRequest d, .ok response) :: later ∧
      HttpStatus.isSuccess response.status = true

/-- Some attempt kept the document under this number. -/
def KeptBy (s : SnapshotDir) (attempts : List (Attempt σ)) (n : Nat) (d : Document) : Prop :=
  ∃ a ∈ attempts, a.Keeps answers s n d

/-- The document of this number was taken from some attempt. -/
def TakenFrom (attempts : List (Attempt σ)) (n : Nat) (d : Document) : Prop :=
  ∃ a ∈ attempts, a.IsTaken answers n d

variable {answers} {s : SnapshotDir} {start w : Plant σ} {attempts past : List (Attempt σ)}
  {a : Attempt σ} {t t' : FileTree} {es : Entries} {d : Document} {n bound : Nat}
  {kept taken : Nat → Document → Prop}

/-- **A run is a history** in which nothing was stopped. -/
theorem IsRun.isHistory {cycles : List (Cycle σ)} (h : IsRun answers s start cycles w) :
    IsHistory answers s start (cycles.map fun c => c.attempt answers) w := by
  induction h with
  | nil => exact .nil
  | snoc c hpast hdir hkeep hfiles hrunning ih =>
    rw [List.map_append]
    exact .snoc (c.attempt answers) ih hdir hfiles (Program.stops_run _ _)

theorem IsHistory.leaves (h : IsHistory answers s start attempts w) (ha : a ∈ attempts) :
    SyncProgram.Leaves answers a.cycle.manager.apply a.cycle.before a.heard a.left := by
  induction h with
  | nil => exact absurd ha List.not_mem_nil
  | snoc b hpast hdir hfiles hleaves ih =>
    rcases List.mem_append.1 ha with ha | ha
    · exact ih ha
    · rw [List.mem_singleton.1 ha]
      exact hleaves

theorem IsRendering.valid {m : SyncManager} (h : IsRendering m (.ok d)) : validate d = .ok () := by
  obtain ⟨records, email, h⟩ := h
  rw [SyncManager.documentOf] at h
  split at h
  · cases h
  · split at h
    · cases h
    · rename_i hvalid
      cases h
      exact hvalid

/-! ## The directory along a history -/

/-- **Keeping a document** leaves the directory intact wherever it is stopped. -/
theorem Tidy.intact_of_leaves_save (htidy : Tidy s t es) (h : Intact kept taken bound es)
    (hlimit : bound + 1 < Nat.pow 2 64) (hleaves : (s.save d).Leaves t t') :
    ∃ n t₁ es', (s.save d).on t = (.ok ⟨n, s.pathFor n⟩, t₁) ∧ Tidy s t' es' ∧
      Intact (fun k d' => kept k d' ∨ k = n ∧ d' = d) taken (bound + 1) es' := by
  obtain ⟨marker, hmarker⟩ := h.exists_markerOf (s := s)
  have hbound := h.nextIn_le hmarker
  have hnext := Nat.lt_of_le_of_lt hbound hlimit
  obtain ⟨t₁, hsave, -⟩ := on_save_ok htidy.proper htidy.entries htidy.canMake hmarker
    (Nat.le_of_lt hnext) (htidy.files.canReplace _) d
  obtain ⟨es', hholds, hcan, hwrote⟩ := exists_of_leaves_save htidy.proper htidy.entries
    htidy.canMake htidy.files hmarker (Nat.le_of_lt hnext) hleaves
  refine ⟨_, t₁, es', hsave, ⟨htidy.proper, hholds, hcan, hwrote.allFiles htidy.files⟩, ?_⟩
  exact (h.mono (fun _ _ _ => Or.inl) (fun _ _ => id) (Nat.le_succ bound)).of_wrote_file hwrote
    hnext hbound (.inr ⟨rfl, rfl⟩)

/-- **Marking a snapshot and removing old ones** leaves the directory intact wherever it is
stopped, since the mark comes first. -/
theorem intact_of_leaves_finish (hs : s.IsProper) (hholds : s.Holds t es) (hfiles : AllFiles es)
    (h : Intact kept taken bound es) (hn : n ∈ numbersIn es) (htaken : HasDocument taken es n)
    {keep : Nat}
    (hleaves : (s.markGood n).Leaves t t' ∨ (s.prune keep).Leaves ((s.markGood n).on t).2 t') :
    ∃ es', Tidy s t' es' ∧ Intact kept taken bound es' := by
  rcases hleaves with hmarking | hpruning
  · obtain ⟨es', hholds', hwrote⟩ := exists_of_leaves_markGood hs hholds hfiles hmarking
    exact ⟨es', ⟨hs, hholds'.orAbsent, hholds'.canMake, hwrote.allFiles hfiles⟩,
      h.of_wrote_marker hwrote hn htaken⟩
  · obtain ⟨t₁, hmark, hmarked⟩ := on_markGood hs hholds (hfiles.canReplace _) n
    rw [hmark] at hpruning
    have hmarker : s.markerOf (markedIn n es) = .ok (some n) :=
      markerOf_of_lookup (lt_of_mem_numbersIn hn) (lookup_marker_markedIn n es)
    obtain ⟨done, hpruned, hdone⟩ := exists_of_leaves_prune hs hmarked hmarker hpruning
    exact ⟨_, ⟨hs, hpruned.orAbsent, hpruned.canMake,
      allFiles_without (allFiles_replaceFile hfiles _ _) done⟩,
      (h.markedIn hn htaken).without hmarker hdone⟩

/-- A document whose file an attempt left was kept by it. -/
theorem SnapshotDir.Intact.keptBy {es' : Entries}
    (h : Intact (fun k d' => KeptBy answers s past k d' ∨ k = n ∧ d' = d) taken bound es')
    (htidy : Tidy s a.left.files es') {m : SyncManager} (hrendering : IsRendering m (.ok d))
    (hrendered : a.cycle.rendered answers = .ok d) (hissued : a.cycle.issued answers = some n)
    (hlimit : n ≤ Nat.pow 2 64)
    (htaken : ∀ k d', taken k d' → TakenFrom answers (past ++ [a]) k d') :
    Intact (KeptBy answers s (past ++ [a])) (TakenFrom answers (past ++ [a])) bound es' := by
  refine h.mono (fun k d' hfile hkept => ?_) htaken (Nat.le_refl bound)
  rcases hkept with ⟨b, hb, hkeeps⟩ | ⟨rfl, rfl⟩
  · exact ⟨b, List.mem_append_left _ hb, hkeeps⟩
  · refine ⟨a, by simp, hrendered, hrendering.valid, hissued, ?_⟩
    rw [SnapshotDir.on_load htidy.proper htidy.entries hlimit,
      documentOf_of_lookup hrendering.decode_pretty hfile]

theorem TakenFrom.append (h : TakenFrom answers past n d) :
    TakenFrom answers (past ++ [a]) n d := by
  obtain ⟨b, hb, htaken⟩ := h
  exact ⟨b, List.mem_append_left _ hb, htaken⟩

theorem Cycle.issued_of_render {c : Cycle σ} {v : σ} {r : Except SnapshotError Snapshot}
    (hrender : c.manager.render.run (Plant.answer answers) c.before =
      (.ok d, { c.before with store := v }))
    (hsave : (c.manager.snapshots.save d).on c.before.files = (r, t)) :
    c.rendered answers = .ok d ∧ c.issued answers = r.toOption.map (·.seq) := by
  have hrendered : c.rendered answers = .ok d := by rw [Cycle.rendered, hrender]
  exact ⟨hrendered, Cycle.issued_eq answers hrendered hsave⟩

/-- An attempt that was stopped while it kept its document, or later without touching a file. -/
theorem Attempt.intact_of_kept {v : σ}
    (hrender : a.cycle.manager.render.run (Plant.answer answers) a.cycle.before =
      (.ok d, { a.cycle.before with store := v }))
    (hrendering : IsRendering a.cycle.manager (.ok d))
    (htidy : Tidy a.cycle.manager.snapshots a.cycle.before.files es)
    (h : Intact (KeptBy answers a.cycle.manager.snapshots past) (TakenFrom answers past) past.length
      es)
    (hlimit : past.length + 1 < Nat.pow 2 64)
    (hleaves : (a.cycle.manager.snapshots.save d).Leaves a.cycle.before.files a.left.files) :
    ∃ es', Tidy a.cycle.manager.snapshots a.left.files es' ∧
      Intact (KeptBy answers a.cycle.manager.snapshots (past ++ [a]))
        (TakenFrom answers (past ++ [a])) (past.length + 1) es' := by
  obtain ⟨n, t₁, es', hsave, htidy', hintact⟩ := htidy.intact_of_leaves_save h hlimit hleaves
  obtain ⟨hrendered, hissued⟩ := Cycle.issued_of_render hrender hsave
  obtain ⟨n', marker, hn', -, hsmall⟩ := htidy.keeps_of_on_save hsave
  cases hn'
  exact ⟨es', htidy', hintact.keptBy htidy' hrendering hrendered hissued hsmall
    fun _ _ => TakenFrom.append⟩

/-- An attempt that was stopped after its document was taken. -/
theorem Attempt.intact_of_taken {v : σ} {k : Snapshot} {t₁ : FileTree}
    {later : List Exchange}
    (hrender : a.cycle.manager.render.run (Plant.answer answers) a.cycle.before =
      (.ok d, { a.cycle.before with store := v }))
    (hrendering : IsRendering a.cycle.manager (.ok d))
    (htidy : Tidy a.cycle.manager.snapshots a.cycle.before.files es)
    (h : Intact (KeptBy answers a.cycle.manager.snapshots past) (TakenFrom answers past) past.length
      es)
    (hlimit : past.length + 1 < Nat.pow 2 64)
    (hsave : (a.cycle.manager.snapshots.save d).on a.cycle.before.files = (.ok k, t₁))
    (hheard : a.heard =
      (a.cycle.manager.client.loadRequest d, a.cycle.before.proxy.reply) :: later)
    (hpush : AdminClient.verdict a.cycle.before.proxy.reply = .ok ())
    (hleaves : (a.cycle.manager.snapshots.markGood k.seq).Leaves t₁ a.left.files ∨
      (a.cycle.manager.snapshots.prune a.cycle.manager.keep).Leaves
        (a.cycle.manager.markedFiles k.seq t₁) a.left.files) :
    ∃ es', Tidy a.cycle.manager.snapshots a.left.files es' ∧
      Intact (KeptBy answers a.cycle.manager.snapshots (past ++ [a]))
        (TakenFrom answers (past ++ [a])) (past.length + 1) es' := by
  have hend := leaves_on (a.cycle.manager.snapshots.save d) a.cycle.before.files
  obtain ⟨n, t₂, es₁, hsave₁, htidy₁, hintact⟩ := htidy.intact_of_leaves_save h hlimit hend
  obtain ⟨n', marker, rfl, hkeeps, hsmall⟩ := htidy.keeps_of_on_save hsave
  cases hsave.symm.trans hsave₁
  obtain ⟨hrendered, hissued⟩ := Cycle.issued_of_render hrender hsave
  rw [hsave] at htidy₁
  obtain rfl := htidy₁.entries.unique hkeeps.after.orAbsent
  have hbound := h.nextIn_le hkeeps.marked
  rw [← hkeeps.seq] at hbound
  have hlisted : n ∈ numbersIn (replaceFile (fileName n) d.pretty es) := by
    rw [hkeeps.numbersIn_eq (Nat.lt_of_le_of_lt hbound hlimit)]
    exact List.mem_append_right _ List.mem_cons_self
  obtain ⟨response, hreply, hstatus⟩ := AdminClient.verdict_eq_ok.1 hpush
  have htaken : a.IsTaken answers n d :=
    ⟨hrendered, hissued, response, later, by rw [hheard, hreply], hstatus⟩
  -- the marker may name the new number from here on, for its document was kept and taken
  obtain ⟨es', htidy', hfinal⟩ := intact_of_leaves_finish htidy.proper hkeeps.after htidy₁.files
    (hintact.mono (fun _ _ _ => id) (fun _ _ => TakenFrom.append (a := a)) (Nat.le_refl _)) hlisted
    ⟨d, ⟨a, by simp, htaken⟩, lookup_replaceFile_self _ _ _⟩ hleaves
  exact ⟨es', htidy', hfinal.keptBy htidy' hrendering hrendered hissued hsmall fun _ _ => id⟩

/-- **One more attempt**, wherever it was stopped. -/
theorem Halts.intact {c : Cycle σ} {heard : List Exchange} {left : Plant σ}
    (hhalts : Halts answers c.manager c.before heard left)
    (htidy : Tidy c.manager.snapshots c.before.files es)
    (h : Intact (KeptBy answers c.manager.snapshots past) (TakenFrom answers past) past.length es)
    (hlimit : past.length + 1 < Nat.pow 2 64) :
    ∃ es', Tidy c.manager.snapshots left.files es' ∧
      Intact (KeptBy answers c.manager.snapshots (past ++ [⟨c, heard, left⟩]))
        (TakenFrom answers (past ++ [⟨c, heard, left⟩])) (past.length + 1) es' := by
  cases hhalts with
  | unrendered hfiles haudit =>
    refine ⟨es, by rwa [hfiles], h.mono (fun k d _ hkept => ?_) (fun _ _ => TakenFrom.append)
      (Nat.le_succ _)⟩
    obtain ⟨b, hb, hkeeps⟩ := hkept
    exact ⟨b, List.mem_append_left _ hb, hkeeps⟩
  | unanswered hrender hrendering hleaves haudit =>
    exact Attempt.intact_of_kept (a := ⟨c, [], left⟩) hrender hrendering htidy h hlimit
      hleaves
  | taken hrender hrendering hsave hpush hfinish =>
    exact Attempt.intact_of_taken (a := ⟨c, _, left⟩) hrender hrendering htidy h hlimit
      hsave rfl hpush hfinish
  | untaken hrender hrendering hleaves =>
    exact Attempt.intact_of_kept (a := ⟨c, _, left⟩) hrender hrendering htidy h hlimit
      hleaves

/-- **After every history the directory is intact.** -/
theorem IsHistory.intact (h : IsHistory answers s start attempts w) (htidy : Tidy s start.files [])
    (hlimit : attempts.length < Nat.pow 2 64) :
    ∃ es, Tidy s w.files es ∧ Intact (KeptBy answers s attempts) (TakenFrom answers attempts)
      attempts.length es := by
  induction h with
  | nil => exact ⟨[], htidy, intact_nil⟩
  | snoc a hpast hdir hfiles hleaves ih =>
    rw [List.length_append, List.length_singleton] at hlimit ⊢
    obtain ⟨es, hes, hintact⟩ := ih (Nat.lt_of_succ_lt hlimit)
    subst hdir
    rw [← hfiles] at hes
    exact (halts_apply hleaves).intact hes hintact hlimit

/-- **No row of the audit** is written before the proxy answered. -/
theorem audit_of_leaves {m : SyncManager} {w w' : Plant σ}
    (h : SyncProgram.Leaves answers m.apply w [] w') : w'.audit = w.audit := by
  generalize hheard : ([] : List Exchange) = heard at h
  cases halts_apply h with
  | unrendered hfiles haudit => exact haudit
  | unanswered hrender hrendering hleaves haudit => exact haudit
  | taken hrender hrendering hsave hpush hfinish => cases hheard
  | untaken hrender hrendering hleaves => cases hheard

/-! ## What is read after an interruption -/

variable (answers)

/-- What is read from a directory after some attempts: all that is listed can be loaded, the marker
names a listed snapshot that was taken, and another document can be kept under a new number. -/
structure Recoverable (s : SnapshotDir) (attempts : List (Attempt σ)) (t : FileTree)
    (listed : List Snapshot) (marker : Option Nat) : Prop where
  list : (s.list.on t).1 = .ok listed
  load : ∀ v ∈ listed, ∃ d, ((s.load v.seq).on t).1 = .ok d ∧ KeptBy answers s attempts v.seq d
  lastGood : (s.lastGood.on t).1 = .ok marker
  marked : ∀ n, marker = some n → (∃ v ∈ listed, v.seq = n) ∧
    ∃ d, ((s.load n).on t).1 = .ok d ∧ TakenFrom answers attempts n d
  save : ∀ d, ∃ kept, ((s.save d).on t).1 = .ok kept ∧ (∀ v ∈ listed, v.seq < kept.seq) ∧
    (∀ n, marker = some n → n < kept.seq) ∧ kept.seq < Nat.pow 2 64

variable {answers}

theorem Cycle.decode_pretty {c : Cycle σ} (h : c.rendered answers = .ok d) :
    Document.decode d.pretty = .ok d := by
  obtain ⟨r, v, hrender, hrendering⟩ := run_render answers c.manager c.before
  rw [Cycle.rendered, hrender] at h
  cases h
  exact hrendering.decode_pretty

/-- **What is intact can be read**, and added to. -/
theorem SnapshotDir.Intact.recoverable
    (h : Intact (KeptBy answers s attempts) (TakenFrom answers attempts) bound es)
    (htidy : Tidy s t es) (hlimit : bound + 1 < Nat.pow 2 64) :
    ∃ listed marker, Recoverable answers s attempts t listed marker := by
  obtain ⟨marker, hmarker⟩ := h.exists_markerOf (s := s)
  have hlisted : ∀ v ∈ s.snapshotsIn es, v.seq ∈ numbersIn es := fun v hv => by
    rw [numbersIn, ← map_seq_ofNames s]
    exact List.mem_map_of_mem hv
  have hload : ∀ {n : Nat} {d : Document}, n ∈ numbersIn es → Document.decode d.pretty = .ok d →
      es.lookup (fileName n) = some (.file d.pretty) → ((s.load n).on t).1 = .ok d := by
    intro n d hn hdecode hfile
    rw [SnapshotDir.on_load htidy.proper htidy.entries (Nat.le_of_lt (lt_of_mem_numbersIn hn)),
      documentOf_of_lookup hdecode hfile]
  have hnext := Nat.lt_of_le_of_lt (h.nextIn_le hmarker) hlimit
  refine ⟨s.snapshotsIn es, marker, ?_⟩
  exact {
    list := by rw [on_list htidy.proper htidy.entries]
    load := by
      intro v hv
      obtain ⟨d, ⟨a, ha, hkeeps⟩, hfile⟩ := h.documents v.seq (hlisted v hv)
      exact ⟨d, hload (hlisted v hv) (Cycle.decode_pretty hkeeps.rendered) hfile, a, ha, hkeeps⟩
    lastGood := by rw [on_lastGood htidy.proper htidy.entries, hmarker]
    marked := by
      rintro n rfl
      obtain ⟨hn, d, ⟨a, ha, htaken⟩, hfile⟩ := h.mem_of_markerOf hmarker
      refine ⟨⟨⟨n, s.pathFor n⟩, ?_, rfl⟩, d,
        hload hn (Cycle.decode_pretty htaken.rendered) hfile, a, ha, htaken⟩
      rw [h.canonical.snapshotsIn_eq s]
      exact List.mem_map_of_mem hn
    save := by
      intro d
      obtain ⟨t₁, hsave, -⟩ := on_save_ok htidy.proper htidy.entries htidy.canMake hmarker
        (Nat.le_of_lt hnext) (htidy.files.canReplace _) d
      refine ⟨_, congrArg Prod.fst hsave, fun v hv => lt_nextIn (hlisted v hv) marker, ?_, hnext⟩
      rintro n rfl
      exact marker_lt_nextIn es n }

/-- **Whatever was stopped, the directory can be used.**  Over a directory that is not there at
first and that only cycles write, each of which may have been stopped between two requests, in the
middle of a file or before the proxy answered: the list can be read, every listed snapshot holds a
document that a cycle had rendered, the marker names a listed one whose document was taken, and the
next document is kept under a number above all of them.  A cycle that was stopped before its
document was answered, whether by a reply or by the end of the connection, has no row in the audit.
The numbers of snapshots have 64 bits, which is more than there are attempts. -/
theorem recoverable_after_interruption {configDir : String}
    (habsent : (FileTree.answer (.isPresent (SnapshotDir.below configDir).dir) start.files).1 =
      false)
    (hmake : (FileTree.answer (.makeDirs (SnapshotDir.below configDir).dir) start.files).1 = .ok ())
    (hhistory : IsHistory answers (SnapshotDir.below configDir) start attempts w)
    (hlimit : attempts.length + 1 < Nat.pow 2 64) :
    (∃ listed marker,
      Recoverable answers (SnapshotDir.below configDir) attempts w.files listed marker) ∧
    ∀ a ∈ attempts, a.heard = [] → a.left.audit = a.cycle.before.audit := by
  have htidy := tidy_of_absent (below_dir_ne_empty configDir) habsent hmake
  obtain ⟨es, hes, hintact⟩ := hhistory.intact htidy (Nat.lt_of_succ_lt hlimit)
  refine ⟨hintact.recoverable hes hlimit, fun a ha hheard => ?_⟩
  have hleaves := hhistory.leaves ha
  rw [hheard] at hleaves
  exact audit_of_leaves hleaves

/-- The first cycle may be stopped while its document was sent and not answered. -/
theorem exists_isHistory_firstCycle :
    ∃ left : Plant MemoryStore, left.proxy.requests.length = 1 ∧
      IsHistory MemoryStore.answer (SnapshotDir.below "/etc/proxy")
        (Plant.ofFiles FileTree.empty) [⟨firstCycle, [], left⟩] left := by
  obtain ⟨r, v, hrender, -⟩ := run_render MemoryStore.answer firstCycle.manager firstCycle.before
  cases r with
  | error e =>
    have hissued := issued_firstCycle
    rw [Cycle.issued, Cycle.rendered, hrender] at hissued
    cases hissued
  | ok d =>
    cases hsave : (firstCycle.manager.snapshots.save d).on firstCycle.before.files with
    | mk r t =>
      have hissued := issued_firstCycle
      rw [(Cycle.issued_of_render hrender hsave).2] at hissued
      cases r with
      | error e => cases hissued
      | ok kept =>
        have hleaves := leaves_apply_inFlight hrender hsave (.inl rfl)
        exact ⟨_, rfl, .snoc ⟨firstCycle, [], _⟩ .nil rfl rfl hleaves⟩

theorem recoverable_after_interruption_firstCycle :
    ∃ left : Plant MemoryStore, left.proxy.requests.length = 1 ∧ left.audit = [] ∧
      ∃ listed marker, Recoverable MemoryStore.answer (SnapshotDir.below "/etc/proxy")
        [⟨firstCycle, [], left⟩] left.files listed marker := by
  obtain ⟨left, hsent, hhistory⟩ := exists_isHistory_firstCycle
  have hspec := recoverable_after_interruption absent_ofFiles_empty makeDirs_ofFiles_empty hhistory
    (show 1 + 1 < Nat.pow 2 64 by decide)
  exact ⟨left, hsent, hspec.2 _ List.mem_cons_self rfl, hspec.1⟩

end Recovery
end ProxyPlane
