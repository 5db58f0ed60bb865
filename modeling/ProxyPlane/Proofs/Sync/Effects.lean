import ProxyPlane.Proofs.Sync.Plant

/-!
# What one cycle does

The requests, the rows of the audit and the snapshots that a cycle leaves behind depend on how it
ends, and how it ends depends on what was rendered, what the directory says and two replies.  The
directory may hold anything.

## What is here

* `Adds` and `Kept`, the traces of a cycle; `HasEffects`, the traces for each way to end.
* `routeCount_of_documentOf`, the number of routes that a report carries.
* `Maintains`, that listing, marking and removing work, and `maintains_of_allFiles`, where they do.
* `apply_effects`, for a cycle over any directory.
-/

set_option autoImplicit false
namespace ProxyPlane

/-! ## The number of routes -/

theorem routeCount_document (root email : String) (routes : List Route) :
    SyncManager.routeCount (Compile.document root email routes) = routes.length := by
  have hservers : (Compile.document root email routes).servers =
      [(Compile.serverName, Compile.server routes)] := rfl
  rw [SyncManager.routeCount, hservers, List.flatMap_singleton]
  rfl

theorem length_recordRoutes (r : RoutingRecord) :
    (Compile.recordRoutes r).length = r.locations.length + 1 := by
  rw [Compile.recordRoutes, List.length_append, List.length_map, List.length_singleton]

/-- How many routes some records have: one for each path rule, and one more for each record. -/
def routesOf : List RoutingRecord → Nat
  | [] => 0
  | r :: rs => r.locations.length + 1 + routesOf rs

theorem length_flatMap_recordRoutes (records : List RoutingRecord) :
    (records.flatMap Compile.recordRoutes).length = routesOf records := by
  induction records with
  | nil => rfl
  | cons r rs ih =>
    rw [List.flatMap_cons, List.length_append, length_recordRoutes, ih, routesOf]

/-- **The enabled records have their routes**, and there are no others. -/
theorem routeCount_of_documentOf {m : SyncManager} {records : List RoutingRecord} {email : String}
    {d : Document} (h : m.documentOf records email = .ok d) :
    SyncManager.routeCount d = routesOf (Compile.enabledRecords records) := by
  rw [SyncManager.documentOf] at h
  split at h
  · cases h
  · rename_i compiled hcompile
    split at h
    · cases h
    · cases h
      obtain ⟨-, rfl⟩ := compile_eq_ok.1 hcompile
      rw [routeCount_document, length_flatMap_recordRoutes]

section Effects

open SnapshotDir

variable {σ : Type} (answers : {β : Type} → StoreOp β → σ → β × σ)

/-! ## Traces of a cycle -/

/-- The requests and the rows of the audit that a cycle adds. -/
structure Adds (m : SyncManager) (w w' : Plant σ) (sent : List Document) (rows : List AuditRow) :
    Prop where
  requests : w'.proxy.requests = w.proxy.requests ++ sent.map m.client.loadRequest
  audit : w'.audit = w.audit ++ rows

/-- The row of the audit that a cycle adds for a document. -/
def auditRow (w : Plant σ) (d : Document) (error : Option String) : AuditRow :=
  ⟨d.digest, w.instants w.reads, error.isNone, error⟩

/-- A document was rendered and kept, as one snapshot more than before, in these files. -/
structure Kept (m : SyncManager) (w : Plant σ) (d : Document) (n : Nat) (t : FileTree) : Prop where
  rendered : (m.render.run (Plant.answer answers) w).1 = .ok d
  saved : (m.snapshots.save d).on w.files = (.ok ⟨n, m.snapshots.pathFor n⟩, t)
  loaded : ((m.snapshots.load n).on t).1 = .ok d
  listed : ∃ before after, (m.snapshots.list.on w.files).1 = .ok before ∧
    (m.snapshots.list.on t).1 = .ok after ∧
    after.Perm (⟨n, m.snapshots.pathFor n⟩ :: before) ∧ ∀ v ∈ before, v.seq < n
  marker : (m.snapshots.lastGood.on t).1 = (m.snapshots.lastGood.on w.files).1

/-- A document was kept but not taken, and the files are as they were when it had been kept. -/
structure Untaken (m : SyncManager) (w w' : Plant σ) (d : Document) (n : Nat) (e : AdminError) :
    Prop where
  kept : Kept answers m w d n w'.files
  reply : AdminClient.verdict w.proxy.reply = .error e

/-- The choice of an earlier snapshot, which can be loaded or not. -/
structure Chooses (m : SyncManager) (n : Nat) (t : FileTree) (target : Nat)
    (loaded : Except SnapshotError Document) : Prop where
  chosen : ((m.rollbackSeq n).on t).1 = .ok (some target)
  earlier : target < n
  loaded : ((m.snapshots.load target).on t).1 = loaded

/-- What a cycle leaves behind, by how it ended. -/
def HasEffects (m : SyncManager) (w : Plant σ) (outcome : Except SyncError ApplyReport)
    (w' : Plant σ) : Prop :=
  match outcome with
  | .error (.store _) | .error (.compile _) | .error (.validation _) =>
    Adds m w w' [] [] ∧ w'.files = w.files
  | .error (.snapshot _) =>
    Adds m w w' [] [] ∧ (m.snapshots.list.on w'.files).1 = (m.snapshots.list.on w.files).1 ∧
      (m.snapshots.lastGood.on w'.files).1 = (m.snapshots.lastGood.on w.files).1
  | .ok report =>
    ∃ d t, Kept answers m w d report.snapshotSeq t ∧ Adds m w w' [d] [auditRow w d none] ∧
      (m.snapshots.lastGood.on w'.files).1 = .ok (some report.snapshotSeq) ∧
      report.configHash = d.digest ∧ report.routes = SyncManager.routeCount d ∧
      (∀ records email, StoreReads (Plant.answer answers) w records email →
        report.routes = routesOf (Compile.enabledRecords records)) ∧
      ∃ before after, (m.snapshots.list.on t).1 = .ok before ∧
        (m.snapshots.list.on w'.files).1 = .ok after ∧
        after.length + report.pruned = before.length
  | .error (.rolledBack target e) =>
    ∃ d n restored, Untaken answers m w w' d n e ∧ Chooses m n w'.files target (.ok restored) ∧
      Adds m w w' [d, restored] [auditRow w d (some e.message)]
  | .error (.rollbackFailed e cause) =>
    ∃ d n, Untaken answers m w w' d n e ∧
      match cause with
      | .unavailable =>
        ((m.rollbackSeq n).on w'.files).1 = .ok none ∧
          Adds m w w' [d] [auditRow w d (some (SyncError.rollbackFailed e cause).message)]
      | .snapshot source =>
        (((m.rollbackSeq n).on w'.files).1 = .error source ∨
            ∃ target, Chooses m n w'.files target (.error source)) ∧
          Adds m w w' [d] [auditRow w d (some (SyncError.rollbackFailed e cause).message)]
      | .push source =>
        ∃ target restored, Chooses m n w'.files target (.ok restored) ∧
          AdminClient.verdict (w.proxy.after (m.client.loadRequest d)).reply = .error source ∧
          Adds m w w' [d, restored]
            [auditRow w d (some (SyncError.rollbackFailed e cause).message)]

/-- The proxy takes the next document. -/
def Proxy.Takes (p : Proxy) : Prop :=
  ∃ response, p.reply = .ok response ∧ HttpStatus.isSuccess response.status = true

/-- No two entries of the directory have the same name, as in any directory. -/
def HasDistinctNames (s : SnapshotDir) (t : FileTree) : Prop :=
  ∀ es, s.Holds t es → (es.map (·.1)).Nodup

/-- Marking and removing snapshots works after one was kept, and listing them still works when none
could be kept. -/
structure Maintains (m : SyncManager) (t : FileTree) : Prop where
  lists : ∀ d e t' before, (m.snapshots.save d).on t = (.error e, t') →
    (m.snapshots.list.on t).1 = .ok before → ∃ after, (m.snapshots.list.on t').1 = .ok after
  marks : ∀ d kept t', (m.snapshots.save d).on t = (.ok kept, t') →
    ((m.snapshots.markGood kept.seq).on t').1 = .ok ()
  prunes : ∀ d kept t', (m.snapshots.save d).on t = (.ok kept, t') →
    ∃ k, (m.prunedFiles kept.seq t').1 = .ok k

variable {answers} {m : SyncManager} {w : Plant σ}

theorem kept_of_keeps {d : Document} {s : σ} {n : Nat} {t : FileTree} {es : Entries}
    {marker : Option Nat}
    (hrender : m.render.run (Plant.answer answers) w = (.ok d, { w with store := s }))
    (hrendering : IsRendering m (.ok d))
    (hsave : (m.snapshots.save d).on w.files = (.ok ⟨n, m.snapshots.pathFor n⟩, t))
    (hkeeps : m.snapshots.Keeps w.files d n t es marker) (hn : n < Nat.pow 2 64) :
    Kept answers m w d n t where
  rendered := by rw [hrender]
  saved := hsave
  loaded := by rw [hkeeps.on_load (Nat.le_of_lt hn) hrendering.decode_pretty]
  listed := by
    refine ⟨m.snapshots.snapshotsIn es, _, ?_, ?_, hkeeps.perm_snapshotsIn hn, fun v hv => ?_⟩
    · rw [on_list hkeeps.proper hkeeps.before]
    · rw [on_list hkeeps.proper hkeeps.after.orAbsent]
    · rw [hkeeps.seq]
      refine lt_nextIn ?_ marker
      rw [numbersIn, ← map_seq_ofNames m.snapshots]
      exact List.mem_map_of_mem hv
  marker := hkeeps.lastGood_eq

/-- What a cycle saved, if it saved anything. -/
theorem exists_keeps {configDir : String} (hdir : m.snapshots = SnapshotDir.below configDir)
    (hlimit : m.snapshots.IsBelowLimit w.files) {d : Document} {kept : Snapshot} {t : FileTree}
    (hsave : (m.snapshots.save d).on w.files = (.ok kept, t)) :
    ∃ es marker, m.snapshots.Keeps w.files d kept.seq t es marker ∧ kept.seq < Nat.pow 2 64 ∧
      kept = ⟨kept.seq, m.snapshots.pathFor kept.seq⟩ := by
  have hne : m.snapshots.dir ≠ "" := hdir ▸ SnapshotDir.below_dir_ne_empty configDir
  rcases on_save_cases hne hlimit d with
    ⟨e, t', hfail, -⟩ | ⟨n, t', es, marker, hok, hkeeps, hn⟩
  · cases hsave.symm.trans hfail
  · cases hsave.symm.trans hok
    exact ⟨es, marker, hkeeps, hn, rfl⟩

/-- An earlier snapshot is one with a lower number. -/
theorem target_lt {d : Document} {n target : Nat} {t : FileTree} {es : Entries}
    {marker : Option Nat} (hkeeps : m.snapshots.Keeps w.files d n t es marker)
    (htarget : ((m.rollbackSeq n).on t).1 = .ok (some target)) : target < n := by
  rw [SyncManager.rollbackSeq] at htarget
  cases hchoice : m.rollbackTarget with
  | previous =>
    rw [hchoice] at htarget
    exact lt_of_previousBefore htarget
  | lastKnownGood =>
    rw [hchoice] at htarget
    simp only at htarget
    rw [on_lastGood hkeeps.proper hkeeps.after.orAbsent, hkeeps.markerOf] at htarget
    cases htarget
    rw [hkeeps.seq]
    exact marker_lt_nextIn es target

/-- No two snapshots have the same name once one was kept and marked. -/
theorem nodup_listedNames_of_keeps {d : Document} {n : Nat} {t : FileTree} {es : Entries}
    {marker : Option Nat} (hkeeps : m.snapshots.Keeps w.files d n t es marker)
    (hn : n < Nat.pow 2 64) (hnames : HasDistinctNames m.snapshots w.files) :
    (listedNames (markedIn n (replaceFile (fileName n) d.pretty es))).Nodup := by
  have hfresh := hkeeps.lookup_eq_none hn
  rw [listedNames_markedIn, (perm_listedNames_replaceFile hn d.pretty hfresh).nodup_iff,
    List.nodup_cons]
  refine ⟨fun hmem => lookup_ne_none_of_mem (List.mem_filter.1 hmem).1 hfresh, ?_⟩
  rcases hkeeps.before with hbefore | ⟨-, rfl⟩
  · exact (hnames es hbefore).filter _
  · exact List.nodup_nil

/-- **Marking and removing work** where there are files only, with names that a file can have. -/
theorem maintains_of_allFiles {configDir : String}
    (hdir : m.snapshots = SnapshotDir.below configDir)
    (hlimit : m.snapshots.IsBelowLimit w.files) (hnames : HasDistinctNames m.snapshots w.files)
    {es : Entries} (hes : m.snapshots.HoldsOrAbsent w.files es)
    (hmake : m.snapshots.CanMake w.files) (hfiles : AllFiles es)
    (hshort : ∀ name ∈ listedNames es, FileTree.isTooLong name = false) :
    Maintains m w.files := by
  have hworks : ∀ d kept t, (m.snapshots.save d).on w.files = (.ok kept, t) →
      ((m.snapshots.markGood kept.seq).on t).1 = .ok () ∧
        ∃ k, (m.prunedFiles kept.seq t).1 = .ok k := by
    intro d kept t hsave
    obtain ⟨es', marker, hkeeps, hn, -⟩ := exists_keeps hdir hlimit hsave
    obtain rfl := hes.unique hkeeps.before
    have hkept := allFiles_replaceFile hfiles (fileName kept.seq) d.pretty
    obtain ⟨t₁, hmark, h₁⟩ := on_markGood hkeeps.proper hkeeps.after (hkept.canReplace _) kept.seq
    have hnodup := nodup_listedNames_of_keeps hkeeps hn hnames
    have hremovable : ∀ v ∈ m.snapshots.snapshotsIn
        (markedIn kept.seq (replaceFile (fileName kept.seq) d.pretty es)),
        IsRemovable (markedIn kept.seq (replaceFile (fileName kept.seq) d.pretty es))
          (entryName v) := by
      intro v hv
      have hlisted := (entryName_spec hv).1
      refine isRemovable_of_allFiles (allFiles_replaceFile hkept _ _) hlisted ?_
      rw [listedNames_markedIn, (perm_listedNames_replaceFile hn d.pretty
        (hkeeps.lookup_eq_none hn)).mem_iff] at hlisted
      -- the new name is short, and the others were there before
      rcases List.mem_cons.1 hlisted with hnew | hold
      · rw [hnew]
        refine SnapshotDir.not_isTooLong ?_
        rw [length_fileName (Nat.le_of_lt hn)]
        decide
      · exact hshort _ hold
    obtain ⟨t₂, hprune, -⟩ := on_prune_of_removable hkeeps.proper h₁ m.keep
      (markerOf_of_lookup hn (lookup_marker_markedIn _ _)) hnodup hremovable
    have hmarked : m.markedFiles kept.seq t = t₁ := by rw [SyncManager.markedFiles, hmark]
    refine ⟨by rw [hmark], _, congrArg Prod.fst (Eq.trans ?_ hprune)⟩
    rw [SyncManager.prunedFiles, hmarked]
  have hne : m.snapshots.dir ≠ "" := hdir ▸ SnapshotDir.below_dir_ne_empty configDir
  refine ⟨fun d e t before hfail hbefore => ?_, fun d kept t h => (hworks d kept t h).1,
    fun d kept t h => (hworks d kept t h).2⟩
  rcases on_save_cases hne hlimit d with ⟨e', t', hfail', hreads⟩ | ⟨n, t', es', marker, hok, -⟩
  · cases hfail.symm.trans hfail'
    exact ⟨before, (hreads.resolve_right hmake.not_madeInPart).list.trans hbefore⟩
  · cases hfail.symm.trans hok

/-- The marker and the number of snapshots once a snapshot was marked and old ones were removed. -/
theorem pruned_spec {d : Document} {n : Nat} {t : FileTree} {es : Entries} {marker : Option Nat}
    (hkeeps : m.snapshots.Keeps w.files d n t es marker) (hn : n < Nat.pow 2 64)
    (hnames : HasDistinctNames m.snapshots w.files)
    (hmark : ((m.snapshots.markGood n).on t).1 = .ok ()) {k : Nat}
    (hprune : (m.prunedFiles n t).1 = .ok k) :
    (m.snapshots.lastGood.on (m.prunedFiles n t).2).1 = .ok (some n) ∧
      ∃ before after, (m.snapshots.list.on t).1 = .ok before ∧
        (m.snapshots.list.on (m.prunedFiles n t).2).1 = .ok after ∧
        after.length + k = before.length := by
  have hs := hkeeps.proper
  have hmarkrun : (m.snapshots.markGood n).on t = (.ok (), m.markedFiles n t) := by
    rw [← hmark, SyncManager.markedFiles]
  have hprunerun : (m.snapshots.prune m.keep).on (m.markedFiles n t) =
      (.ok k, (m.prunedFiles n t).2) := by
    rw [← hprune, SyncManager.prunedFiles]
  have hmarked := holds_of_on_markGood hs hkeeps.after hkeeps.markerOf hmarkrun
  have hnodup := nodup_listedNames_of_keeps hkeeps hn hnames
  obtain ⟨done, hholds, hparse, hcount⟩ :=
    length_add_of_on_prune hs hmarked hnodup hprunerun
  have hmarker : markerName ∉ done := fun hmem =>
    hparse _ hmem parseName?_marker
  have hgood : (m.snapshots.lastGood.on (m.prunedFiles n t).2).1 = .ok (some n) := by
    rw [on_lastGood hs hholds.orAbsent]
    refine markerOf_of_lookup hn ?_
    rw [lookup_without, if_neg hmarker, lookup_marker_markedIn]
  have hbefore := congrArg Prod.fst (on_list hs hkeeps.after.orAbsent)
  have hafter := congrArg Prod.fst (on_list hs hholds.orAbsent)
  refine ⟨hgood, _, _, hbefore, hafter, ?_⟩
  rw [length_snapshotsIn, length_snapshotsIn, hcount,
    numbersIn_markedIn]

theorem takes_iff {p : Proxy} : p.Takes ↔ AdminClient.verdict p.reply = .ok () :=
  AdminClient.verdict_eq_ok.symm

theorem not_takes {p : Proxy} {e : AdminError} (h : AdminClient.verdict p.reply = .error e) :
    ¬p.Takes := by
  rw [takes_iff, h]
  exact nofun

theorem adds_nothing (s : σ) (t : FileTree) :
    Adds m w { w with store := s, files := t } [] [] :=
  ⟨(List.append_nil _).symm, (List.append_nil _).symm⟩

/-- What a cycle leaves behind that has no document. -/
theorem hasEffects_unrendered {e : SyncError} (s : σ) (h : IsRendering m (.error e)) :
    HasEffects answers m w (.error e) { w with store := s } := by
  have hnothing : Adds m w { w with store := s } [] [] := adds_nothing s w.files
  cases e with
  | store source => exact ⟨hnothing, rfl⟩
  | compile source => exact ⟨hnothing, rfl⟩
  | validation source => exact ⟨hnothing, rfl⟩
  | snapshot source => exact absurd h id
  | rolledBack restored source => exact absurd h id
  | rollbackFailed source cause => exact absurd h id

/-- What a cycle leaves behind whose document could not be kept. -/
theorem hasEffects_unsaved {configDir : String} (hdir : m.snapshots = SnapshotDir.below configDir)
    (hlimit : m.snapshots.IsBelowLimit w.files) (hworks : Maintains m w.files) {d : Document}
    (s : σ) {cause : SnapshotError} {t : FileTree}
    (hsave : (m.snapshots.save d).on w.files = (.error cause, t)) :
    HasEffects answers m w (.error (.snapshot cause)) { w with store := s, files := t } := by
  have hne : m.snapshots.dir ≠ "" := hdir ▸ below_dir_ne_empty configDir
  refine ⟨adds_nothing s t, ?_⟩
  rcases on_save_cases hne hlimit d with
    ⟨e, t', hfail, halike | hpart⟩ | ⟨n, t', es, marker, hok, -⟩
  · cases hsave.symm.trans hfail
    exact ⟨halike.list, halike.lastGood⟩
  · -- a directory that is made in part can be listed before, but not afterwards
    cases hsave.symm.trans hfail
    obtain ⟨after, hafter⟩ := hworks.lists d _ _ _ hfail hpart.list.1
    cases hpart.list.2.symm.trans hafter
  · cases hsave.symm.trans hok

/-- What a cycle leaves behind whose document was taken. -/
theorem hasEffects_taken {d : Document} {s : σ} {kept : Snapshot} {t : FileTree} {es : Entries}
    {marker : Option Nat} (hrows : TakesRows answers)
    (hnames : HasDistinctNames m.snapshots w.files) (hworks : Maintains m w.files)
    (hrender : m.render.run (Plant.answer answers) w = (.ok d, { w with store := s }))
    (hsave : (m.snapshots.save d).on w.files = (.ok kept, t))
    (hkept : Kept answers m w d kept.seq t)
    (hkeeps : m.snapshots.Keeps w.files d kept.seq t es marker) (hn : kept.seq < Nat.pow 2 64) :
    HasEffects answers m w
      (.ok ⟨kept.seq, d.digest, SyncManager.routeCount d,
        (m.prunedFiles kept.seq t).1.toOption.getD 0⟩)
      { (w.pushed s t (m.client.loadRequest d)).audited answers d.digest none with
        files := (m.prunedFiles kept.seq t).2 } := by
  obtain ⟨k, hprune⟩ := hworks.prunes d kept t hsave
  obtain ⟨hgood, hlists⟩ := pruned_spec hkeeps hn hnames (hworks.marks d kept t hsave) hprune
  refine ⟨d, t, hkept, ⟨rfl, ?_⟩, hgood, rfl, rfl, ?_, ?_⟩
  · exact Plant.audit_audited hrows _ _ _
  · intro records email hreads
    have hdocument := render_of_storeReads hreads m
    rw [hrender] at hdocument
    exact routeCount_of_documentOf hdocument.symm
  · rw [hprune]
    exact hlists

/-- What a cycle leaves behind whose document was not taken. -/
theorem hasEffects_untaken {d : Document} {s : σ} {n : Nat} {t : FileTree} {es : Entries}
    {marker : Option Nat} {e : AdminError} {r : Except RollbackError Nat} {p : Proxy}
    (hrows : TakesRows answers) (hkept : Kept answers m w d n t)
    (hkeeps : m.snapshots.Keeps w.files d n t es marker)
    (hpush : AdminClient.verdict w.proxy.reply = .error e)
    (hback : RollsBack m n t (w.proxy.after (m.client.loadRequest d)) r p) :
    HasEffects answers m w (.error (SyncError.ofRollback e r))
      (({ w.pushed s t (m.client.loadRequest d) with proxy := p }).audited answers d.digest
        (some (SyncError.note e r))) := by
  generalize hw' : ({ w.pushed s t (m.client.loadRequest d) with proxy := p } : Plant σ).audited
    answers d.digest (some (SyncError.note e r)) = w'
  have hfiles : w'.files = t := by rw [← hw']; rfl
  have hproxy : w'.proxy = p := by rw [← hw']; rfl
  have hadds : ∀ sent, p.requests = w.proxy.requests ++ sent.map m.client.loadRequest →
      Adds m w w' sent [auditRow w d (some (SyncError.note e r))] := by
    intro sent hsent
    refine ⟨by rw [hproxy, hsent], ?_⟩
    rw [← hw', Plant.audit_audited hrows]
    rfl
  subst hfiles
  have huntaken : Untaken answers m w w' d n e := ⟨hkept, hpush⟩
  cases hback with
  | unchosen hseq => exact ⟨d, n, huntaken, .inl hseq, hadds [d] rfl⟩
  | unavailable hseq => exact ⟨d, n, huntaken, hseq, hadds [d] rfl⟩
  | unloaded hseq hload =>
    exact ⟨d, n, huntaken, .inr ⟨_, hseq, target_lt hkeeps hseq, hload⟩, hadds [d] rfl⟩
  | @refused target restored cause hseq hload hrefused =>
    exact ⟨d, n, huntaken, target, restored, ⟨hseq, target_lt hkeeps hseq, hload⟩, hrefused,
      hadds [d, restored] (List.append_assoc _ _ _)⟩
  | @restored target restored hseq hload htaken =>
    exact ⟨d, n, restored, huntaken, ⟨hseq, target_lt hkeeps hseq, hload⟩,
      hadds [d, restored] (List.append_assoc _ _ _)⟩

/-- When an earlier snapshot is restored. -/
theorem rolledBack_iff {d : Document} {n : Nat} {t : FileTree} {e : AdminError}
    {r : Except RollbackError Nat} {p : Proxy}
    (hpush : AdminClient.verdict w.proxy.reply = .error e)
    (hback : RollsBack m n t (w.proxy.after (m.client.loadRequest d)) r p) (target : Nat) :
    (∃ e', (.error (SyncError.ofRollback e r) : Except SyncError ApplyReport) =
      .error (.rolledBack target e')) ↔
    ¬w.proxy.Takes ∧ ((m.rollbackSeq n).on t).1 = .ok (some target) ∧
      (∃ restored, ((m.snapshots.load target).on t).1 = .ok restored) ∧
      (w.proxy.after (m.client.loadRequest d)).Takes := by
  constructor
  · rintro ⟨e', he⟩
    cases hback with
    | unchosen hseq => cases he
    | unavailable hseq => cases he
    | unloaded hseq hload => cases he
    | refused hseq hload hrefused => cases he
    | restored hseq hload htaken =>
      cases he
      exact ⟨not_takes hpush, hseq, ⟨_, hload⟩, takes_iff.2 htaken⟩
  · rintro ⟨-, hseq, ⟨restored, hload⟩, htaken⟩
    cases hback with
    | unchosen hseq' => cases hseq.symm.trans hseq'
    | unavailable hseq' => cases hseq.symm.trans hseq'
    | unloaded hseq' hload' =>
      cases hseq.symm.trans hseq'
      cases hload.symm.trans hload'
    | refused hseq' hload' hrefused => exact absurd htaken (not_takes hrefused)
    | restored hseq' hload' htaken' =>
      cases hseq.symm.trans hseq'
      exact ⟨e, rfl⟩

/-- A directory of snapshots that holds a file of somebody else. -/
def foreignFile : FileTree :=
  .dir [("etc", .dir [("proxy", .dir [("snapshots", .dir [("notes.txt", .file [])])])])]

theorem holds_foreignFile :
    (SnapshotDir.below "/etc/proxy").Holds foreignFile [("notes.txt", .file [])] := rfl

theorem hasDistinctNames_foreignFile :
    HasDistinctNames (SnapshotDir.below "/etc/proxy") foreignFile := by
  intro es hes
  rw [← holds_foreignFile.unique hes]
  exact List.nodup_singleton _

theorem allFiles_foreignFile : AllFiles [("notes.txt", .file [])] := by
  intro name entries hentry
  rw [List.lookup_cons] at hentry
  split at hentry
  · cases hentry
  · cases hentry

theorem isBelowLimit_foreignFile :
    (SnapshotDir.below "/etc/proxy").IsBelowLimit foreignFile where
  listed := by
    intro snapshots hsnapshots v hv
    have hlisted : (SnapshotDir.below "/etc/proxy").snapshotsIn [("notes.txt", .file [])] = [] := by
      refine List.eq_nil_of_length_eq_zero ?_
      rw [length_snapshotsIn, length_numbersIn]
      rfl
    rw [on_list (isProper_below (by decide)) holds_foreignFile.orAbsent, hlisted] at hsnapshots
    cases hsnapshots
    exact absurd hv List.not_mem_nil
  marker := nofun

/-- **What one cycle does**, over a directory that holds anything. -/
theorem apply_effects {configDir : String} (hdir : m.snapshots = SnapshotDir.below configDir)
    (hrows : TakesRows answers) (hlimit : m.snapshots.IsBelowLimit w.files)
    (hnames : HasDistinctNames m.snapshots w.files)
    (hworks : Maintains m w.files) {outcome : Except SyncError ApplyReport} {w' : Plant σ}
    (hrun : m.apply.run (Plant.answer answers) w = (outcome, w')) :
    HasEffects answers m w outcome w' ∧
    ∀ d n t, Kept answers m w d n t →
      ((∃ report, outcome = .ok report) ↔ w.proxy.Takes) ∧
      ∀ target, (∃ e, outcome = .error (.rolledBack target e)) ↔
        ¬w.proxy.Takes ∧ ((m.rollbackSeq n).on t).1 = .ok (some target) ∧
        (∃ restored, ((m.snapshots.load target).on t).1 = .ok restored) ∧
        (w.proxy.after (m.client.loadRequest d)).Takes := by
  have hends : Ends answers m w outcome w' := by
    have happly := ends_apply answers m w
    rwa [hrun] at happly
  cases hends with
  | @unrendered e s hrender hrendering =>
    refine ⟨hasEffects_unrendered s hrendering, fun d n t hkept => ?_⟩
    have hrendered := hkept.rendered
    rw [hrender] at hrendered
    cases hrendered
  | @unsaved d s cause t hrender hrendering hsave =>
    refine ⟨hasEffects_unsaved hdir hlimit hworks s hsave, fun d' n t' hkept => ?_⟩
    have hrendered := hkept.rendered
    rw [hrender] at hrendered
    cases hrendered
    cases hsave.symm.trans hkept.saved
  | @taken d s kept t hrender hrendering hsave hpush =>
    obtain ⟨es, marker, hkeeps, hn, hkept⟩ := exists_keeps hdir hlimit hsave
    have hsaved := hsave
    rw [hkept] at hsaved
    refine ⟨hasEffects_taken hrows hnames hworks hrender hsave
      (kept_of_keeps hrender hrendering hsaved hkeeps hn) hkeeps hn, fun d' n t' _ => ⟨?_, ?_⟩⟩
    · exact iff_of_true ⟨_, rfl⟩ (takes_iff.2 hpush)
    · intro target
      exact ⟨fun ⟨e, he⟩ => absurd he nofun, fun h => absurd (takes_iff.2 hpush) h.1⟩
  | @untaken d s kept t e r p hrender hrendering hsave hpush hback =>
    obtain ⟨es, marker, hkeeps, hn, hkept⟩ := exists_keeps hdir hlimit hsave
    have hsaved := hsave
    rw [hkept] at hsaved
    refine ⟨hasEffects_untaken hrows (kept_of_keeps hrender hrendering hsaved hkeeps hn) hkeeps
      hpush hback, fun d' n t' hother => ?_⟩
    have hrendered := hother.rendered
    rw [hrender] at hrendered
    cases hrendered
    cases hsaved.symm.trans hother.saved
    refine ⟨⟨fun ⟨report, hreport⟩ => ?_, fun h => absurd h (not_takes hpush)⟩, fun target => ?_⟩
    · cases r <;> cases hreport
    · exact rolledBack_iff hpush hback target

theorem apply_effects_foreignFile :
    HasEffects MemoryStore.answer localManager (Plant.ofFiles foreignFile)
      (localManager.apply.run (Plant.answer MemoryStore.answer) (Plant.ofFiles foreignFile)).1
      (localManager.apply.run (Plant.answer MemoryStore.answer) (Plant.ofFiles foreignFile)).2 := by
  have hworks : Maintains localManager (Plant.ofFiles foreignFile).files :=
    maintains_of_allFiles rfl isBelowLimit_foreignFile hasDistinctNames_foreignFile
      (.inl holds_foreignFile) holds_foreignFile.canMake allFiles_foreignFile nofun
  exact (apply_effects rfl (fun _ _ => rfl) isBelowLimit_foreignFile hasDistinctNames_foreignFile
    hworks (Prod.mk.eta).symm).1

end Effects
end ProxyPlane
