import ProxyPlane.Proofs.Sync.Plant

/-!
# Runs of cycles

Cycles follow each other over one directory of snapshots.  Between them the store, the clock and
the replies of the proxy may change in any way; the files and what the proxy runs stay.

## What is here

* `Cycle`, a cycle with what it met, and `IsRun`, the runs.
* `lastTaken?`, the last cycle whose document the proxy took.
* `Tidy`, what holds of a directory that only cycles write, and `Tidy.on_save`.
* `Remembers`: the directory names the cycle whose document was taken last, and holds its document.
* `IsRun.remembers`: it does so after every run.
-/

set_option autoImplicit false
namespace ProxyPlane

open SnapshotDir SnapshotProgram

section Runs

variable {σ : Type} (answers : {β : Type} → StoreOp β → σ → β × σ)

/-! ## Cycles -/

/-- A cycle, with all that it meets. -/
structure Cycle (σ : Type) where
  manager : SyncManager
  before : Plant σ

namespace Cycle

/-- How the cycle ends. -/
def outcome (c : Cycle σ) : Except SyncError ApplyReport :=
  (c.manager.apply.run (Plant.answer answers) c.before).1

/-- All that there is after the cycle. -/
def after (c : Cycle σ) : Plant σ := (c.manager.apply.run (Plant.answer answers) c.before).2

/-- What `SyncManager.render` gives before the cycle. -/
def rendered (c : Cycle σ) : Except SyncError Document :=
  (c.manager.render.run (Plant.answer answers) c.before).1

/-- The requests that the cycle sends. -/
def sent (c : Cycle σ) : List Request :=
  (c.after answers).proxy.requests.drop c.before.proxy.requests.length

/-- The number of the snapshot that the cycle keeps, if it keeps one. -/
def issued (c : Cycle σ) : Option Nat :=
  match c.rendered answers with
  | .ok d => ((c.manager.snapshots.save d).on c.before.files).1.toOption.map (·.seq)
  | .error _ => none

/-- Whether the proxy took the document of the cycle. -/
def isTaken (c : Cycle σ) : Bool := (c.outcome answers).isOk

theorem sent_eq {c : Cycle σ} {rs : List Request}
    (h : (c.after answers).proxy.requests = c.before.proxy.requests ++ rs) :
    c.sent answers = rs := by
  rw [sent, h, List.drop_left]

theorem issued_eq {c : Cycle σ} {d : Document} {r : Except SnapshotError Snapshot} {t : FileTree}
    (hrendered : c.rendered answers = .ok d)
    (hsave : (c.manager.snapshots.save d).on c.before.files = (r, t)) :
    c.issued answers = r.toOption.map (·.seq) := by
  rw [issued, hrendered]
  simp only [hsave]

theorem ends (c : Cycle σ) :
    ∃ outcome w', c.outcome answers = outcome ∧ c.after answers = w' ∧
      Ends answers c.manager c.before outcome w' :=
  ⟨_, _, rfl, rfl, ends_apply answers c.manager c.before⟩

end Cycle

/-- A run of cycles over a directory, and what there is after it. -/
inductive IsRun (s : SnapshotDir) (start : Plant σ) : List (Cycle σ) → Plant σ → Prop
  | nil : IsRun s start [] start
  | snoc {past : List (Cycle σ)} {w : Plant σ} (c : Cycle σ) (hpast : IsRun s start past w)
    (hdir : c.manager.snapshots = s) (hkeep : 1 ≤ c.manager.keep)
    (hfiles : c.before.files = w.files) (hrunning : c.before.proxy.running = w.proxy.running) :
    IsRun s start (past ++ [c]) (c.after answers)

/-- What is known of the last cycle of a run. -/
structure Follows (s : SnapshotDir) (start : Plant σ) (past : List (Cycle σ)) (w : Plant σ)
    (c : Cycle σ) : Prop where
  run : IsRun answers s start past w
  dir : c.manager.snapshots = s
  keep : 1 ≤ c.manager.keep
  files : c.before.files = w.files
  running : c.before.proxy.running = w.proxy.running

/-- The last of some cycles whose document was taken. -/
def lastTaken? (cycles : List (Cycle σ)) : Option (Cycle σ) :=
  (cycles.filter fun c => c.isTaken answers).getLast?

variable {answers}

theorem lastTaken?_concat (past : List (Cycle σ)) (c : Cycle σ) :
    lastTaken? answers (past ++ [c]) =
      if c.isTaken answers then some c else lastTaken? answers past := by
  rw [lastTaken?, List.filter_append]
  cases hc : c.isTaken answers with
  | true => rw [List.filter_cons_of_pos hc, List.filter_nil, List.getLast?_concat, if_pos rfl]
  | false =>
    rw [List.filter_cons_of_neg (by rw [hc]; exact Bool.false_ne_true), List.filter_nil,
      List.append_nil, if_neg Bool.false_ne_true, lastTaken?]

theorem lastTaken?_split {earlier later : List (Cycle σ)} {g : Cycle σ}
    (hg : g.isTaken answers = true) (hlater : ∀ c ∈ later, c.isTaken answers = false) :
    lastTaken? answers (earlier ++ g :: later) = some g := by
  have hnone : later.filter (fun c => c.isTaken answers) = [] := by
    rw [List.filter_eq_nil_iff]
    intro c hc
    rw [hlater c hc]
    exact Bool.false_ne_true
  rw [lastTaken?, List.filter_append, List.filter_cons_of_pos hg, hnone, List.getLast?_concat]

section Run

variable {s : SnapshotDir} {start w : Plant σ} {cycles past later : List (Cycle σ)} {c : Cycle σ}

theorem IsRun.follows (h : IsRun answers s start (past ++ [c]) w) :
    ∃ w₀, Follows answers s start past w₀ c := by
  generalize hcycles : past ++ [c] = cycles at h
  cases h with
  | nil => exact absurd hcycles (by simp)
  | snoc c' hpast hdir hkeep hfiles hrunning =>
    obtain ⟨rfl, hc⟩ := List.append_inj' hcycles rfl
    cases hc
    exact ⟨_, hpast, hdir, hkeep, hfiles, hrunning⟩

/-- **A run up to a cycle is a run.** -/
theorem IsRun.of_append (h : IsRun answers s start cycles w) (hcycles : cycles = past ++ later) :
    ∃ w', IsRun answers s start past w' := by
  induction h generalizing later with
  | nil =>
    rw [(List.append_eq_nil_iff.1 hcycles.symm).1]
    exact ⟨start, .nil⟩
  | @snoc before w c hpast hdir hkeep hfiles hrunning ih =>
    rcases List.eq_nil_or_concat later with rfl | ⟨rest, x, rfl⟩
    · rw [List.append_nil] at hcycles
      rw [← hcycles]
      exact ⟨_, .snoc c hpast hdir hkeep hfiles hrunning⟩
    · rw [List.concat_eq_append, ← List.append_assoc] at hcycles
      exact ih (List.append_inj' hcycles rfl).1

/-- Every cycle of a run follows those before it. -/
theorem IsRun.exists_follows (h : IsRun answers s start cycles w)
    (hcycles : cycles = past ++ c :: later) : ∃ w₀, Follows answers s start past w₀ c := by
  rw [List.append_cons] at hcycles
  obtain ⟨w', huntil⟩ := h.of_append hcycles
  exact huntil.follows

end Run

/-! ## The directory -/

/-- A directory, perhaps still absent, that holds files only and can be made. -/
structure Tidy (s : SnapshotDir) (t : FileTree) (es : Entries) : Prop where
  proper : s.IsProper
  entries : s.HoldsOrAbsent t es
  canMake : s.CanMake t
  files : AllFiles es

/-- A directory that is not there and can be made. -/
theorem tidy_of_absent {s : SnapshotDir} {t : FileTree} (hne : s.dir ≠ "")
    (habsent : (FileTree.answer (.isPresent s.dir) t).1 = false)
    (hmake : (FileTree.answer (.makeDirs s.dir) t).1 = .ok ()) : Tidy s t [] := by
  obtain ⟨hs, t', ht'⟩ := canMake_of_answer hne hmake
  refine ⟨hs, .inr ⟨?_, rfl⟩, ⟨t', ht'⟩, fun name => isFree_none⟩
  obtain ⟨es, -, hfound | ⟨habsent', -⟩⟩ := FileTree.find_makeDirs ht'
  · have hpresent : (FileTree.answer (.isPresent s.dir) t).1 = true := by
      rw [FileTree.answer, FileTree.at?, hs.names]
      simp only [bind, Except.bind, hfound]
      rfl
    exact absurd (habsent.symm.trans hpresent) Bool.false_ne_true
  · exact habsent'

section Tidy

variable {s : SnapshotDir} {t t' : FileTree} {es : Entries} {d : Document} {n : Nat}
  {marker : Option Nat}

theorem SnapshotDir.Keeps.tidy (h : s.Keeps t d n t' es marker) (hfiles : AllFiles es) :
    Tidy s t' (replaceFile (fileName n) d.pretty es) where
  proper := h.proper
  entries := h.after.orAbsent
  canMake := h.after.canMake
  files := allFiles_replaceFile hfiles _ _

/-- **A document is kept** unless the marker is unreadable. -/
theorem Tidy.on_save (h : Tidy s t es) (d : Document) :
    (∃ e t', (s.save d).on t = (.error e, t') ∧ Tidy s t' es ∧ s.markerOf es = .error e) ∨
    ∃ n t' marker, (s.save d).on t = (.ok ⟨n, s.pathFor n⟩, t') ∧
      s.Keeps t d n t' es marker ∧ n ≤ Nat.pow 2 64 := by
  cases hmarker : s.markerOf es with
  | error e =>
    obtain ⟨t₁, hmade, h₁⟩ := on_makeDirs h.proper h.entries h.canMake
    refine .inl ⟨e, t₁, ?_, ⟨h.proper, h₁.orAbsent, h₁.canMake, h.files⟩, rfl⟩
    rw [save, on_bind_ok hmade, on_bind_ok (on_list h.proper h₁.orAbsent),
      on_bind_error ((on_lastGood h.proper h₁.orAbsent).trans (by rw [hmarker]))]
  | ok marker =>
    have hle : nextIn es marker ≤ Nat.pow 2 64 := by
      refine nextIn_le (Nat.pow 2 64) (fun k hk => lt_of_mem_numbersIn hk) ?_ (by decide)
      rintro k rfl
      exact lt_of_markerOf hmarker
    obtain ⟨t', hsave, hafter⟩ := on_save_ok h.proper h.entries h.canMake hmarker hle
      (h.files.canReplace _) d
    exact .inr ⟨_, t', marker, hsave, ⟨h.proper, h.entries, hmarker, rfl, hafter⟩, hle⟩

/-- A document that could not be kept leaves the entries as they are. -/
theorem Tidy.of_on_save_error (h : Tidy s t es) {e : SnapshotError}
    (hsave : (s.save d).on t = (.error e, t')) : Tidy s t' es := by
  rcases h.on_save d with ⟨e', t₁, hfail, htidy, -⟩ | ⟨n, t₁, marker, hok, -⟩
  · cases hsave.symm.trans hfail
    exact htidy
  · cases hsave.symm.trans hok

theorem Tidy.keeps_of_on_save (h : Tidy s t es) {kept : Snapshot}
    (hsave : (s.save d).on t = (.ok kept, t')) :
    ∃ n marker, kept = ⟨n, s.pathFor n⟩ ∧ s.Keeps t d n t' es marker ∧ n ≤ Nat.pow 2 64 := by
  rcases h.on_save d with ⟨e, t₁, hfail, -⟩ | ⟨n, t₁, marker, hok, hkeeps, hn⟩
  · cases hsave.symm.trans hfail
  · cases hsave.symm.trans hok
    exact ⟨n, marker, rfl, hkeeps, hn⟩

end Tidy

/-! ## Remembering the last document that was taken -/

variable (answers)

/-- The directory names a cycle by the number of its snapshot, and holds the document that it
rendered and sent. -/
structure Remembered (g : Cycle σ) (es : Entries) (n : Nat) (d : Document) : Prop where
  outcome : ∃ report, g.outcome answers = .ok report ∧ report.snapshotSeq = n
  issued : g.issued answers = some n
  rendered : g.rendered answers = .ok d
  sent : g.sent answers = [g.manager.client.loadRequest d]
  readable : Document.decode d.pretty = .ok d
  small : n ≤ Nat.pow 2 64
  marker : es.lookup markerName = some (.file (Utf8.encode (Numeral.write n)))
  file : es.lookup (fileName n) = some (.file d.pretty)

/-- The directory names the last cycle whose document was taken, if there is one. -/
def Remembers (es : Entries) : Option (Cycle σ) → Prop
  | none => es.lookup markerName = none
  | some g => ∃ n d, Remembered answers g es n d

variable {answers}

section Remembers

variable {s : SnapshotDir} {t t' : FileTree} {es es' : Entries} {d : Document} {n : Nat}
  {marker : Option Nat} {g : Cycle σ}

theorem Remembered.transfer (h : Remembered answers g es n d)
    (hmarker : es'.lookup markerName = es.lookup markerName)
    (hfile : es'.lookup (fileName n) = es.lookup (fileName n)) : Remembered answers g es' n d :=
  { h with
    marker := hmarker.trans h.marker
    file := hfile.trans h.file }

/-- A readable marker names the remembered cycle. -/
theorem Remembered.marker_eq (h : Remembered answers g es n d)
    (hmarker : s.markerOf es = .ok marker) : marker = some n ∧ n < Nat.pow 2 64 := by
  rw [markerOf, h.marker] at hmarker
  simp only [Files.textOf, Utf8.decode?_encode, Numeral.u64?_trimBlank_write] at hmarker
  by_cases hn : n < Nat.pow 2 64
  · rw [if_pos hn] at hmarker
    cases hmarker
    exact ⟨rfl, hn⟩
  · rw [if_neg hn] at hmarker
    cases hmarker

/-- **A new snapshot does not disturb what is remembered.** -/
theorem Remembers.of_keeps {last : Option (Cycle σ)} (h : Remembers answers es last)
    (hkeeps : s.Keeps t d n t' es marker) :
    Remembers answers (replaceFile (fileName n) d.pretty es) last := by
  have hmarker := lookup_marker_replaceFile n d.pretty es
  cases last with
  | none => exact hmarker.trans h
  | some g =>
    obtain ⟨k, d', hk⟩ := h
    obtain ⟨rfl, -⟩ := hk.marker_eq hkeeps.marked
    have hne : fileName k ≠ fileName n := by
      intro heq
      have hlt := marker_lt_nextIn es k
      rw [← hkeeps.seq, fileName_injective heq] at hlt
      exact Nat.lt_irrefl n hlt
    exact ⟨k, d', hk.transfer hmarker (lookup_fileName_replaceFile hne _ es)⟩

/-- **The newest snapshot stays** when it was marked and old ones are removed. -/
theorem holds_prunedFiles {m : SyncManager} (hkeeps : m.snapshots.Keeps t d n t' es marker)
    (hfiles : AllFiles es) :
    ∃ done, m.snapshots.Holds (m.prunedFiles n t').2
        (without done (markedIn n (replaceFile (fileName n) d.pretty es))) ∧
      markerName ∉ done ∧ fileName n ∉ done := by
  have hs := hkeeps.proper
  have hkept := allFiles_replaceFile hfiles (fileName n) d.pretty
  obtain ⟨t₁, hmark, h₁⟩ := on_markGood hs hkeeps.after (hkept.canReplace _) n
  obtain ⟨gone, done, rest, t₂, r, hsub, hother, hsplit, hprune, hholds, -⟩ :=
    on_prune hs h₁ m.keep
  -- whatever is removed has a number, which is not the marked one
  have hnamed : ∀ name ∈ done, ∃ k, parseName? name = some k ∧
      m.snapshots.markerOf (markedIn n (replaceFile (fileName n) d.pretty es)) ≠ .ok (some k) := by
    intro name hname
    obtain ⟨v, hv, rfl⟩ := List.mem_map.1 (hsplit ▸ List.mem_append_left rest hname)
    exact ⟨v.seq, (entryName_spec (hsub.subset hv)).2.1, hother v hv⟩
  refine ⟨done, ?_, fun hmem => ?_, fun hmem => ?_⟩
  · have hfinal : (m.prunedFiles n t').2 = t₂ := by
      rw [SyncManager.prunedFiles, SyncManager.markedFiles, hmark, hprune]
    rwa [hfinal]
  · obtain ⟨k, hk, -⟩ := hnamed _ hmem
    cases parseName?_marker.symm.trans hk
  · obtain ⟨k, hk, hne⟩ := hnamed _ hmem
    rw [parseName?_fileName, Option.ite_none_right_eq_some, Option.some.injEq] at hk
    obtain ⟨hn, rfl⟩ := hk
    exact hne (markerOf_of_lookup hn (lookup_marker_markedIn n _))

end Remembers

/-! ## What holds after every run -/

section Step

variable {s : SnapshotDir} {start w : Plant σ} {past cycles : List (Cycle σ)} {c : Cycle σ}
  {es : Entries}

/-- **One more cycle.**  If the directory remembers the last cycle whose document was taken, then it
does so after the next cycle. -/
theorem Follows.remembers (h : Follows answers s start past w c) (htidy : Tidy s w.files es)
    (hremembers : Remembers answers es (lastTaken? answers past)) :
    ∃ es', Tidy s (c.after answers).files es' ∧
      Remembers answers es' (lastTaken? answers (past ++ [c])) := by
  rw [lastTaken?_concat]
  obtain ⟨outcome, w', houtcome, hafter, hends⟩ := c.ends answers
  rw [Cycle.isTaken, houtcome, hafter]
  obtain ⟨hrun, hdir, hkeep, hfiles, hrunning⟩ := h
  subst hdir
  rw [← hfiles] at htidy
  -- the marker moves only with a document that is taken; until then it and its file stay
  cases hends with
  | unrendered hrender hrendering => exact ⟨es, htidy, hremembers⟩
  | @unsaved d _ cause t hrender hrendering hsave =>
    exact ⟨es, htidy.of_on_save_error hsave, hremembers⟩
  | @taken d _ kept t hrender hrendering hsave hpush =>
    obtain ⟨n, marker, rfl, hkeeps, hn⟩ := htidy.keeps_of_on_save hsave
    obtain ⟨done, hholds, hmarker, hfile⟩ := holds_prunedFiles hkeeps htidy.files
    have hkept := allFiles_replaceFile htidy.files (fileName n) d.pretty
    refine ⟨_, ⟨htidy.proper, hholds.orAbsent, hholds.canMake,
      allFiles_without (allFiles_replaceFile hkept _ _) done⟩, n, d, ?_⟩
    exact {
      outcome := ⟨_, houtcome, rfl⟩
      issued := Cycle.issued_eq answers (by rw [Cycle.rendered, hrender]) hsave
      rendered := by rw [Cycle.rendered, hrender]
      sent := Cycle.sent_eq answers (by rw [hafter]; rfl)
      readable := hrendering.decode_pretty
      small := hn
      marker := by rw [lookup_without, if_neg hmarker, lookup_marker_markedIn]
      file := by
        rw [lookup_without, if_neg hfile, lookup_fileName_markedIn, lookup_replaceFile_self] }
  | @untaken d _ kept t e r p hrender hrendering hsave hpush hback =>
    obtain ⟨n, marker, rfl, hkeeps, -⟩ := htidy.keeps_of_on_save hsave
    exact ⟨_, hkeeps.tidy htidy.files, hremembers.of_keeps hkeeps⟩

/-- **After every run the directory remembers** the last cycle whose document was taken. -/
theorem IsRun.remembers (h : IsRun answers s start cycles w) (htidy : Tidy s start.files []) :
    ∃ es, Tidy s w.files es ∧ Remembers answers es (lastTaken? answers cycles) := by
  induction h with
  | nil => exact ⟨[], htidy, rfl⟩
  | snoc c hpast hdir hkeep hfiles hrunning ih =>
    obtain ⟨es, hes, hremembers⟩ := ih
    exact Follows.remembers ⟨hpast, hdir, hkeep, hfiles, hrunning⟩ hes hremembers

end Step

end Runs

/-! ## A run of two cycles -/

/-- The first cycle of a manager, whose document the proxy takes. -/
def firstCycle : Cycle MemoryStore := ⟨localManager, Plant.ofFiles FileTree.empty⟩

/-- The cycle after it, whose document the proxy refuses. -/
def secondCycle : Cycle MemoryStore := ⟨localManager, firstCycle.after MemoryStore.answer⟩

theorem absent_ofFiles_empty :
    (FileTree.answer (.isPresent (SnapshotDir.below "/etc/proxy").dir)
      (Plant.ofFiles FileTree.empty).files).1 = false := rfl

theorem makeDirs_ofFiles_empty :
    (FileTree.answer (.makeDirs (SnapshotDir.below "/etc/proxy").dir)
      (Plant.ofFiles FileTree.empty).files).1 = .ok () := rfl

theorem before_secondCycle : secondCycle.before = firstCycle.after MemoryStore.answer := by
  rw [secondCycle]

theorem isRun_firstCycle :
    IsRun MemoryStore.answer (SnapshotDir.below "/etc/proxy") (Plant.ofFiles FileTree.empty)
      [firstCycle] (firstCycle.after MemoryStore.answer) := by
  rw [← List.nil_append [firstCycle]]
  refine .snoc firstCycle .nil ?_ ?_ ?_ ?_
  · rfl
  · decide
  · rw [firstCycle]
  · rw [firstCycle]

theorem isRun_secondCycle :
    IsRun MemoryStore.answer (SnapshotDir.below "/etc/proxy") (Plant.ofFiles FileTree.empty)
      [firstCycle, secondCycle] (secondCycle.after MemoryStore.answer) := by
  rw [← List.singleton_append]
  refine .snoc secondCycle isRun_firstCycle ?_ ?_ ?_ ?_
  · rfl
  · decide
  · rw [before_secondCycle]
  · rw [before_secondCycle]

theorem isTaken_firstCycle : firstCycle.isTaken MemoryStore.answer = true := by decide +kernel

theorem issued_firstCycle : firstCycle.issued MemoryStore.answer = some 1 := by decide +kernel

theorem untaken_secondCycle : secondCycle.isTaken MemoryStore.answer = false ∧
    secondCycle.issued MemoryStore.answer = some 2 := by decide +kernel

end ProxyPlane
