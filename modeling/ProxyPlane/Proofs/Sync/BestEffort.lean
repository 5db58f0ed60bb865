import Mathlib.Data.List.Forall2
import ProxyPlane.Proofs.Execution
import ProxyPlane.Proofs.Sync.Effects
import ProxyPlane.Proofs.Sync.Interruption

/-!
# What does not change how a cycle ends

How a cycle ends, what it sends and which files it leaves depend on the desired state, on the files
and on two replies.  Nothing depends on whether a row of the audit was written, and what a cycle
reports once the proxy took its document does not depend on whether the files can still be changed.

## What is here

* `SyncManager.course`, how a cycle goes as a function of what it depends on, and `Cycle.goes`:
  every cycle goes like that.
* `FlakyAudit`, a store that takes only some of the rows, and `IsRun.sameCourse`: runs over stores
  that only differ in the rows that they take go the same way.
* `Plant.MayAnswer`, a world whose files fail once a document was sent, and `mayEnd_finish_iff`.
* `bestEffort_apply`: the best-effort steps never change how a cycle ends.
-/

set_option autoImplicit false
namespace ProxyPlane

/-! ## How a cycle goes -/

/-- How a cycle ends, the documents that it sends, and the files after it. -/
structure Course where
  outcome : Except SyncError ApplyReport
  sent : List Document
  files : FileTree

namespace SyncManager

/-- What comes of sending an earlier snapshot, and the documents that are sent. -/
def rollbackCourse (m : SyncManager) (failed : Nat) (t : FileTree) (reply : Reply) :
    Except RollbackError Nat × List Document :=
  match ((m.rollbackSeq failed).on t).1 with
  | .error e => (.error (.snapshot e), [])
  | .ok none => (.error .unavailable, [])
  | .ok (some target) =>
    match ((m.snapshots.load target).on t).1 with
    | .error e => (.error (.snapshot e), [])
    | .ok d =>
      match AdminClient.verdict reply with
      | .error e => (.error (.push e), [d])
      | .ok () => (.ok target, [d])

/-- How a cycle goes, from what was rendered, the files and the replies to come. -/
def course (m : SyncManager) (rendered : Except SyncError Document) (t : FileTree)
    (upcoming : Nat → Reply) : Course :=
  match rendered with
  | .error e => ⟨.error e, [], t⟩
  | .ok d =>
    match (m.snapshots.save d).on t with
    | (.error cause, t) => ⟨.error (.snapshot cause), [], t⟩
    | (.ok kept, t) =>
      match AdminClient.verdict (upcoming 0) with
      | .ok () =>
        let (pruned, t) := m.prunedFiles kept.seq t
        ⟨.ok ⟨kept.seq, d.digest, routeCount d, pruned.toOption.getD 0⟩, [d], t⟩
      | .error e =>
        let (restored, sent) := m.rollbackCourse kept.seq t (upcoming 1)
        ⟨.error (SyncError.ofRollback e restored), d :: sent, t⟩

end SyncManager

/-- The replies to come. -/
def Proxy.upcoming (p : Proxy) (k : Nat) : Reply := p.replies (p.requests.length + k)

section Course

variable {σ : Type} (answers : {β : Type} → StoreOp β → σ → β × σ) {m : SyncManager}

theorem RollsBack.course {seq : Nat} {t : FileTree} {p q : Proxy}
    {r : Except RollbackError Nat} (h : RollsBack m seq t p r q) :
    ∃ sent, m.rollbackCourse seq t p.reply = (r, sent) ∧
      q.requests = p.requests ++ sent.map m.client.loadRequest := by
  cases h with
  | unchosen hseq => exact ⟨[], by simp [SyncManager.rollbackCourse, hseq]⟩
  | unavailable hseq => exact ⟨[], by simp [SyncManager.rollbackCourse, hseq]⟩
  | unloaded hseq hload => exact ⟨[], by simp [SyncManager.rollbackCourse, hseq, hload]⟩
  | @refused _ d _ hseq hload hpush =>
    exact ⟨[d], by simp [SyncManager.rollbackCourse, hseq, hload, hpush, Proxy.after]⟩
  | @restored _ d hseq hload hpush =>
    exact ⟨[d], by simp [SyncManager.rollbackCourse, hseq, hload, hpush, Proxy.after]⟩

/-- A cycle went as it had to. -/
structure Goes (m : SyncManager) (w : Plant σ) (course : Course)
    (outcome : Except SyncError ApplyReport) (w' : Plant σ) : Prop where
  outcome : outcome = course.outcome
  requests : w'.proxy.requests = w.proxy.requests ++ course.sent.map m.client.loadRequest
  files : w'.files = course.files

variable {answers}

/-- **Every cycle goes as it has to.** -/
theorem Ends.goes {w w' : Plant σ} {outcome : Except SyncError ApplyReport}
    (h : Ends answers m w outcome w') :
    Goes m w (m.course (m.render.run (Plant.answer answers) w).1 w.files w.proxy.upcoming)
      outcome w' := by
  cases h with
  | unrendered hrender hrendering =>
    rw [hrender]
    exact ⟨rfl, (List.append_nil _).symm, rfl⟩
  | unsaved hrender hrendering hsave =>
    rw [hrender]
    simp only [SyncManager.course, hsave]
    exact ⟨rfl, (List.append_nil _).symm, rfl⟩
  | taken hrender hrendering hsave hpush =>
    have hreply : AdminClient.verdict (w.proxy.upcoming 0) = .ok () := hpush
    rw [hrender]
    simp only [SyncManager.course, hsave, hreply]
    exact ⟨rfl, rfl, rfl⟩
  | @untaken d s kept t e r p hrender hrendering hsave hpush hback =>
    have hreply : AdminClient.verdict (w.proxy.upcoming 0) = .error e := hpush
    obtain ⟨sent, hcourse, hrequests⟩ := hback.course
    have hsecond : (w.proxy.after (m.client.loadRequest d)).reply = w.proxy.upcoming 1 := by
      simp [Proxy.reply, Proxy.after, Proxy.upcoming]
    rw [hsecond] at hcourse
    rw [hrender]
    simp only [SyncManager.course, hsave, hreply, hcourse]
    refine ⟨rfl, ?_, rfl⟩
    show p.requests = _
    rw [hrequests]
    simp [Proxy.after]

/-- A document was sent just if one was kept. -/
theorem exists_of_sent_ne_nil {rendered : Except SyncError Document} {t : FileTree}
    {upcoming : Nat → Reply} (h : (m.course rendered t upcoming).sent ≠ []) :
    ∃ d kept t', rendered = .ok d ∧ (m.snapshots.save d).on t = (.ok kept, t') := by
  cases rendered with
  | error e => exact absurd rfl h
  | ok d =>
    cases hsave : (m.snapshots.save d).on t with
    | mk r t' =>
      cases r with
      | error cause => simp [SyncManager.course, hsave] at h
      | ok kept => exact ⟨d, kept, t', rfl, hsave⟩

/-- How the cycle goes. -/
def Cycle.course (answers : {β : Type} → StoreOp β → σ → β × σ) (c : Cycle σ) : Course :=
  c.manager.course (c.rendered answers) c.before.files c.before.proxy.upcoming

theorem Cycle.goes (c : Cycle σ) :
    Goes c.manager c.before (c.course answers) (c.outcome answers) (c.after answers) :=
  (ends_apply answers c.manager c.before).goes

theorem Cycle.sent_eq_map (c : Cycle σ) :
    c.sent answers = (c.course answers).sent.map c.manager.client.loadRequest :=
  c.sent_eq answers c.goes.requests

end Course

/-! ## Runs over stores that differ in the rows that they take -/

section SameRun

variable {σ τ : Type} (answers : {β : Type} → StoreOp β → σ → β × σ)
  (answers' : {β : Type} → StoreOp β → τ → β × τ)

/-- Two cycles meet the same: the same records and setting are read, and the proxy is going to reply
the same.  The files are not compared here, and neither are the clock and the audit. -/
structure SameInput (c : Cycle σ) (c' : Cycle τ) : Prop where
  manager : c'.manager = c.manager
  records : (answers' .records c'.before.store).1 = (answers .records c.before.store).1
  email : (answers' (.setting acmeEmailSetting) (answers' .records c'.before.store).2).1 =
    (answers (.setting acmeEmailSetting) (answers .records c.before.store).2).1
  replies : c'.before.proxy.upcoming = c.before.proxy.upcoming

/-- Two cycles end with the same report or error, send the same requests and leave equal files. -/
structure SameCourse (c : Cycle σ) (c' : Cycle τ) : Prop where
  outcome : c'.outcome answers' = c.outcome answers
  sent : c'.sent answers' = c.sent answers
  files : (c'.after answers').files = (c.after answers).files

variable {answers answers'}

theorem SameInput.rendered {c : Cycle σ} {c' : Cycle τ} (h : SameInput answers answers' c c') :
    c'.rendered answers' = c.rendered answers := by
  simp only [Cycle.rendered, SyncManager.render, SyncProgram.store, Program.bind_eq,
    Program.run_bind, Program.run_perform, Plant.answer, Plant.answerStore, h.records]
  cases (answers .records c.before.store).1 with
  | error e => rfl
  | ok records =>
    simp only [Program.run_bind, Program.run_perform, Plant.answer, Plant.answerStore, h.email]
    cases (answers (.setting acmeEmailSetting) (answers .records c.before.store).2).1 with
    | error e => rfl
    | ok email =>
      simp only [Program.pure_eq, Program.run_done, h.manager]

/-- **A cycle that meets the same goes the same way.** -/
theorem SameInput.sameCourse {c : Cycle σ} {c' : Cycle τ} (h : SameInput answers answers' c c')
    (hfiles : c'.before.files = c.before.files) : SameCourse answers answers' c c' := by
  have hcourse : c'.course answers' = c.course answers := by
    rw [Cycle.course, Cycle.course, h.manager, h.rendered, hfiles, h.replies]
  refine ⟨?_, ?_, ?_⟩
  · rw [c'.goes.outcome, c.goes.outcome, hcourse]
  · rw [c'.sent_eq_map, c.sent_eq_map, hcourse, h.manager]
  · rw [c'.goes.files, c.goes.files, hcourse]

theorem exists_of_forall₂_concat {α β : Type} {R : α → β → Prop} {xs : List α} {x : α}
    {ys : List β} (h : List.Forall₂ R (xs ++ [x]) ys) :
    ∃ ys' y, ys = ys' ++ [y] ∧ List.Forall₂ R xs ys' ∧ R x y := by
  rw [← List.forall₂_reverse_iff, List.reverse_append, List.reverse_singleton,
    List.singleton_append, List.forall₂_cons_left_iff] at h
  obtain ⟨y, ys', hxy, hrest, hys⟩ := h
  refine ⟨ys'.reverse, y, ?_, ?_, hxy⟩
  · rw [← List.reverse_reverse ys, hys, List.reverse_cons]
  · rwa [← List.forall₂_reverse_iff, List.reverse_reverse]

/-- **Two runs that meet the same go the same way**, cycle by cycle. -/
theorem IsRun.sameCourse {s : SnapshotDir} {start w : Plant σ} {start' w' : Plant τ}
    {cycles : List (Cycle σ)} {cycles' : List (Cycle τ)} (h : IsRun answers s start cycles w)
    (h' : IsRun answers' s start' cycles' w') (hfiles : start'.files = start.files)
    (hsame : List.Forall₂ (SameInput answers answers') cycles cycles') :
    List.Forall₂ (SameCourse answers answers') cycles cycles' ∧ w'.files = w.files := by
  induction h generalizing cycles' w' with
  | nil =>
    obtain rfl := List.forall₂_nil_left_iff.1 hsame
    generalize hnil : ([] : List (Cycle τ)) = cycles' at h'
    cases h' with
    | nil => exact ⟨.nil, hfiles⟩
    | snoc c hpast hdir hkeep hfiles hrunning => exact absurd hnil (by simp)
  | snoc c hpast hdir hkeep hbefore hrunning ih =>
    obtain ⟨past', c', rfl, hpasts, hinput⟩ := exists_of_forall₂_concat hsame
    generalize hcycles : past' ++ [c'] = cycles' at h'
    cases h' with
    | nil => exact absurd hcycles (by simp)
    | snoc c₁ hpast' hdir' hkeep' hbefore' hrunning' =>
      obtain ⟨rfl, hc⟩ := List.append_inj' hcycles rfl
      cases hc
      obtain ⟨hcourses, hsofar⟩ := ih hpast' hpasts
      have hcourse := hinput.sameCourse (hbefore'.trans (hsofar.trans hbefore.symm))
      exact ⟨List.rel_append hcourses (.cons hcourse .nil), hcourse.files⟩

end SameRun

/-! ## Stores that take only some rows -/

/-- A store behind which some calls to put a row into the audit fail. -/
structure FlakyAudit (σ : Type) where
  store : σ
  /-- The calls so far. -/
  calls : Nat
  /-- Why a call fails, by the number of calls before; the others are passed on. -/
  fails : Nat → Option StoreError

/-- The answer of a store that takes only some rows, and the store after it. -/
def FlakyAudit.answer {σ : Type} (answers : {β : Type} → StoreOp β → σ → β × σ) :
    {β : Type} → StoreOp β → FlakyAudit σ → β × FlakyAudit σ
  | _, .appendAudit row, s =>
    match s.fails s.calls with
    | some e => (.error e, { s with calls := s.calls + 1 })
    | none =>
      let r := answers (.appendAudit row) s.store
      (r.1, { s with store := r.2, calls := s.calls + 1 })
  | _, op, s =>
    let r := answers op s.store
    (r.1, { s with store := r.2 })

/-! ## Files that fail once a document was sent -/

section Failing

variable {σ α : Type} (answers : {β : Type} → StoreOp β → σ → β × σ)

/-- The request is not one to the files. -/
def SyncOp.SparesDisk : {β : Type} → SyncOp β → Prop
  | _, .file _ => False
  | _, _ => True

/-- A request to the files is answered, or fails for any cause. -/
def Plant.FilesMayAnswer : {β : Type} → SyncOp β → Plant σ → β → Plant σ → Prop
  | _, .file op, w, b, w' => ∃ t, FileTree.MayAnswer op w.files b t ∧ w' = { w with files := t }
  | _, _, _, _, _ => False

/-- A request is answered, or it is one to the files and fails; they only fail once more than so
many requests were sent to the proxy. -/
def Plant.MayAnswer (sent : Nat) {β : Type} (op : SyncOp β) (w : Plant σ) (b : β)
    (w' : Plant σ) : Prop :=
  (b, w') = Plant.answer answers op w ∨
    sent < w.proxy.requests.length ∧ Plant.FilesMayAnswer op w b w'

variable {answers} {sent : Nat} {m : SyncManager} {w w' : Plant σ} {a : α} {d : Document}

theorem Plant.mayAnswer_iff_of_sparesDisk {β : Type} {op : SyncOp β} {b : β}
    (h : op.SparesDisk) :
    Plant.MayAnswer answers sent op w b w' ↔ (b, w') = Plant.answer answers op w := by
  refine or_iff_left fun hfails => ?_
  cases op with
  | file op => exact h
  | store op => exact hfails.2
  | admin op => exact hfails.2
  | clock op => exact hfails.2

theorem Plant.mayAnswer_file_iff {β : Type} {op : FileOp β} {b : β}
    (h : sent < w.proxy.requests.length) :
    Plant.MayAnswer answers sent (.file op) w b w' ↔
      ∃ t, FileTree.MayAnswer op w.files b t ∧ w' = { w with files := t } := by
  refine ⟨?_, fun hfiles => .inr ⟨h, hfiles⟩⟩
  rintro (hanswer | ⟨-, hfiles⟩)
  · obtain ⟨rfl, rfl⟩ := Prod.mk.inj hanswer
    exact ⟨_, .inl rfl, rfl⟩
  · exact hfiles

/-- Programs that do not touch files end in one way. -/
theorem mayEnd_iff_of_sparesDisk {p : SyncProgram α} (hp : p.Asks SyncOp.SparesDisk) :
    p.MayEnd (Plant.MayAnswer answers sent) w a w' ↔
      (a, w') = p.run (Plant.answer answers) w :=
  Program.mayEnd_iff_run hp (fun _ => True)
    (fun _ _ _ _ hop _ => Plant.mayAnswer_iff_of_sparesDisk hop) (fun _ _ _ _ => trivial) trivial

theorem asks_files_touchesDisk (p : FileProgram α) :
    (SyncProgram.files p).Asks fun op => ¬op.SparesDisk := by
  rw [SyncProgram.files]
  induction p with
  | done a => trivial
  | step e next ih => exact ⟨id, ih⟩

/-- Programs on files end in one way as long as nothing was sent. -/
theorem mayEnd_files_iff_of_le {p : FileProgram α} (h : w.proxy.requests.length ≤ sent) :
    (SyncProgram.files p).MayEnd (Plant.MayAnswer answers sent) w a w' ↔
      (a, w') = (SyncProgram.files p).run (Plant.answer answers) w := by
  refine Program.mayEnd_iff_run (asks_files_touchesDisk p)
    (fun v => v.proxy.requests.length ≤ sent)
    (fun op v b v' _ hv => or_iff_left fun hfails => by omega) (fun op v hop hv => ?_) h
  cases op with
  | file op => exact hv
  | store op => exact absurd trivial hop
  | admin op => exact absurd trivial hop
  | clock op => exact absurd trivial hop

/-- **Programs on files end within a cycle as they do on files alone** once something was sent. -/
theorem mayEnd_files_iff {p : FileProgram α} (h : sent < w.proxy.requests.length) :
    (SyncProgram.files p).MayEnd (Plant.MayAnswer answers sent) w a w' ↔
      ∃ t, p.MayEnd FileTree.MayAnswer w.files a t ∧ w' = { w with files := t } := by
  rw [SyncProgram.files, Program.mayEnd_via]
  simp only [Program.mayEnd_perform]
  induction p generalizing w with
  | done r => simp [and_assoc]
  | step e next ih =>
    simp only [Program.mayEnd_step, Plant.mayAnswer_file_iff h]
    constructor
    · rintro ⟨b, w₁, ⟨t₁, hanswer, rfl⟩, hrest⟩
      obtain ⟨t, hend, rfl⟩ := (ih b (w := { w with files := t₁ }) h).1 hrest
      exact ⟨t, ⟨b, t₁, hanswer, hend⟩, rfl⟩
    · rintro ⟨t, ⟨b, t₁, hanswer, hend⟩, rfl⟩
      exact ⟨b, _, ⟨t₁, hanswer, rfl⟩,
        (ih b (w := { w with files := t₁ }) h).2 ⟨t, hend, rfl⟩⟩

theorem SyncOp.ReadsState.sparesDisk {β : Type} {op : SyncOp β} (h : op.ReadsState) :
    op.SparesDisk := by
  cases op with
  | file op => exact h
  | store op => trivial
  | admin op => trivial
  | clock op => trivial

/-- **What comes of the best-effort steps**: the report carries what removing old snapshots gave,
and nothing else of them. -/
theorem mayEnd_finish_iff {seq : Nat} {report : ApplyReport}
    (h : sent < w.proxy.requests.length) :
    (m.finish d seq).MayEnd (Plant.MayAnswer answers sent) w report w' ↔
      ∃ marked t₁ pruned t₂,
        (m.snapshots.markGood seq).run.MayEnd FileTree.MayAnswer w.files marked t₁ ∧
        (m.snapshots.prune m.keep).run.MayEnd FileTree.MayAnswer t₁ pruned t₂ ∧
        report = ⟨seq, d.digest, SyncManager.routeCount d, pruned.toOption.getD 0⟩ ∧
        w' = { w.audited answers d.digest none with files := t₂ } := by
  have haudit : (SyncManager.audit d.digest none).Asks SyncOp.SparesDisk :=
    ⟨trivial, fun _ => ⟨trivial, fun _ => trivial⟩⟩
  have hsent : sent < (w.audited answers d.digest none).proxy.requests.length := h
  rw [SyncManager.finish, Program.bind_eq,
    Program.mayEnd_bind_of_iff fun _ _ => mayEnd_iff_of_sparesDisk haudit, run_audit]
  simp only [Program.bind_eq, Program.mayEnd_bind]
  constructor
  · rintro ⟨marked, w₂, hmark, pruned, w₃, hprune, rfl, rfl⟩
    obtain ⟨t₁, hmarks, rfl⟩ := (mayEnd_files_iff hsent).1 hmark
    obtain ⟨t₂, hprunes, rfl⟩ := (mayEnd_files_iff (w := { w.audited answers _ _ with files := t₁ })
      hsent).1 hprune
    exact ⟨marked, t₁, pruned, t₂, hmarks, hprunes, rfl, rfl⟩
  · rintro ⟨marked, t₁, pruned, t₂, hmark, hprune, rfl, rfl⟩
    exact ⟨marked, _, (mayEnd_files_iff hsent).2 ⟨t₁, hmark, rfl⟩, pruned, _,
      (mayEnd_files_iff (w := { w.audited answers _ _ with files := t₁ })
        hsent).2 ⟨t₂, hprune, rfl⟩, rfl, rfl⟩

/-- **How a cycle may end whose document was taken**, if the files fail after that. -/
theorem mayEnd_apply_iff {outcome : Except SyncError ApplyReport} {s : σ} {kept : Snapshot}
    {t : FileTree}
    (hrender : m.render.run (Plant.answer answers) w = (.ok d, { w with store := s }))
    (hsave : (m.snapshots.save d).on w.files = (.ok kept, t))
    (hpush : AdminClient.verdict w.proxy.reply = .ok ()) :
    m.apply.MayEnd (Plant.MayAnswer answers w.proxy.requests.length) w outcome w' ↔
      ∃ marked t₁ pruned t₂,
        (m.snapshots.markGood kept.seq).run.MayEnd FileTree.MayAnswer t marked t₁ ∧
        (m.snapshots.prune m.keep).run.MayEnd FileTree.MayAnswer t₁ pruned t₂ ∧
        outcome =
          .ok ⟨kept.seq, d.digest, SyncManager.routeCount d, pruned.toOption.getD 0⟩ ∧
        w' = { (w.pushed s t (m.client.loadRequest d)).audited answers d.digest none with
          files := t₂ } := by
  have hreads : m.render.Asks SyncOp.SparesDisk :=
    asks_render.mono fun _ hop => hop.sparesDisk
  have hload : (SyncProgram.admin (m.client.load d)).Asks SyncOp.SparesDisk :=
    ⟨trivial, fun _ => trivial⟩
  have hlonger : w.proxy.requests.length <
      (w.pushed s t (m.client.loadRequest d)).proxy.requests.length := by
    simp [Plant.pushed, Proxy.after]
  have hkeep := run_snapshots answers (w := { w with store := s }) hsave
  -- nothing may fail before the push is sent, so that there is one way to get there
  rw [SyncManager.apply, Program.bind_eq,
    Program.mayEnd_bind_of_iff fun _ _ => mayEnd_iff_of_sparesDisk hreads, hrender]
  simp only [Program.bind_eq]
  rw [Program.mayEnd_bind_of_iff fun _ _ => mayEnd_files_iff_of_le (w := { w with store := s })
    (Nat.le_refl w.proxy.requests.length), hkeep]
  simp only
  rw [Program.mayEnd_bind_of_iff fun _ _ => mayEnd_iff_of_sparesDisk hload, run_load]
  simp only [hpush, Program.mayEnd_bind]
  constructor
  · rintro ⟨report, w₁, hfinish, rfl, rfl⟩
    obtain ⟨marked, t₁, pruned, t₂, hmark, hprune, rfl, rfl⟩ :=
      (mayEnd_finish_iff hlonger).1 hfinish
    exact ⟨marked, t₁, pruned, t₂, hmark, hprune, rfl, rfl⟩
  · rintro ⟨marked, t₁, pruned, t₂, hmark, hprune, rfl, rfl⟩
    exact ⟨_, _, (mayEnd_finish_iff hlonger).2
      ⟨marked, t₁, pruned, t₂, hmark, hprune, rfl, rfl⟩, rfl, rfl⟩

end Failing

/-! ## Best-effort steps -/

section BestEffort

variable {σ : Type} (answers : {β : Type} → StoreOp β → σ → β × σ)

/-- The cycle may end with an outcome and leave these files, if files fail after its first
request. -/
def Cycle.MayLeave (c : Cycle σ) (outcome : Except SyncError ApplyReport) (files : FileTree) :
    Prop :=
  ∃ w', c.manager.apply.MayEnd (Plant.MayAnswer answers c.before.proxy.requests.length) c.before
    outcome w' ∧ w'.files = files

/-- A cycle that ended with a report may end with that report only, save for the number of snapshots
that were removed: that is what removing them gave, and none if it failed.  Whether marking the
snapshot or removing old ones succeeds is left open. -/
def Cycle.Reports (c : Cycle σ) (report : ApplyReport) : Prop :=
  c.outcome answers = .ok report ∧
    ∃ d t, c.rendered answers = .ok d ∧
      ((c.manager.snapshots.save d).on c.before.files).2 = t ∧
      ∀ outcome files, c.MayLeave answers outcome files ↔
        ∃ marked t₁ pruned,
          (c.manager.snapshots.markGood report.snapshotSeq).run.MayEnd FileTree.MayAnswer t
            marked t₁ ∧
          (c.manager.snapshots.prune c.manager.keep).run.MayEnd FileTree.MayAnswer t₁ pruned
            files ∧
          outcome = .ok { report with pruned := pruned.toOption.getD 0 }

variable {answers}

/-- **A cycle that sent something and whose first request was answered with success** reports it. -/
theorem Cycle.exists_reports (c : Cycle σ) (hsent : c.sent answers ≠ [])
    (htakes : c.before.proxy.Takes) : ∃ report, c.Reports answers report := by
  have hpush := takes_iff.1 htakes
  rw [c.sent_eq_map, ne_eq, List.map_eq_nil_iff] at hsent
  obtain ⟨d, kept, t, hrendered, hsave⟩ := exists_of_sent_ne_nil hsent
  obtain ⟨r, s, hrender, -⟩ := run_render answers c.manager c.before
  obtain rfl : r = .ok d := by rw [← hrendered, Cycle.rendered, hrender]
  refine ⟨⟨kept.seq, d.digest, SyncManager.routeCount d,
    (c.manager.prunedFiles kept.seq t).1.toOption.getD 0⟩, ?_, d, t, hrendered, by rw [hsave],
    fun outcome files => ?_⟩
  · have hreply : AdminClient.verdict (c.before.proxy.upcoming 0) = .ok () := hpush
    rw [c.goes.outcome, Cycle.course, hrendered]
    simp only [SyncManager.course, hsave, hreply]
  · simp only [Cycle.MayLeave, mayEnd_apply_iff hrender hsave hpush]
    constructor
    · rintro ⟨w', ⟨marked, t₁, pruned, t₂, hmark, hprune, houtcome, rfl⟩, rfl⟩
      exact ⟨marked, t₁, pruned, hmark, hprune, houtcome⟩
    · rintro ⟨marked, t₁, pruned, hmark, hprune, houtcome⟩
      exact ⟨_, ⟨marked, t₁, pruned, files, hmark, hprune, houtcome, rfl⟩, rfl⟩

/-- **The best-effort steps never change how a cycle ends.**  Take a run, and another one that meets
the same over a store whose calls to put a row into the audit fail wherever they like: every cycle
returns the same report or error, sends the same requests and leaves the same files.  And a cycle
whose first request is answered with success returns its report whatever comes of marking the
snapshot and removing old ones; none count as removed if that failed. -/
theorem bestEffort_apply {s : SnapshotDir} {start w : Plant σ}
    {start' w' : Plant (FlakyAudit σ)} {cycles : List (Cycle σ)}
    {cycles' : List (Cycle (FlakyAudit σ))} (hrun : IsRun answers s start cycles w)
    (hrun' : IsRun (FlakyAudit.answer answers) s start' cycles' w')
    (hfiles : start'.files = start.files)
    (hsame : List.Forall₂ (SameInput answers (FlakyAudit.answer answers)) cycles cycles') :
    List.Forall₂ (SameCourse answers (FlakyAudit.answer answers)) cycles cycles' ∧
      ∀ c : Cycle σ, c.sent answers ≠ [] → c.before.proxy.Takes →
        ∃ report, c.Reports answers report :=
  ⟨(hrun.sameCourse hrun' hfiles hsame).1, fun c => c.exists_reports⟩

/-- The same cycle where another plant left its files, over a store that takes only some rows. -/
def Cycle.flaky (c : Cycle σ) (fails : Nat → Option StoreError) (left : Plant (FlakyAudit σ)) :
    Cycle (FlakyAudit σ) where
  manager := c.manager
  before :=
    { files := left.files
      store := ⟨c.before.store, 0, fails⟩
      audit := c.before.audit
      proxy := { c.before.proxy with running := left.proxy.running }
      instants := c.before.instants
      reads := c.before.reads }

theorem sameInput_flaky (c : Cycle σ) (fails : Nat → Option StoreError)
    (left : Plant (FlakyAudit σ)) :
    SameInput answers (FlakyAudit.answer answers) c (c.flaky fails left) :=
  ⟨rfl, rfl, rfl, rfl⟩

/-- A run goes on with such a cycle. -/
theorem IsRun.flaky {s : SnapshotDir} {start left : Plant (FlakyAudit σ)}
    {past : List (Cycle (FlakyAudit σ))} {c : Cycle σ}
    (h : IsRun (FlakyAudit.answer answers) s start past left) (hdir : c.manager.snapshots = s)
    (hkeep : 1 ≤ c.manager.keep) (fails : Nat → Option StoreError) :
    IsRun (FlakyAudit.answer answers) s start (past ++ [c.flaky fails left])
      ((c.flaky fails left).after (FlakyAudit.answer answers)) :=
  .snoc (c.flaky fails left) h hdir hkeep rfl rfl

end BestEffort

/-- A store that takes no row. -/
def noRows : Nat → Option StoreError := fun _ => some .poisoned

/-- A plant without files, over a store that takes no row. -/
def flakyPlant : Plant (FlakyAudit MemoryStore) :=
  { firstCycle.before with store := ⟨firstCycle.before.store, 0, noRows⟩ }

/-- The first cycle over a store that takes no row. -/
def firstFlaky : Cycle (FlakyAudit MemoryStore) := firstCycle.flaky noRows flakyPlant

/-- The cycle after it. -/
def secondFlaky : Cycle (FlakyAudit MemoryStore) :=
  secondCycle.flaky noRows (firstFlaky.after (FlakyAudit.answer MemoryStore.answer))

theorem isRun_secondFlaky :
    IsRun (FlakyAudit.answer MemoryStore.answer) (SnapshotDir.below "/etc/proxy") flakyPlant
      [firstFlaky, secondFlaky] (secondFlaky.after (FlakyAudit.answer MemoryStore.answer)) :=
  IsRun.flaky (c := secondCycle)
    (IsRun.flaky (c := firstCycle) .nil rfl (by decide) noRows) rfl (by decide) noRows

/-- A document is taken and the next one refused, and no row is ever written. -/
theorem bestEffort_apply_noRows :
    List.Forall₂ (SameCourse MemoryStore.answer (FlakyAudit.answer MemoryStore.answer))
        [firstCycle, secondCycle] [firstFlaky, secondFlaky] ∧
      firstCycle.sent MemoryStore.answer ≠ [] ∧ firstCycle.before.proxy.Takes ∧
        ∃ report, firstCycle.Reports MemoryStore.answer report := by
  obtain ⟨hcourses, hreports⟩ := bestEffort_apply isRun_secondCycle isRun_secondFlaky rfl
    (.cons (sameInput_flaky _ _ _) (.cons (sameInput_flaky _ _ _) .nil))
  have hsent : firstCycle.sent MemoryStore.answer ≠ [] := by decide +kernel
  have htakes : firstCycle.before.proxy.Takes := ⟨_, rfl, rfl⟩
  exact ⟨hcourses, hsent, htakes, hreports firstCycle hsent htakes⟩

end ProxyPlane
