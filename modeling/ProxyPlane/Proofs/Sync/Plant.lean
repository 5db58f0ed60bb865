import ProxyPlane.Proofs.Render
import ProxyPlane.Proofs.Snapshot.Prune

/-!
# A cycle and what is around it

A cycle meets files, a store, a clock and a proxy.  The store may be anything that answers, and the
proxy may answer anything; it runs a document that only an accepted or a lost request replaces.

## What is here

* `Proxy`, what the proxy runs and how requests change that.
* `Plant`, all that a cycle meets, and `Plant.answer`.
* `run_files`, `run_load`, `run_audit` and `run_render`: what a part of a cycle changes.
* `Ends`, the ways in which a cycle can end, and `ends_apply`: there are no others.
-/

set_option autoImplicit false
namespace ProxyPlane

/-! ## The proxy -/

/-- A proxy that runs a document and may reply anything. -/
structure Proxy where
  /-- The document that it runs. -/
  running : Bytes
  /-- The requests that were sent, in order. -/
  requests : List Request
  /-- The replies, by the number of requests before. -/
  replies : Nat → Reply
  /-- Whether a request has an effect although no reply arrives. -/
  lands : Nat → Bool

namespace Proxy

/-- Whether a request asks to replace the document. -/
def isLoad (r : Request) : Bool :=
  r.method == "POST" && "/load".toList.isSuffixOf r.url.toList

/-- The reply to the next request. -/
def reply (p : Proxy) : Reply := p.replies p.requests.length

/-- What the proxy runs after the next request.  It takes the body of a load that it answers with
success, and may take that of one whose reply is lost. -/
def runningAfter (p : Proxy) (r : Request) : Bytes :=
  if isLoad r then
    match p.reply with
    | .ok response => if HttpStatus.isSuccess response.status then r.body else p.running
    | .error _ => if p.lands p.requests.length then r.body else p.running
  else p.running

/-- The proxy after the next request. -/
def after (p : Proxy) (r : Request) : Proxy :=
  { p with running := p.runningAfter r, requests := p.requests ++ [r] }

/-- The answer of the proxy, and the proxy after it. -/
def answer : {β : Type} → AdminOp β → Proxy → β × Proxy
  | _, .send r, p => (p.reply, p.after r)

theorem isLoad_loadRequest (c : AdminClient) (d : Document) : isLoad (c.loadRequest d) = true := by
  rw [isLoad, AdminClient.loadRequest, Bool.and_eq_true, beq_iff_eq]
  refine ⟨rfl, List.isSuffixOf_iff_suffix.2 ?_⟩
  rw [String.toList_append]
  exact List.suffix_append _ _

end Proxy

/-- What a reply says about a request to replace the document. -/
def AdminClient.verdict (reply : Reply) : Except AdminError Unit :=
  (AdminClient.checked reply).map fun _ => ()

/-- **A document counts as taken just if the reply has a status of success**, whatever its body. -/
theorem AdminClient.verdict_eq_ok {reply : Reply} :
    AdminClient.verdict reply = .ok () ↔
      ∃ response, reply = .ok response ∧ HttpStatus.isSuccess response.status = true := by
  cases reply with
  | error detail => exact ⟨fun h => absurd h nofun, fun ⟨_, h, _⟩ => absurd h nofun⟩
  | ok response =>
    rw [verdict, checked]
    cases hstatus : HttpStatus.isSuccess response.status with
    | true => exact ⟨fun _ => ⟨response, rfl, hstatus⟩, fun _ => rfl⟩
    | false =>
      refine ⟨fun h => absurd h nofun, fun ⟨other, h, hother⟩ => ?_⟩
      cases h
      exact absurd (hstatus.symm.trans hother) Bool.false_ne_true

theorem Proxy.running_after {p : Proxy} (c : AdminClient) (d : Document)
    (h : AdminClient.verdict p.reply = .ok ()) :
    (p.after (c.loadRequest d)).running = d.compact := by
  obtain ⟨response, hreply, hstatus⟩ := AdminClient.verdict_eq_ok.1 h
  rw [Proxy.after, Proxy.runningAfter, if_pos (Proxy.isLoad_loadRequest c d), hreply]
  exact if_pos hstatus

/-! ## All that a cycle meets -/

/-- All that a cycle meets, with a store of any kind. -/
structure Plant (σ : Type) where
  files : FileTree
  store : σ
  /-- The rows that the store took, in order. -/
  audit : List AuditRow
  proxy : Proxy
  /-- The instants that the clock shows, by the number of times that it was read before. -/
  instants : Nat → Instant
  reads : Nat

/-- A manager for a proxy on the same machine. -/
def localManager : SyncManager := SyncManager.create ⟨"http://localhost:2019"⟩ "/etc/proxy"

/-- A plant with these files and one record, whose proxy refuses every second document. -/
def Plant.ofFiles (files : FileTree) : Plant MemoryStore where
  files
  store := MemoryStore.ofRecords [RoutingRecord.create "r1" "a.example" "10.0.0.1" 8080]
  audit := []
  proxy := ⟨[], [], fun k => .ok ⟨if k % 2 = 0 then 200 else 500, .ok []⟩, fun _ => false⟩
  instants := fun k => ⟨k, 0⟩
  reads := 0

section Cycle

variable {σ α : Type} (answers : {β : Type} → StoreOp β → σ → β × σ)

namespace Plant

/-- The answer of the store, and everything after it. -/
def answerStore : {β : Type} → StoreOp β → Plant σ → β × Plant σ
  | _, .appendAudit row, w =>
    let r := answers (.appendAudit row) w.store
    (r.1, { w with
      store := r.2
      audit := match r.1 with
        | .ok () => w.audit ++ [row]
        | .error _ => w.audit })
  | _, op, w =>
    let r := answers op w.store
    (r.1, { w with store := r.2 })

/-- The answer of the clock, and everything after it. -/
def answerClock : {β : Type} → ClockOp β → Plant σ → β × Plant σ
  | _, .now, w => (w.instants w.reads, { w with reads := w.reads + 1 })

/-- The answer to a cycle, and everything after it. -/
def answer {β : Type} (op : SyncOp β) (w : Plant σ) : β × Plant σ :=
  match op with
  | .file op =>
    let r := FileTree.answer op w.files
    (r.1, { w with files := r.2 })
  | .store op => answerStore answers op w
  | .admin op =>
    let r := Proxy.answer op w.proxy
    (r.1, { w with proxy := r.2 })
  | .clock op => answerClock op w

end Plant

/-- The store takes every row of the audit. -/
def TakesRows : Prop := ∀ row s, (answers (.appendAudit row) s).1 = .ok ()

/-! ## Parts of a cycle -/

theorem run_files (p : FileProgram α) (w : Plant σ) :
    (SyncProgram.files p).run (Plant.answer answers) w =
      ((p.run FileTree.answer w.files).1,
        { w with files := (p.run FileTree.answer w.files).2 }) := by
  rw [SyncProgram.files, Program.run_via]
  induction p generalizing w with
  | done a => rfl
  | step e next ih => rw [Program.run_step, ih]; rfl

/-- A program on snapshots within a cycle. -/
theorem run_snapshots {p : SnapshotProgram α} {w : Plant σ} {r : Except SnapshotError α}
    {t : FileTree} (h : p.on w.files = (r, t)) :
    (SyncProgram.files p.run).run (Plant.answer answers) w = (r, { w with files := t }) := by
  rw [run_files]
  rw [SnapshotProgram.on] at h
  rw [h]

/-- A program that leaves the files as they are. -/
theorem run_reading {p : SnapshotProgram α} {w : Plant σ} (h : (p.on w.files).2 = w.files) :
    (SyncProgram.files p.run).run (Plant.answer answers) w = ((p.on w.files).1, w) := by
  have hrun : p.on w.files = ((p.on w.files).1, w.files) := Prod.ext rfl h
  exact run_snapshots answers hrun

theorem run_load (c : AdminClient) (d : Document) (w : Plant σ) :
    (SyncProgram.admin (c.load d)).run (Plant.answer answers) w =
      (AdminClient.verdict w.proxy.reply,
        { w with proxy := w.proxy.after (c.loadRequest d) }) := rfl

/-- Everything after a row of the audit was written, or was not. -/
def Plant.audited (w : Plant σ) (digest : String) (error : Option String) : Plant σ :=
  ((SyncManager.audit digest error).run (Plant.answer answers) w).2

theorem run_audit (digest : String) (error : Option String) (w : Plant σ) :
    (SyncManager.audit digest error).run (Plant.answer answers) w =
      ((), w.audited answers digest error) := rfl

theorem Plant.files_audited (w : Plant σ) (digest : String) (error : Option String) :
    (w.audited answers digest error).files = w.files := rfl

variable {answers} in
theorem Plant.audit_audited (h : TakesRows answers) (w : Plant σ) (digest : String)
    (error : Option String) :
    (w.audited answers digest error).audit =
      w.audit ++ [⟨digest, w.instants w.reads, error.isNone, error⟩] := by
  show (match (answers (.appendAudit _) _).1 with
    | .ok () => _
    | .error _ => _) = _
  rw [h]
  rfl

/-! ## Rendering -/

/-- A document was rendered, or the cause is the desired state. -/
def IsRendering (m : SyncManager) : Except SyncError Document → Prop
  | .ok d => ∃ records email, m.documentOf records email = .ok d
  | .error (.store _) | .error (.compile _) | .error (.validation _) => True
  | .error _ => False

theorem isRendering_documentOf (m : SyncManager) (records : List RoutingRecord) (email : String) :
    IsRendering m (m.documentOf records email) := by
  cases h : m.documentOf records email with
  | ok d => exact ⟨records, email, h⟩
  | error e =>
    rw [SyncManager.documentOf] at h
    split at h
    · cases h
      trivial
    · split at h
      · cases h
        trivial
      · cases h

/-- **Rendering asks the store and nothing else.** -/
theorem run_render (m : SyncManager) (w : Plant σ) :
    ∃ r s, m.render.run (Plant.answer answers) w = (r, { w with store := s }) ∧
      IsRendering m r := by
  simp only [SyncManager.render, SyncProgram.store, Program.bind_eq, Program.run_bind,
    Program.run_perform, Plant.answer, Plant.answerStore]
  cases (answers .records w.store).1 with
  | error e => exact ⟨.error (.store e), _, rfl, trivial⟩
  | ok records =>
    simp only [Program.run_bind, Program.run_perform, Plant.answer, Plant.answerStore]
    cases (answers (.setting acmeEmailSetting) (answers .records w.store).2).1 with
    | error e => exact ⟨.error (.store e), _, rfl, trivial⟩
    | ok email => exact ⟨_, _, rfl, isRendering_documentOf m records (email.getD "")⟩

theorem IsRendering.decode_pretty {m : SyncManager} {d : Document} (h : IsRendering m (.ok d)) :
    Document.decode d.pretty = .ok d := by
  obtain ⟨records, email, h⟩ := h
  rw [SyncManager.documentOf] at h
  split at h
  · cases h
  · rename_i compiled hcompile
    split at h
    · cases h
    · cases h
      exact decode_pretty_compile hcompile

/-! ## The ways in which a cycle ends -/

/-- Everything after a document was kept and sent. -/
def Plant.pushed (w : Plant σ) (store : σ) (files : FileTree) (r : Request) : Plant σ :=
  { w with store := store, files := files, proxy := w.proxy.after r }

/-- The files after a snapshot was marked. -/
def SyncManager.markedFiles (m : SyncManager) (seq : Nat) (t : FileTree) : FileTree :=
  ((m.snapshots.markGood seq).on t).2

/-- What comes of removing old snapshots once one was marked, and the files after it. -/
def SyncManager.prunedFiles (m : SyncManager) (seq : Nat) (t : FileTree) :
    Except SnapshotError Nat × FileTree :=
  (m.snapshots.prune m.keep).on (m.markedFiles seq t)

/-- What comes of sending an earlier snapshot, and the proxy after it. -/
inductive RollsBack (m : SyncManager) (seq : Nat) (t : FileTree) (p : Proxy) :
    Except RollbackError Nat → Proxy → Prop
  /-- No snapshot could be chosen. -/
  | unchosen {cause : SnapshotError} (hseq : ((m.rollbackSeq seq).on t).1 = .error cause) :
    RollsBack m seq t p (.error (.snapshot cause)) p
  /-- There is no snapshot to choose. -/
  | unavailable (hseq : ((m.rollbackSeq seq).on t).1 = .ok none) :
    RollsBack m seq t p (.error .unavailable) p
  /-- The chosen snapshot could not be loaded. -/
  | unloaded {target : Nat} {cause : SnapshotError}
    (hseq : ((m.rollbackSeq seq).on t).1 = .ok (some target))
    (hload : ((m.snapshots.load target).on t).1 = .error cause) :
    RollsBack m seq t p (.error (.snapshot cause)) p
  /-- The chosen snapshot was not taken either. -/
  | refused {target : Nat} {d : Document} {cause : AdminError}
    (hseq : ((m.rollbackSeq seq).on t).1 = .ok (some target))
    (hload : ((m.snapshots.load target).on t).1 = .ok d)
    (hpush : AdminClient.verdict p.reply = .error cause) :
    RollsBack m seq t p (.error (.push cause)) (p.after (m.client.loadRequest d))
  /-- The chosen snapshot was taken. -/
  | restored {target : Nat} {d : Document}
    (hseq : ((m.rollbackSeq seq).on t).1 = .ok (some target))
    (hload : ((m.snapshots.load target).on t).1 = .ok d)
    (hpush : AdminClient.verdict p.reply = .ok ()) :
    RollsBack m seq t p (.ok target) (p.after (m.client.loadRequest d))

/-- Why a cycle did not succeed whose document was not taken. -/
def SyncError.ofRollback (apply : AdminError) : Except RollbackError Nat → SyncError
  | .ok restored => .rolledBack restored apply
  | .error cause => .rollbackFailed apply cause

/-- What the audit says of a cycle whose document was not taken. -/
def SyncError.note (apply : AdminError) : Except RollbackError Nat → String
  | .ok _ => apply.message
  | .error cause => (SyncError.rollbackFailed apply cause).message

/-- How a cycle ends, and what it leaves. -/
inductive Ends (m : SyncManager) (w : Plant σ) : Except SyncError ApplyReport → Plant σ → Prop
  /-- There is no document. -/
  | unrendered {e : SyncError} {s : σ}
    (hrender : m.render.run (Plant.answer answers) w = (.error e, { w with store := s }))
    (hrendering : IsRendering m (.error e)) :
    Ends m w (.error e) { w with store := s }
  /-- The document could not be kept. -/
  | unsaved {d : Document} {s : σ} {cause : SnapshotError} {t : FileTree}
    (hrender : m.render.run (Plant.answer answers) w = (.ok d, { w with store := s }))
    (hrendering : IsRendering m (.ok d))
    (hsave : (m.snapshots.save d).on w.files = (.error cause, t)) :
    Ends m w (.error (.snapshot cause)) { w with store := s, files := t }
  /-- The document was kept and taken. -/
  | taken {d : Document} {s : σ} {kept : Snapshot} {t : FileTree}
    (hrender : m.render.run (Plant.answer answers) w = (.ok d, { w with store := s }))
    (hrendering : IsRendering m (.ok d))
    (hsave : (m.snapshots.save d).on w.files = (.ok kept, t))
    (hpush : AdminClient.verdict w.proxy.reply = .ok ()) :
    Ends m w
      (.ok ⟨kept.seq, d.digest, SyncManager.routeCount d,
        (m.prunedFiles kept.seq t).1.toOption.getD 0⟩)
      { (w.pushed s t (m.client.loadRequest d)).audited answers d.digest none with
        files := (m.prunedFiles kept.seq t).2 }
  /-- The document was kept and not taken. -/
  | untaken {d : Document} {s : σ} {kept : Snapshot} {t : FileTree} {e : AdminError}
    {r : Except RollbackError Nat} {p : Proxy}
    (hrender : m.render.run (Plant.answer answers) w = (.ok d, { w with store := s }))
    (hrendering : IsRendering m (.ok d))
    (hsave : (m.snapshots.save d).on w.files = (.ok kept, t))
    (hpush : AdminClient.verdict w.proxy.reply = .error e)
    (hback : RollsBack m kept.seq t (w.proxy.after (m.client.loadRequest d)) r p) :
    Ends m w (.error (SyncError.ofRollback e r))
      (({ w.pushed s t (m.client.loadRequest d) with proxy := p }).audited answers d.digest
        (some (SyncError.note e r)))

theorem tree_on_rollbackSeq (m : SyncManager) (seq : Nat) (t : FileTree) :
    ((m.rollbackSeq seq).on t).2 = t := by
  rw [SyncManager.rollbackSeq]
  cases m.rollbackTarget with
  | lastKnownGood => exact SnapshotDir.tree_on_lastGood m.snapshots t
  | previous => exact SnapshotDir.tree_on_previousBefore m.snapshots seq t

theorem run_rollback (m : SyncManager) (seq : Nat) (w : Plant σ) :
    ∃ r p, RollsBack m seq w.files w.proxy r p ∧
      (m.rollback seq).run (Plant.answer answers) w = (r, { w with proxy := p }) := by
  have hchoose := run_reading answers (tree_on_rollbackSeq m seq w.files)
  simp only [SyncManager.rollback, Program.bind_eq, Program.run_bind, hchoose]
  cases hseq : ((m.rollbackSeq seq).on w.files).1 with
  | error cause => exact ⟨_, _, .unchosen hseq, rfl⟩
  | ok target =>
    cases target with
    | none => exact ⟨_, _, .unavailable hseq, rfl⟩
    | some target =>
      have hread := run_reading answers (SnapshotDir.tree_on_load m.snapshots target w.files)
      simp only [Program.run_bind, hread]
      cases hload : ((m.snapshots.load target).on w.files).1 with
      | error cause => exact ⟨_, _, .unloaded hseq hload, rfl⟩
      | ok d =>
        simp only [Program.run_bind, run_load]
        cases hpush : AdminClient.verdict w.proxy.reply with
        | error cause => exact ⟨_, _, .refused hseq hload hpush, rfl⟩
        | ok u => exact ⟨_, _, .restored hseq hload hpush, rfl⟩

theorem run_recover (m : SyncManager) (d : Document) (seq : Nat) (e : AdminError) (w : Plant σ) :
    ∃ r p, RollsBack m seq w.files w.proxy r p ∧
      (m.recover d seq e).run (Plant.answer answers) w = (SyncError.ofRollback e r,
        ({ w with proxy := p }).audited answers d.digest (some (SyncError.note e r))) := by
  obtain ⟨r, p, hback, hrun⟩ := run_rollback answers m seq w
  refine ⟨r, p, hback, ?_⟩
  simp only [SyncManager.recover, Program.bind_eq, Program.run_bind, hrun]
  cases r with
  | ok restored => rfl
  | error cause => rfl

theorem run_finish (m : SyncManager) (d : Document) (seq : Nat) (w : Plant σ) :
    (m.finish d seq).run (Plant.answer answers) w =
      (⟨seq, d.digest, SyncManager.routeCount d,
          (m.prunedFiles seq w.files).1.toOption.getD 0⟩,
        { w.audited answers d.digest none with files := (m.prunedFiles seq w.files).2 }) := by
  simp only [SyncManager.finish, Program.bind_eq, Program.run_bind, run_audit, run_files,
    Plant.files_audited]
  rfl

/-- **There are no other ways in which a cycle ends.** -/
theorem ends_apply (m : SyncManager) (w : Plant σ) :
    Ends answers m w (m.apply.run (Plant.answer answers) w).1
      (m.apply.run (Plant.answer answers) w).2 := by
  obtain ⟨r, s, hrender, hrendering⟩ := run_render answers m w
  simp only [SyncManager.apply, Program.bind_eq, Program.run_bind, hrender]
  cases r with
  | error e => exact .unrendered hrender hrendering
  | ok d =>
    cases hsave : (m.snapshots.save d).on w.files with
    | mk r t =>
      have hkeep := run_snapshots answers (w := { w with store := s }) hsave
      simp only [Program.run_bind, hkeep]
      cases r with
      | error cause => exact .unsaved hrender hrendering hsave
      | ok kept =>
        simp only [Program.run_bind, run_load]
        cases hpush : AdminClient.verdict w.proxy.reply with
        | ok u =>
          simp only [Program.run_bind, run_finish]
          exact .taken hrender hrendering hsave hpush
        | error e =>
          obtain ⟨r, p, hback, hrun⟩ := run_recover answers m d kept.seq e
            (w.pushed s t (m.client.loadRequest d))
          simp only [Plant.pushed] at hrun
          simp only [Program.run_bind, hrun]
          exact .untaken hrender hrendering hsave hpush hback

end Cycle
end ProxyPlane
