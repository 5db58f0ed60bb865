import ProxyPlane.Proofs.Snapshot.Integrity
import ProxyPlane.Proofs.Sync.Runs

/-!
# Cycles that are stopped

A cycle may be stopped anywhere: between two requests, while a file is being written, while the
proxy has not answered yet.

## What is here

* `Plant.Torn`, what a request does halfway, and `SyncProgram.Leaves`, where a cycle can be stopped.
* `leaves_render`, `leaves_files`, `leaves_load` and `leaves_finish`, for the parts of a cycle.
* `SyncOp.SparesFiles`, that a request changes no file, and `files_of_leaves`.
* `Halts`, what a stopped cycle leaves, and `halts_apply`: there is nothing else.
-/

set_option autoImplicit false
namespace ProxyPlane

open SnapshotDir SnapshotProgram

/-! ## Requests that are going on -/

/-- A request to the proxy, and what came of it. -/
abbrev Exchange := Request × Reply

/-- What is heard with an answer of the proxy. -/
def AdminOp.heard : {β : Type} → AdminOp β → β → List Exchange
  | _, .send r, reply => [(r, reply)]

/-- What is heard with an answer. -/
def SyncOp.heard {β : Type} (op : SyncOp β) (answer : β) : List Exchange :=
  match op with
  | .admin op => op.heard answer
  | .file _ | .store _ | .clock _ => []

/-- How the proxy can be while it has not answered: it may have taken the document of the request or
not. -/
def Proxy.InFlight : {β : Type} → AdminOp β → Proxy → Proxy → Prop
  | _, .send r, p, p' =>
    ∃ running, (running = p.running ∨ running = r.body) ∧
      p' = { p with running := running, requests := p.requests ++ [r] }

/-- What the rows of the audit can be while a store has not answered. -/
def StoreOp.TornRows : {β : Type} → StoreOp β → List AuditRow → List AuditRow → Prop
  | _, .appendAudit row, rows, rows' => rows' = rows ∨ rows' = rows ++ [row]
  | _, _, rows, rows' => rows' = rows

section Interruption

variable {σ α : Type}

/-- How everything can be while a request is going on. -/
def Plant.Torn {β : Type} (op : SyncOp β) (w w' : Plant σ) : Prop :=
  match op with
  | .file op => ∃ t, FileTree.Torn op w.files t ∧ w' = { w with files := t }
  | .store op =>
    ∃ s rows, StoreOp.TornRows op w.audit rows ∧ w' = { w with store := s, audit := rows }
  | .admin op => ∃ p, Proxy.InFlight op w.proxy p ∧ w' = { w with proxy := p }
  | .clock _ => False

variable (answers : {β : Type} → StoreOp β → σ → β × σ)

/-- What a part of a cycle leaves when it is stopped, and the exchanges until then. -/
def SyncProgram.Leaves (p : SyncProgram α) (w : Plant σ) (heard : List Exchange) (w' : Plant σ) :
    Prop :=
  p.Stops (Plant.answer answers) Plant.Torn SyncOp.heard w heard w'

namespace SyncOp

/-- The request reads the desired state. -/
def ReadsState : {β : Type} → SyncOp β → Prop
  | _, .store .records => True
  | _, .store (.setting _) => True
  | _, _ => False

/-- The request changes no file. -/
def SparesFiles : {β : Type} → SyncOp β → Prop
  | _, .file (.read _) => True
  | _, .file (.list _) => True
  | _, .file (.isPresent _) => True
  | _, .file _ => False
  | _, _ => True

end SyncOp

variable {answers} {m : SyncManager} {w w' : Plant σ} {heard : List Exchange} {seq : Nat}
  {d : Document}

/-! ## Parts of a cycle that are stopped -/

theorem SyncOp.ReadsState.heard_eq_nil {β : Type} {op : SyncOp β} (h : op.ReadsState) (b : β) :
    op.heard b = [] := by
  cases op with
  | admin op => exact absurd h id
  | file op => rfl
  | store op => rfl
  | clock op => rfl

variable (answers) in
/-- Reading the desired state leaves the files and the audit. -/
theorem SyncOp.ReadsState.leaves {β : Type} {op : SyncOp β} (h : op.ReadsState) (w : Plant σ) :
    ((Plant.answer answers op w).2.files = w.files ∧
      (Plant.answer answers op w).2.audit = w.audit) ∧
      ∀ w', Plant.Torn op w w' → w'.files = w.files ∧ w'.audit = w.audit := by
  cases op with
  | file op => cases op <;> exact absurd h id
  | admin op => exact absurd h id
  | clock op => exact absurd h id
  | store op =>
    cases op with
    | appendAudit row => exact absurd h id
    | auditLog => exact absurd h id
    | records =>
      refine ⟨⟨rfl, rfl⟩, ?_⟩
      rintro w' ⟨s, rows, rfl, rfl⟩
      exact ⟨rfl, rfl⟩
    | setting key =>
      refine ⟨⟨rfl, rfl⟩, ?_⟩
      rintro w' ⟨s, rows, rfl, rfl⟩
      exact ⟨rfl, rfl⟩

variable (answers) in
theorem SyncOp.SparesFiles.leaves {β : Type} {op : SyncOp β} (h : op.SparesFiles) (w : Plant σ) :
    (Plant.answer answers op w).2.files = w.files ∧
      ∀ w', Plant.Torn op w w' → w'.files = w.files := by
  cases op with
  | file op =>
    cases op with
    | read path => exact ⟨rfl, fun w' ⟨t, hbroken, _⟩ => absurd hbroken id⟩
    | list path => exact ⟨rfl, fun w' ⟨t, hbroken, _⟩ => absurd hbroken id⟩
    | isPresent path => exact ⟨rfl, fun w' ⟨t, hbroken, _⟩ => absurd hbroken id⟩
    | makeDirs path => exact absurd h id
    | write path contents => exact absurd h id
    | append path contents => exact absurd h id
    | rename source target => exact absurd h id
    | remove path => exact absurd h id
    | copy source target => exact absurd h id
  | store op =>
    refine ⟨by cases op <;> rfl, ?_⟩
    rintro w' ⟨s, rows, -, rfl⟩
    rfl
  | admin op =>
    refine ⟨rfl, ?_⟩
    rintro w' ⟨p, -, rfl⟩
    rfl
  | clock op => exact ⟨by cases op; rfl, fun w' hbroken => absurd hbroken id⟩

theorem asks_render : m.render.Asks SyncOp.ReadsState := by
  refine ⟨trivial, fun r => ?_⟩
  cases r with
  | error e => trivial
  | ok records =>
    refine ⟨trivial, fun r => ?_⟩
    cases r with
    | error e => trivial
    | ok email => trivial

theorem trace_render (m : SyncManager) (w : Plant σ) :
    m.render.trace (Plant.answer answers) SyncOp.heard w = [] :=
  Program.trace_eq_nil asks_render (fun _ b hop => hop.heard_eq_nil b) w

/-- Rendering leaves the files and the audit wherever it is stopped. -/
theorem leaves_render (h : SyncProgram.Leaves answers m.render w heard w') :
    heard = [] ∧ w'.files = w.files ∧ w'.audit = w.audit := by
  refine ⟨h.heard_eq_nil asks_render fun _ b hop => hop.heard_eq_nil b, ?_⟩
  refine h.of_asks asks_render (fun v => v.files = w.files ∧ v.audit = w.audit)
    (fun op v hop hv => ?_) (fun op v v' hop hbroken hv => ?_) ⟨rfl, rfl⟩
  · obtain ⟨hfiles, haudit⟩ := (hop.leaves answers v).1
    exact ⟨hfiles.trans hv.1, haudit.trans hv.2⟩
  · obtain ⟨hfiles, haudit⟩ := (hop.leaves answers v).2 v' hbroken
    exact ⟨hfiles.trans hv.1, haudit.trans hv.2⟩

theorem trace_files (p : FileProgram α) (w : Plant σ) :
    (SyncProgram.files p).trace (Plant.answer answers) SyncOp.heard w = [] := by
  rw [SyncProgram.files]
  induction p generalizing w with
  | done a => rfl
  | step e next ih => exact ih _ _

/-- **A program on files within a cycle** is stopped like one on files alone. -/
theorem leaves_files {p : FileProgram α}
    (h : SyncProgram.Leaves answers (SyncProgram.files p) w heard w') :
    heard = [] ∧ ∃ t, w' = { w with files := t } ∧
      p.Stops FileTree.answer FileTree.Torn (fun _ _ => ([] : List Empty)) w.files [] t := by
  rw [SyncProgram.files] at h
  induction p generalizing w heard with
  | done a =>
    obtain ⟨rfl, rfl⟩ := Program.Stops.of_done h
    exact ⟨rfl, _, rfl, .here _ _⟩
  | step e next ih =>
    rcases Program.Stops.of_step h with ⟨rfl, rfl | ⟨t, hbroken, rfl⟩⟩ | ⟨later, rfl, hlater⟩
    · exact ⟨rfl, _, rfl, .here _ _⟩
    · exact ⟨rfl, t, rfl, .during hbroken⟩
    · obtain ⟨rfl, t, rfl, hleaves⟩ := ih _ hlater
      exact ⟨rfl, t, rfl, .after hleaves⟩

/-- **A document is sent** and not answered, or answered. -/
theorem leaves_load {c : AdminClient} {next : Except AdminError Unit → SyncProgram α}
    (h : SyncProgram.Leaves answers ((SyncProgram.admin (c.load d)).bind next) w heard w') :
    heard = [] ∧ w'.files = w.files ∧ w'.audit = w.audit ∨
      ∃ later, heard = (c.loadRequest d, w.proxy.reply) :: later ∧
        SyncProgram.Leaves answers (next (AdminClient.verdict w.proxy.reply))
          { w with proxy := w.proxy.after (c.loadRequest d) } later w' := by
  rcases Program.Stops.of_step h with ⟨rfl, rfl | ⟨p, -, rfl⟩⟩ | ⟨later, rfl, hlater⟩
  · exact .inl ⟨rfl, rfl, rfl⟩
  · exact .inl ⟨rfl, rfl, rfl⟩
  · exact .inr ⟨later, rfl, hlater⟩

/-! ## Parts that change no file -/

theorem asks_files {p : FileProgram α} (h : p.Asks fun op => (SyncOp.file op).SparesFiles) :
    (SyncProgram.files p).Asks SyncOp.SparesFiles := by
  rw [SyncProgram.files]
  induction p with
  | done a => trivial
  | step e next ih => exact ⟨h.1, fun b => ih b (h.2 b)⟩

theorem asks_audit (digest : String) (error : Option String) :
    (SyncManager.audit digest error).Asks SyncOp.SparesFiles :=
  ⟨trivial, fun _ => ⟨trivial, fun _ => trivial⟩⟩

theorem asks_rollback (m : SyncManager) (seq : Nat) :
    (m.rollback seq).Asks SyncOp.SparesFiles := by
  refine Program.Asks.bind (asks_files ?_) fun r => ?_
  · rw [SyncManager.rollbackSeq]
    cases m.rollbackTarget with
    | lastKnownGood => exact ⟨trivial, fun _ => trivial⟩
    | previous =>
      refine ⟨trivial, fun r => ?_⟩
      cases r with
      | ok names => trivial
      | error e => cases e <;> trivial
  · cases r with
    | error e => trivial
    | ok target =>
      cases target with
      | none => trivial
      | some target =>
        refine Program.Asks.bind (asks_files ⟨trivial, fun _ => trivial⟩) fun r => ?_
        cases r with
        | error e => trivial
        | ok d =>
          refine Program.Asks.bind ⟨trivial, fun _ => trivial⟩ fun r => ?_
          cases r <;> trivial

theorem asks_recover (m : SyncManager) (d : Document) (seq : Nat) (e : AdminError) :
    (m.recover d seq e).Asks SyncOp.SparesFiles := by
  refine Program.Asks.bind (asks_rollback m seq) fun r => ?_
  cases r with
  | ok restored => exact Program.Asks.bind (asks_audit _ _) fun _ => trivial
  | error cause => exact Program.Asks.bind (asks_audit _ _) fun _ => trivial

/-- What changes no file leaves the files wherever it is stopped. -/
theorem files_of_leaves {p : SyncProgram α} (h : SyncProgram.Leaves answers p w heard w')
    (hp : p.Asks SyncOp.SparesFiles) : w'.files = w.files := by
  refine h.of_asks hp (fun v => v.files = w.files) (fun op v hop hv => ?_)
    (fun op v v' hop hbroken hv => ?_) rfl
  · exact (hop.leaves answers v).1.trans hv
  · exact ((hop.leaves answers v).2 v' hbroken).trans hv

/-- **Once the proxy took a document**, the snapshot is marked and then old ones are removed. -/
theorem leaves_finish (h : SyncProgram.Leaves answers (m.finish d seq) w heard w') :
    (m.snapshots.markGood seq).Leaves w.files w'.files ∨
      (m.snapshots.prune m.keep).Leaves (m.markedFiles seq w.files) w'.files := by
  rcases Program.Stops.of_bind h with hauditing | ⟨later, -, haudited⟩
  · rw [files_of_leaves hauditing (asks_audit _ _)]
    exact .inl (leaves_here _ _)
  rw [run_audit] at haudited
  rcases Program.Stops.of_bind haudited with hmarking | ⟨later, -, hmarked⟩
  · obtain ⟨-, t, rfl, hleaves⟩ := leaves_files hmarking
    exact .inl hleaves
  cases hmark : (m.snapshots.markGood seq).on w.files with
  | mk r t₁ =>
    rw [run_snapshots answers ((congrArg _ (Plant.files_audited _ _ _ _)).trans hmark)] at hmarked
    obtain ⟨-, t, rfl, hleaves⟩ := leaves_files (Program.Stops.of_bind_done hmarked)
    rw [SyncManager.markedFiles, hmark]
    exact .inr hleaves

/-! ## What a stopped cycle leaves -/

variable (answers)

/-- What a stopped cycle leaves, and the exchanges until then. -/
inductive Halts (m : SyncManager) (w : Plant σ) : List Exchange → Plant σ → Prop
  /-- There was no document yet, or there is none. -/
  | unrendered {w' : Plant σ} (hfiles : w'.files = w.files) (haudit : w'.audit = w.audit) :
    Halts m w [] w'
  /-- The document was being kept, or was sent and not answered. -/
  | unanswered {d : Document} {s : σ} {w' : Plant σ}
    (hrender : m.render.run (Plant.answer answers) w = (.ok d, { w with store := s }))
    (hrendering : IsRendering m (.ok d))
    (hleaves : (m.snapshots.save d).Leaves w.files w'.files) (haudit : w'.audit = w.audit) :
    Halts m w [] w'
  /-- The proxy took the document. -/
  | taken {d : Document} {s : σ} {kept : Snapshot} {t : FileTree} {later : List Exchange}
    {w' : Plant σ}
    (hrender : m.render.run (Plant.answer answers) w = (.ok d, { w with store := s }))
    (hrendering : IsRendering m (.ok d))
    (hsave : (m.snapshots.save d).on w.files = (.ok kept, t))
    (hpush : AdminClient.verdict w.proxy.reply = .ok ())
    (hfinish : (m.snapshots.markGood kept.seq).Leaves t w'.files ∨
      (m.snapshots.prune m.keep).Leaves (m.markedFiles kept.seq t) w'.files) :
    Halts m w ((m.client.loadRequest d, w.proxy.reply) :: later) w'
  /-- The proxy did not take the document. -/
  | untaken {d : Document} {s : σ} {later : List Exchange} {w' : Plant σ}
    (hrender : m.render.run (Plant.answer answers) w = (.ok d, { w with store := s }))
    (hrendering : IsRendering m (.ok d))
    (hleaves : (m.snapshots.save d).Leaves w.files w'.files) :
    Halts m w ((m.client.loadRequest d, w.proxy.reply) :: later) w'

variable {answers}

/-- **A stopped cycle leaves nothing else.** -/
theorem halts_apply (h : SyncProgram.Leaves answers m.apply w heard w') :
    Halts answers m w heard w' := by
  obtain ⟨r, s, hrender, hrendering⟩ := run_render answers m w
  -- the cycle is stopped within a step or behind it, step after step
  rcases Program.Stops.of_bind h with hrenders | ⟨later, rfl, hrendered⟩
  · obtain ⟨rfl, hfiles, haudit⟩ := leaves_render hrenders
    exact .unrendered hfiles haudit
  rw [trace_render, List.nil_append]
  rw [hrender] at hrendered
  cases r with
  | error e =>
    obtain ⟨rfl, rfl⟩ := Program.Stops.of_done hrendered
    exact .unrendered rfl rfl
  | ok d =>
    rcases Program.Stops.of_bind hrendered with hsaves | ⟨later, rfl, hsaved⟩
    · obtain ⟨rfl, t, rfl, hleaves⟩ := leaves_files hsaves
      exact .unanswered hrender hrendering hleaves rfl
    rw [trace_files, List.nil_append]
    have hend := leaves_on (m.snapshots.save d) w.files
    cases hsave : (m.snapshots.save d).on w.files with
    | mk r t =>
      rw [run_snapshots answers (w := { w with store := s }) hsave] at hsaved
      rw [hsave] at hend
      cases r with
      | error cause =>
        obtain ⟨rfl, rfl⟩ := Program.Stops.of_done hsaved
        exact .unanswered hrender hrendering hend rfl
      | ok kept =>
        rcases leaves_load hsaved with ⟨rfl, hfiles, haudit⟩ | ⟨later, rfl, hanswered⟩
        · exact .unanswered hrender hrendering (by rwa [hfiles]) haudit
        cases hpush : AdminClient.verdict w.proxy.reply with
        | ok u =>
          simp only [hpush] at hanswered
          exact .taken hrender hrendering hsave hpush
            (leaves_finish (Program.Stops.of_bind_done hanswered))
        | error e =>
          simp only [hpush] at hanswered
          have hfiles := files_of_leaves (Program.Stops.of_bind_done hanswered)
            (asks_recover _ _ _ _)
          exact .untaken hrender hrendering (by rwa [hfiles])

/-- **A cycle may be stopped while its document was sent** and the proxy has not answered, whether
the proxy runs the document already or not. -/
theorem leaves_apply_inFlight {s : σ} {kept : Snapshot} {t : FileTree} {running : Bytes}
    (hrender : m.render.run (Plant.answer answers) w = (.ok d, { w with store := s }))
    (hsave : (m.snapshots.save d).on w.files = (.ok kept, t))
    (hrunning : running = w.proxy.running ∨ running = d.compact) :
    SyncProgram.Leaves answers m.apply w []
      { w with
        store := s
        files := t
        proxy := { w.proxy with
          running := running
          requests := w.proxy.requests ++ [m.client.loadRequest d] } } := by
  refine Program.Stops.bind_of_trace_eq_nil (trace_render m w) ?_
  rw [hrender]
  refine Program.Stops.bind_of_trace_eq_nil (trace_files (m.snapshots.save d).run _) ?_
  rw [run_snapshots answers (w := { w with store := s }) hsave]
  exact .during ⟨_, ⟨running, hrunning, rfl⟩, rfl⟩

end Interruption
end ProxyPlane
