import ProxyPlane.Proofs.Files.Contents
import ProxyPlane.Proofs.Record.Execution
import ProxyPlane.Proofs.Record.Lines

/-!
# A store in files answers like a store in memory

## What is here

* `StoreUse`, all that can be done with a store, and `MemoryStore.use` and `FileStore.use`, which do
  it in memory and in files.
* `FileStore.Holds`: the files hold what a store in memory holds.
* `FileStore.holds_answerUse`: every use is answered alike and keeps that, if all operations on
  files succeed; so does every program that uses a store (`FileStore.files_refine_memory`).
* `FileStore.auditLog_of_clash`: with the audit file in the place of the temporary file, the rows
  are lost.
-/

set_option autoImplicit false
namespace ProxyPlane

open Json Program

/-! ## Using a store -/

/-- The request to put records behind those of a store, answered by their number. -/
inductive InsertOp : Type → Type
  | insert (records : List RoutingRecord) : InsertOp (Except StoreError Nat)

/-- All that can be done with a store. -/
inductive StoreUse (β : Type) : Type
  | ask (op : StoreOp β)
  | insert (op : InsertOp β)

/-- The answer of a store in memory, and the store after it. -/
def MemoryStore.use : {β : Type} → StoreUse β → MemoryStore → β × MemoryStore
  | _, .ask op, m => MemoryStore.answer op m
  | _, .insert (.insert records), m =>
    (.ok records.length, m.replaceRecords (m.records ++ records))

/-- The answer of a store in files. -/
def FileStore.use (s : FileStore) : {β : Type} → StoreUse β → FileProgram β
  | _, .ask op => s.answer op
  | _, .insert (.insert records) => (s.insert records).run

/-- The answer of a store in files, and the files after it. -/
def FileStore.answerUse (s : FileStore) {β : Type} (e : StoreUse β) (t : FileTree) : β × FileTree :=
  (s.use e).run FileTree.answer t

namespace StoreUse

/-- The numbers that are stored are ports, and the texts of instants name the instants. -/
def IsReadable : {β : Type} → StoreUse β → Prop
  | _, .ask (.appendAudit row) => row.HasText
  | _, .insert (.insert records) => ∀ r ∈ records, r.HasPorts
  | _, _ => True

/-- The row that is put behind the others, if it is a row. -/
def appended : {β : Type} → StoreUse β → β → List AuditRow
  | _, .ask (.appendAudit row), _ => [row]
  | _, _, _ => []

/-- The records that are put behind the others. -/
def inserted : {β : Type} → StoreUse β → β → List RoutingRecord
  | _, .insert (.insert records), _ => records
  | _, _, _ => []

end StoreUse

/-- **A store in memory keeps all that is put into it**, in the order in which that was done. -/
theorem MemoryStore.run_use {α : Type} (p : Program StoreUse α) (m : MemoryStore) :
    (p.run MemoryStore.use m).2 =
      ⟨m.records ++ p.trace MemoryStore.use StoreUse.inserted m, m.settings,
        m.audit ++ p.trace MemoryStore.use StoreUse.appended m⟩ := by
  induction p generalizing m with
  | done a => simp [trace]
  | step e next ih =>
    rw [run_step, ih, trace, trace]
    cases e with
    | ask op => cases op <;> simp [use, answer, StoreUse.inserted, StoreUse.appended]
    | insert op =>
      cases op
      simp [use, replaceRecords, StoreUse.inserted, StoreUse.appended]

/-! ## Operations that succeed -/

namespace FileStore

variable {t t' : FileTree}

/-- Making directories succeeds only if they are made; the working directory need not be. -/
theorem makeDirs_of_succeeds {dir : String} {b : Except IoError Unit}
    (h : FileTree.Succeeds (.makeDirs dir) t b t') :
    b = .ok () ∧ (t' = t ∨
      ∃ names, FileTree.names? dir = .ok names ∧ t.makeDirs names = .ok t') := by
  obtain ⟨hanswer, hb⟩ := h
  obtain rfl : b = .ok () := by
    cases b with
    | ok u => rfl
    | error e => cases hb
  refine ⟨rfl, ?_⟩
  by_cases hempty : dir = ""
  · rw [FileTree.Answers, FileTree.answer, if_pos (by simp [hempty])] at hanswer
    exact .inl (congrArg Prod.snd hanswer)
  · exact .inr (FileTree.exists_of_answer_makeDirs hempty hanswer.symm)

/-- An operation that succeeds made its change. -/
theorem orFail_of_succeeds {path : String} {op : FileOp (Except IoError Unit)}
    {r : Except StoreError Unit} {change : Except IoError FileTree}
    (h : (orFail path (.perform op)).run.MayEnd FileTree.Succeeds t r t')
    (hchange : FileTree.answer op t = t.commit change)
    (hreports : ∀ e, op.failures (.error e) ≠ []) : r = .ok () ∧ change = .ok t' := by
  obtain ⟨b, ⟨hanswer, hb⟩, rfl⟩ := mayEnd_orFail.1 h
  have hok : ∀ e, b ≠ .error e := by
    rintro e rfl
    exact hreports e hb
  obtain ⟨rfl, hdone⟩ := FileTree.eq_ok_of_commit (hanswer.trans hchange) hok
  exact ⟨rfl, hdone⟩

/-- Making the directory of a file succeeds only if it is made. -/
theorem makeParent_of_succeeds {path : String} {r : Except StoreError Unit}
    (h : (makeParent path).run.MayEnd FileTree.Succeeds t r t') :
    r = .ok () ∧ (t' = t ∨ ∃ dir names, Path.parent? path = some dir ∧
      FileTree.names? dir = .ok names ∧ t.makeDirs names = .ok t') := by
  rw [makeParent] at h
  cases hdir : Path.parent? path with
  | none =>
    rw [hdir] at h
    obtain ⟨rfl, rfl⟩ := h
    exact ⟨rfl, .inl rfl⟩
  | some dir =>
    rw [hdir] at h
    obtain ⟨b, hop, rfl⟩ := mayEnd_orFail.1 h
    obtain ⟨rfl, hsame | ⟨names, hnames, hmade⟩⟩ := makeDirs_of_succeeds hop
    · exact ⟨rfl, .inl hsame⟩
    · exact ⟨rfl, .inr ⟨dir, names, rfl, hnames, hmade⟩⟩

/-! ## What the files hold -/

/-- The files hold what a store in memory holds; without rows there may be no audit file. -/
structure Holds (s : FileStore) (t : FileTree) (m : MemoryStore) : Prop where
  records : ∃ contents, t.read s.recordsPath = .ok contents ∧
    RecordFile.codec.decode contents = .ok ⟨m.records, m.settings⟩
  audit : (t.at? s.auditPath).isOk = false ∧ m.audit = [] ∨
    t.read s.auditPath = .ok (auditText m.audit)
  readable : ∀ row ∈ m.audit, row.HasText

/-- The audit file is neither the records file nor the file that takes its place. -/
structure IsApart (s : FileStore) : Prop where
  records : FileTree.names? s.recordsPath ≠ FileTree.names? s.auditPath
  temporary : FileTree.names? (Path.withExtension s.recordsPath "json.tmp") ≠
    FileTree.names? s.auditPath

variable {s : FileStore} {m : MemoryStore}

/-- What succeeds is answered. -/
theorem answers {α : Type} {p : FileProgram α} {a : α} (h : p.MayEnd FileTree.Succeeds t a t') :
    p.MayEnd FileTree.Answers t a t' :=
  h.mono fun _ _ _ _ hsucceeds => hsucceeds.1

/-! ## Reading -/

theorem load_of_holds (h : s.Holds t m) {r : Except StoreError RecordFile}
    (hload : s.load.run.MayEnd FileTree.Answers t r t') :
    r = .ok ⟨m.records, m.settings⟩ ∧ t' = t := by
  obtain ⟨contents, hread, hdecode⟩ := h.records
  obtain ⟨present, t₁, hpresent, hrest⟩ := mayEnd_load.1 hload
  cases hpresent
  rw [if_pos (FileTree.isOk_at?_of_read hread)] at hrest
  obtain ⟨b, hb, rfl⟩ := hrest
  cases hb
  simp only [hread, decoded, hdecode, and_self]

/-- What is read off the records file is what the store in memory has. -/
theorem reading_of_holds (h : s.Holds t m) {α : Type} {view : RecordFile → α}
    {r : Except StoreError α}
    (hend : (s.load >>= fun f => pure (view f)).run.MayEnd FileTree.Succeeds t r t') :
    r = .ok (view ⟨m.records, m.settings⟩) ∧ t' = t := by
  rcases mayEnd_exceptBind.1 hend with ⟨e, hload, -⟩ | ⟨f, t₁, hload, hdone⟩
  · exact absurd (load_of_holds h (answers hload)).1 nofun
  · obtain ⟨hf, rfl⟩ := load_of_holds h (answers hload)
    obtain ⟨rfl, rfl⟩ := hdone
    cases hf
    exact ⟨rfl, rfl⟩

theorem auditLog_of_holds (h : s.Holds t m) {r : Except StoreError (List AuditRow)}
    (hlog : s.auditLog.run.MayEnd FileTree.Answers t r t') : r = .ok m.audit ∧ t' = t := by
  obtain ⟨present, t₁, hpresent, hrest⟩ := mayEnd_auditLog.1 hlog
  cases hpresent
  rcases h.audit with ⟨habsent, hnone⟩ | hread
  · rw [if_neg (by simp [habsent])] at hrest
    rw [hnone]
    exact hrest
  · rw [if_pos (FileTree.isOk_at?_of_read hread)] at hrest
    obtain ⟨b, hb, rfl⟩ := hrest
    cases hb
    simp only [hread, rowsOf, readRows_auditText s.auditPath h.readable, and_self]

/-! ## Writing -/

/-- The contents of the audit file, whether it is there or not. -/
theorem Holds.contents (h : s.Holds t m) {names : List String}
    (hnames : FileTree.names? s.auditPath = .ok names)
    (hwants : FileTree.wantsDirectory s.auditPath = false) :
    (t.look names).contents = auditText m.audit := by
  rcases h.audit with ⟨habsent, hnone⟩ | hread
  · rw [hnone]
    cases hsight : t.look names with
    | file contents =>
      have hpresent := FileTree.isOk_at?.2 ⟨names, hnames, .inr ⟨hwants, contents, hsight⟩⟩
      rw [hpresent] at habsent
      exact absurd habsent nofun
    | nothing => rfl
    | directory => rfl
  · obtain ⟨names', hnames', -, hsight⟩ := FileTree.read_eq_ok.1 hread
    cases hnames.symm.trans hnames'
    rw [hsight]
    rfl

/-- **A row is put behind the others.** -/
theorem appendAudit_of_holds (hapart : s.IsApart) (h : s.Holds t m) {row : AuditRow}
    (hrow : row.HasText) {r : Except StoreError Unit}
    (happend : (s.appendAudit row).run.MayEnd FileTree.Succeeds t r t') :
    r = .ok () ∧ s.Holds t' { m with audit := m.audit ++ [row] } := by
  rcases mayEnd_exceptBind.1 happend with ⟨e, hparent, -⟩ | ⟨⟨⟩, t₁, hparent, hwrite⟩
  · exact absurd (makeParent_of_succeeds hparent).1 nofun
  · obtain ⟨-, hmade⟩ := makeParent_of_succeeds hparent
    obtain ⟨rfl, hstore⟩ := orFail_of_succeeds hwrite rfl fun _ => nofun
    obtain ⟨target, htarget, hwants, hlook⟩ := FileTree.look_of_store hstore
    -- directories may be made first, which leaves all files as they are
    have hfiles : ∀ names contents, t.look names = .file contents →
        t₁.look names = .file contents := by
      rcases hmade with rfl | ⟨-, dirs, -, -, hdirs⟩
      · exact fun _ _ hfile => hfile
      · exact fun _ _ hfile => FileTree.look_of_makeDirs_file hdirs hfile
    have hold : (t₁.look target).contents = auditText m.audit := by
      rcases hmade with rfl | ⟨-, dirs, -, -, hdirs⟩
      · exact h.contents htarget hwants
      · rw [FileTree.Sight.contents, FileTree.bytes?_of_makeDirs hdirs]
        exact h.contents htarget hwants
    refine ⟨rfl, ?_, .inr ?_, ?_⟩
    · obtain ⟨contents, hread, hdecode⟩ := h.records
      obtain ⟨names, hnames, hplain, hfile⟩ := FileTree.read_eq_ok.1 hread
      refine ⟨contents, FileTree.read_eq_ok.2 ⟨names, hnames, hplain, ?_⟩, hdecode⟩
      rw [hlook, if_neg, hfiles names contents hfile]
      rintro rfl
      exact hapart.records (hnames.trans htarget.symm)
    · have hrows : t'.look target = .file (auditText (m.audit ++ [row])) := by
        rw [hlook, if_pos rfl, hold, auditText_append]
      exact FileTree.read_eq_ok.2 ⟨target, htarget, hwants, hrows⟩
    · intro other hother
      rcases List.mem_append.1 hother with hother | hother
      · exact h.readable other hother
      · obtain rfl := List.mem_singleton.1 hother
        exact hrow

/-- The records file is written anew, the file that took its place is gone, and nothing else is
touched. -/
theorem look_of_save {f : RecordFile} {contents : Bytes}
    (hread : t.read s.recordsPath = .ok contents) {r : Except StoreError Unit}
    (hsave : (s.save f).run.MayEnd FileTree.Succeeds t r t') :
    r = .ok () ∧ t'.read s.recordsPath = .ok (RecordFile.codec.pretty f) ∧
      ∀ names, FileTree.names? s.recordsPath ≠ .ok names →
        t'.look names =
          if FileTree.names? (Path.withExtension s.recordsPath "json.tmp") = .ok names then .nothing
          else t.look names := by
  obtain ⟨file, hfile, hplain, hsight⟩ := FileTree.read_eq_ok.1 hread
  rcases mayEnd_exceptBind.1 hsave with ⟨e, hparent, -⟩ | ⟨⟨⟩, t₁, hparent, hrest⟩
  · exact absurd (makeParent_of_succeeds hparent).1 nofun
  · obtain ⟨-, hmade⟩ := makeParent_of_succeeds hparent
    -- the records file is there already, and so are the directories on the way to it
    have hsame : ∀ names, t₁.look names = t.look names := by
      rcases hmade with rfl | ⟨dir, dirs, hdir, hdirs, hmade⟩
      · exact fun _ => rfl
      · obtain ⟨name, hname⟩ := FileTree.exists_fileName?_of_plain hplain
        have hway : dirs <+: file := by
          rw [FileTree.segments_of_names? hdirs, FileTree.segments_of_names? hfile,
            Path.segments_parent? hdir hname]
          exact List.prefix_append _ _
        exact FileTree.look_of_makeDirs_isPrefix hmade hway hsight
    rcases mayEnd_exceptBind.1 hrest with ⟨e, hwrite, -⟩ | ⟨⟨⟩, t₂, hwrite, hrename⟩
    · exact absurd (orFail_of_succeeds hwrite rfl fun _ => nofun).1 nofun
    · obtain ⟨-, hstore⟩ := orFail_of_succeeds hwrite rfl fun _ => nofun
      obtain ⟨rfl, hmoved⟩ := orFail_of_succeeds hrename rfl fun _ => nofun
      obtain ⟨temporary, htemporary, -, hwritten⟩ := FileTree.look_of_store hstore
      obtain ⟨goal, hgoal, -, hlook⟩ := FileTree.look_of_rename hmoved htemporary
        (by rw [hwritten, if_pos rfl])
      cases hfile.symm.trans hgoal
      refine ⟨rfl, FileTree.read_eq_ok.2 ⟨file, hfile, hplain, by rw [hlook, if_pos rfl]⟩, ?_⟩
      intro names hrecords
      have hgoal : names ≠ file := by
        rintro rfl
        exact hrecords hfile
      rw [hlook, if_neg hgoal, htemporary]
      by_cases horigin : names = temporary
      · rw [if_pos horigin, if_pos (congrArg Except.ok horigin.symm)]
      · rw [if_neg horigin, if_neg fun h => horigin (Except.ok.inj h).symm, hwritten,
          if_neg horigin, hsame]

/-- Putting records in is reading them and writing all of them anew. -/
theorem save_of_insert (h : s.Holds t m) {records : List RoutingRecord} {r : Except StoreError Nat}
    (hinsert : (s.insert records).run.MayEnd FileTree.Succeeds t r t') :
    r = .ok records.length ∧ (s.save ⟨m.records ++ records, m.settings⟩).run.MayEnd
      FileTree.Succeeds t (.ok ()) t' := by
  obtain ⟨contents, hread, -⟩ := h.records
  rcases mayEnd_exceptBind.1 hinsert with ⟨e, hload, -⟩ | ⟨f, t₁, hload, hrest⟩
  · exact absurd (load_of_holds h (answers hload)).1 nofun
  · obtain ⟨hf, rfl⟩ := load_of_holds h (answers hload)
    cases hf
    rcases mayEnd_exceptBind.1 hrest with ⟨e, hsave, -⟩ | ⟨⟨⟩, t₂, hsave, hdone⟩
    · exact absurd (look_of_save hread hsave).1 nofun
    · obtain ⟨rfl, rfl⟩ := hdone
      exact ⟨rfl, hsave⟩

/-- **Records are put behind the others**, and the rest stays as it was. -/
theorem insert_of_holds (hapart : s.IsApart) (h : s.Holds t m) {records : List RoutingRecord}
    (hports : ∀ r ∈ records, r.HasPorts) {r : Except StoreError Nat}
    (hinsert : (s.insert records).run.MayEnd FileTree.Succeeds t r t') :
    r = .ok records.length ∧ s.Holds t' (m.replaceRecords (m.records ++ records)) := by
  obtain ⟨contents, hread, hdecode⟩ := h.records
  have hall : ∀ r ∈ m.records ++ records, r.HasPorts := by
    intro r hr
    rcases List.mem_append.1 hr with hr | hr
    · exact RecordFile.hasPorts_of_decode hdecode r hr
    · exact hports r hr
  obtain ⟨rfl, hsave⟩ := save_of_insert h hinsert
  obtain ⟨-, hwritten, hbeside⟩ := look_of_save hread hsave
  have hsame : ∀ names, FileTree.names? s.auditPath = .ok names →
      t'.look names = t.look names := by
    intro names hnames
    rw [hbeside names fun h => hapart.records (h.trans hnames.symm),
      if_neg fun h => hapart.temporary (h.trans hnames.symm)]
  refine ⟨rfl, ⟨_, hwritten, RecordFile.decode_pretty hall⟩, ?_, h.readable⟩
  rw [FileTree.isOk_at?_congr hsame, FileTree.read_congr hsame]
  exact h.audit

/-- **Where the audit file stands in the place of the temporary file**, putting records in takes
all rows away. -/
theorem auditLog_of_clash (hrecords : FileTree.names? s.recordsPath ≠ FileTree.names? s.auditPath)
    (hclash : FileTree.names? (Path.withExtension s.recordsPath "json.tmp") =
      FileTree.names? s.auditPath)
    (h : s.Holds t m) {records : List RoutingRecord} {r : Except StoreError Nat}
    (hinsert : (s.insert records).run.MayEnd FileTree.Succeeds t r t') :
    (s.auditLog.run.run FileTree.answer t').1 = .ok [] := by
  obtain ⟨contents, hread, -⟩ := h.records
  obtain ⟨-, hsave⟩ := save_of_insert h hinsert
  obtain ⟨-, -, hbeside⟩ := look_of_save hread hsave
  have habsent : (t'.at? s.auditPath).isOk = false := by
    rw [Bool.eq_false_iff]
    intro hpresent
    obtain ⟨names, hnames, hsight⟩ := FileTree.isOk_at?.1 hpresent
    have hgone : t'.look names = .nothing := by
      rw [hbeside names fun h => hrecords (h.trans hnames.symm), if_pos (hclash.trans hnames)]
    rw [hgone] at hsight
    rcases hsight with hdirectory | ⟨-, contents, hfile⟩
    · cases hdirectory
    · cases hfile
  obtain ⟨present, t₁, hpresent, hrest⟩ :=
    mayEnd_auditLog.1 (mayEnd_run FileTree.answer s.auditLog.run t')
  cases hpresent
  rw [if_neg (by simp [habsent])] at hrest
  exact hrest.1

/-! ## All uses -/

/-- **Every use is answered alike**, and the files then hold again what the store in memory
holds. -/
theorem holds_answerUse (hapart : s.IsApart) (h : s.Holds t m) {β : Type} {e : StoreUse β}
    (he : e.IsReadable) (hsucceeds : (s.use e).trace FileTree.answer FileOp.failures t = []) :
    (s.answerUse e t).1 = (MemoryStore.use e m).1 ∧
      s.Holds (s.answerUse e t).2 (MemoryStore.use e m).2 := by
  have hend : (s.use e).MayEnd FileTree.Succeeds t (s.answerUse e t).1 (s.answerUse e t).2 :=
    mayEnd_of_trace_eq_nil hsucceeds
  generalize (s.answerUse e t).1 = b at hend ⊢
  generalize (s.answerUse e t).2 = t' at hend ⊢
  cases e with
  | insert op =>
    cases op with
    | insert records => exact insert_of_holds hapart h he hend
  | ask op =>
    cases op with
    | appendAudit row => exact appendAudit_of_holds hapart h he hend
    | auditLog =>
      obtain ⟨hb, rfl⟩ := auditLog_of_holds h (answers hend)
      exact ⟨hb, h⟩
    | records =>
      obtain ⟨rfl, rfl⟩ := reading_of_holds h hend
      exact ⟨rfl, h⟩
    | setting key =>
      obtain ⟨rfl, rfl⟩ := reading_of_holds h hend
      exact ⟨rfl, h⟩

/-- **A program that uses a store** is answered alike at every step, and ends alike. -/
theorem holds_run {α : Type} {p : Program StoreUse α} (hapart : s.IsApart) (h : s.Holds t m)
    (hp : p.Asks StoreUse.IsReadable)
    (hsucceeds : (p.via s.use).trace FileTree.answer FileOp.failures t = []) :
    (p.run s.answerUse t).1 = (p.run MemoryStore.use m).1 ∧
      s.Holds (p.run s.answerUse t).2 (p.run MemoryStore.use m).2 ∧
        ∀ {ω : Type} (note : {β : Type} → StoreUse β → β → List ω),
          p.trace s.answerUse note t = p.trace MemoryStore.use note m := by
  induction p generalizing t m with
  | done a => exact ⟨rfl, h, fun note => rfl⟩
  | step e next ih =>
    rw [via, trace_bind] at hsucceeds
    obtain ⟨hfirst, hrest⟩ := List.append_eq_nil_iff.1 hsucceeds
    obtain ⟨hanswer, hholds⟩ := holds_answerUse hapart h hp.1 hfirst
    have hlater := ih (s.answerUse e t).1 hholds (hp.2 _) hrest
    rw [hanswer] at hlater
    obtain ⟨hresult, hend, hheard⟩ := hlater
    refine ⟨?_, ?_, fun note => ?_⟩
    · rw [run_step, run_step, hanswer]
      exact hresult
    · rw [run_step, run_step, hanswer]
      exact hend
    · rw [trace, trace, hanswer, hheard note]

/-- **A store in files answers like a store in memory.**  It starts with a records file and no audit
file, and the audit file is neither the records file nor the file that takes its place.  As long as
the operations on files succeed, all answers are those of a store in memory that starts with the
same records and settings.  The files then hold the old records and the new ones behind them, the
settings as they were, and the rows in the order in which they were appended. -/
theorem files_refine_memory {α : Type} {p : Program StoreUse α} {contents : Bytes} {f : RecordFile}
    (hapart : s.IsApart) (hread : t.read s.recordsPath = .ok contents)
    (hdecode : RecordFile.codec.decode contents = .ok f)
    (habsent : (t.at? s.auditPath).isOk = false) (hp : p.Asks StoreUse.IsReadable)
    (hsucceeds : (p.via s.use).trace FileTree.answer FileOp.failures t = []) :
    let m : MemoryStore := ⟨f.records, f.settings, []⟩
    let records := f.records ++ p.trace MemoryStore.use StoreUse.inserted m
    let rows := p.trace MemoryStore.use StoreUse.appended m
    (p.run s.answerUse t).1 = (p.run MemoryStore.use m).1 ∧
      (∀ {ω : Type} (note : {β : Type} → StoreUse β → β → List ω),
        p.trace s.answerUse note t = p.trace MemoryStore.use note m) ∧
      (p.run MemoryStore.use m).2 = ⟨records, f.settings, rows⟩ ∧
      ((s.load.run.run FileTree.answer (p.run s.answerUse t).2).1 = .ok ⟨records, f.settings⟩ ∧
        (s.auditLog.run.run FileTree.answer (p.run s.answerUse t).2).1 = .ok rows) := by
  intro m records rows
  have hstart : s.Holds t m := ⟨⟨contents, hread, hdecode⟩, .inl ⟨habsent, rfl⟩, nofun⟩
  have hmemory : (p.run MemoryStore.use m).2 = ⟨records, f.settings, rows⟩ :=
    MemoryStore.run_use p m
  obtain ⟨hresult, hend, hheard⟩ := holds_run hapart hstart hp hsucceeds
  rw [hmemory] at hend
  exact ⟨hresult, hheard, hmemory, (load_of_holds hend (mayEnd_run _ _ _)).1,
    (auditLog_of_holds hend (mayEnd_run _ _ _)).1⟩

/-- A row with quotation marks and line breaks in its texts. -/
def roughRow : AuditRow := ⟨"\"a\"\r\n", ⟨0, 0⟩, false, some "two\nlines"⟩

/-- A row is appended, the records file is written anew, and then the rows are asked for. -/
def appendInsertLog : Program StoreUse (Except StoreError (List AuditRow)) := do
  let _ ← perform (.ask (.appendAudit roughRow))
  let _ ← perform (.insert (.insert [RoutingRecord.create "2" "b.example" "10.0.0.2" 80]))
  perform (.ask .auditLog)

theorem asks_appendInsertLog : appendInsertLog.Asks StoreUse.IsReadable := by
  have hrow : roughRow.HasText := by
    unfold AuditRow.HasText
    decide +kernel
  refine ⟨hrow, fun _ => ⟨?_, fun _ => ⟨trivial, fun _ => trivial⟩⟩⟩
  intro r hr
  obtain rfl := List.mem_singleton.1 hr
  exact ⟨by decide, nofun⟩

/-- A records file with one record and a setting. -/
def oneRecordFile : RecordFile :=
  ⟨[RoutingRecord.create "1" "a.example" "10.0.0.1" 80],
    Dict.empty.insert acmeEmailSetting "ops@a.example"⟩

/-- A tree in which nothing but the records file stands. -/
def oneRecordTree : FileTree :=
  .dir [("d", .dir [("records.json", .file (RecordFile.codec.pretty oneRecordFile))])]

/-- The audit file stands in a directory of its own. -/
def apartStore : FileStore := ⟨"/d/records.json", "/d/logs/audit.jsonl"⟩

theorem files_refine_memory_roughRow :
    apartStore.IsApart ∧ appendInsertLog.Asks StoreUse.IsReadable ∧
      (appendInsertLog.via apartStore.use).trace FileTree.answer FileOp.failures oneRecordTree =
        [] ∧
      (appendInsertLog.run apartStore.answerUse oneRecordTree).1 = .ok [roughRow] := by
  have hapart : apartStore.IsApart := ⟨by decide +kernel, by decide +kernel⟩
  have hsucceeds : (appendInsertLog.via apartStore.use).trace FileTree.answer FileOp.failures
      oneRecordTree = [] := by decide +kernel
  exact ⟨hapart, asks_appendInsertLog, hsucceeds,
    (files_refine_memory hapart (show oneRecordTree.read _ = _ by decide +kernel)
      (show RecordFile.codec.decode (RecordFile.codec.pretty oneRecordFile) = .ok oneRecordFile by
        decide +kernel)
      (by decide +kernel) asks_appendInsertLog hsucceeds).1⟩

/-- The audit file stands where the records file is first written. -/
def clashingStore : FileStore := ⟨"/d/records.json", "/d/records.json.tmp"⟩

/-- **Two paths that differ are not enough**: the rows are lost when the records are written. -/
theorem rows_lost_of_clash :
    FileTree.names? clashingStore.recordsPath ≠ FileTree.names? clashingStore.auditPath ∧
      oneRecordTree.read clashingStore.recordsPath = .ok (RecordFile.codec.pretty oneRecordFile) ∧
      (oneRecordTree.at? clashingStore.auditPath).isOk = false ∧
      appendInsertLog.Asks StoreUse.IsReadable ∧
      (appendInsertLog.via clashingStore.use).trace FileTree.answer FileOp.failures
        oneRecordTree = [] ∧
      (appendInsertLog.run clashingStore.answerUse oneRecordTree).1 = .ok [] ∧
      (appendInsertLog.run MemoryStore.use
        ⟨oneRecordFile.records, oneRecordFile.settings, []⟩).1 = .ok [roughRow] :=
  ⟨by decide +kernel, by decide +kernel, by decide +kernel, asks_appendInsertLog, by decide +kernel,
    by decide +kernel, by decide +kernel⟩

end FileStore
end ProxyPlane
