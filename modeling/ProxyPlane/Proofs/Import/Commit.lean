import ProxyPlane.Command.Run
import ProxyPlane.Proofs.Import.Resolution
import ProxyPlane.Proofs.Record.Insertion
import Mathlib.Logic.Relation

/-!
# Taking over hosts, or nothing

An import asks a program for a document, keeps a copy of its source, makes directories and writes
two files.  Each of these can fail.  Whatever does, the records file has its old bytes at the end,
or all that was found stands in it.

## What is here

* `Surroundings`, what an import meets besides the files, and `Surroundings.MayAnswer`: every
  operation on files may fail, but for the question whether something is there, and programs may
  answer anything.
* `Importer.keepsCopyLast`: the copy of a file is kept last; `exists_mayEnd_importFile`: so it does
  not change the result.
* `Importer.Finds`, what it takes to find candidates, and `importHostsOf_of_mayEnd`, how an import
  goes on from there.
* `import_all_or_nothing`: what an import leaves of the records file.
-/

set_option autoImplicit false
namespace ProxyPlane

open Program

/-! ## What an import meets -/

/-- What an import meets besides the files: the time, the identifiers that nothing has yet, and what
a program that is run may answer and leave of the files. -/
structure Surroundings where
  clock : Instant
  ids : Nat → String
  runs : String → List String → FileTree → Except IoError Finished → FileTree → Prop

namespace Surroundings

variable (w : Surroundings)

/-- What the files may be after a request of an import, and the answer: any operation on files may
fail. -/
def MayAnswerImport : {β : Type} → ImportOp β → FileTree → β → FileTree → Prop
  | _, .file op, t, b, t' => FileTree.MayAnswer op t b t'
  | _, .adapter (.run binary arguments), t, b, t' => w.runs binary arguments t b t'
  | _, .clock .now, t, b, t' => b = w.clock ∧ t' = t

/-- The same for the requests of a command; the proxy may answer anything. -/
def MayAnswer : {β : Type} → CommandOp β → FileTree → β → FileTree → Prop
  | _, .file op, t, b, t' => FileTree.MayAnswer op t b t'
  | _, .adapter op, t, b, t' => w.MayAnswerImport (.adapter op) t b t'
  | _, .clock op, t, b, t' => w.MayAnswerImport (.clock op) t b t'
  | _, .ids .fresh, t, b, t' => b = w.ids ∧ t' = t
  | _, .admin _, t, _, t' => t' = t

/-- Running some program may leave the files like this. -/
def Touches (t t' : FileTree) : Prop := ∃ binary arguments r, w.runs binary arguments t r t'

variable {w} {α : Type} {t t' : FileTree}

/-- What all programs leave alone stays alone. -/
theorem bytesAt?_of_touches {file : String}
    (hspares : ∀ u u', w.Touches u u' → u'.bytesAt? file = u.bytesAt? file)
    (h : Relation.ReflTransGen w.Touches t t') : t'.bytesAt? file = t.bytesAt? file := by
  induction h with
  | refl => rfl
  | tail _ hlast ih => exact (hspares _ _ hlast).trans ih

theorem mayEnd_files {p : FileProgram α} {a : α} :
    (CommandProgram.files p).MayEnd w.MayAnswer t a t' ↔ p.MayEnd FileTree.MayAnswer t a t' := by
  exact mayEnd_via_iff fun _ _ _ _ => mayEnd_perform

theorem mayEnd_importFiles {p : FileProgram α} {a : α} :
    (ImportProgram.files p).MayEnd w.MayAnswerImport t a t' ↔
      p.MayEnd FileTree.MayAnswer t a t' := by
  exact mayEnd_via_iff fun _ _ _ _ => mayEnd_perform

/-- A single operation may be answered as the tree answers it. -/
theorem mayEnd_answer (w : Surroundings) {β : Type} (op : FileOp β) (t : FileTree) :
    (ImportProgram.files (perform op)).MayEnd w.MayAnswerImport t (FileTree.answer op t).1
      (FileTree.answer op t).2 :=
  mayEnd_importFiles.2 (mayEnd_perform.2 (FileTree.mayAnswer_answer op t))

theorem mayEnd_imports {p : ImportProgram α} {a : α} :
    (CommandProgram.imports p).MayEnd w.MayAnswer t a t' ↔
      p.MayEnd w.MayAnswerImport t a t' := by
  refine mayEnd_via_iff fun op _ _ _ => ?_
  cases op <;> exact mayEnd_perform

end Surroundings

/-! ## Importing a file -/

namespace Importer

/-- The importer that keeps no copies. -/
def withoutCopies (i : Importer) : Importer := { i with backupDir := none }

/-- Keep a copy of a file, if copies are kept. -/
def keepCopy (i : Importer) (path : String) : ImportProgram Unit :=
  match i.backupDir with
  | some dir => backup path dir
  | none => return ()

/-- The copy of a file is kept when all else is done and candidates were found; what is returned is
what an importer without copies returns. -/
def KeepsCopyLast (i : Importer) (path : String) : Prop :=
  i.importFile path = (i.withoutCopies.importFile path).bind fun
    | .error e => done (.error e)
    | .ok found => (i.keepCopy path).bind fun () => done (.ok found)

theorem keepsCopyLast (i : Importer) (path : String) : i.KeepsCopyLast path := by
  simp only [KeepsCopyLast, importFile, bind_eq, withoutCopies, Program.bind_assoc]
  congr 1
  funext present
  cases present with
  | false => rfl
  | true =>
    simp only [Bool.not_true, if_neg Bool.false_ne_true, Program.bind_assoc]
    congr 1
    funext adapted
    cases adapted with
    | error e => rfl
    | ok document =>
      simp only
      cases extract document with
      | error e => rfl
      | ok found =>
        simp only [keepCopy]
        cases i.backupDir <;> rfl

variable {w : Surroundings} {i : Importer} {path : String} {t t' : FileTree}

theorem mayEnd_importFile {r : Except ImportError ImportResult} :
    (i.importFile path).MayEnd w.MayAnswerImport t r t' ↔
      ∃ u, (i.withoutCopies.importFile path).MayEnd w.MayAnswerImport t r u ∧
        match r with
        | .error _ => t' = u
        | .ok _ => (i.keepCopy path).MayEnd w.MayAnswerImport u () t' := by
  rw [i.keepsCopyLast, mayEnd_bind]
  constructor
  · rintro ⟨r', u, hfirst, hrest⟩
    cases r' with
    | error e =>
      obtain ⟨rfl, rfl⟩ := hrest
      exact ⟨_, hfirst, rfl⟩
    | ok found =>
      obtain ⟨⟨⟩, v, hcopy, rfl, rfl⟩ := mayEnd_bind.1 hrest
      exact ⟨u, hfirst, hcopy⟩
  · rintro ⟨u, hfirst, hrest⟩
    cases r with
    | error e =>
      subst hrest
      exact ⟨_, _, hfirst, rfl, rfl⟩
    | ok found => exact ⟨_, u, hfirst, mayEnd_bind.2 ⟨(), t', hrest, rfl, rfl⟩⟩

/-- The source is there, and the adapter made a document of it. -/
def Adapts (w : Surroundings) (i : Importer) (path : String) (t : FileTree) (document : Bytes)
    (t' : FileTree) : Prop :=
  (t.at? path).isOk = true ∧ (i.adapter.adapt path).MayEnd w.MayAnswerImport t (.ok document) t'

/-- Adapting runs a program, or nothing. -/
theorem touches_of_adapt {r : Except ImportError Bytes}
    (h : (i.adapter.adapt path).MayEnd w.MayAnswerImport t r t') :
    Relation.ReflGen w.Touches t t' := by
  cases hadapter : i.adapter with
  | fixed document =>
    rw [hadapter] at h
    obtain ⟨-, rfl⟩ := h
    exact .refl
  | program binary =>
    rw [hadapter] at h
    obtain ⟨b, u, hrun, -, rfl⟩ := mayEnd_bind.1 h
    exact .single ⟨_, _, b, mayEnd_perform.1 hrun⟩

theorem touches_of_checkAvailable {r : Except ImportError Unit}
    (h : i.checkAvailable.MayEnd w.MayAnswerImport t r t') : Relation.ReflGen w.Touches t t' := by
  rw [checkAvailable] at h
  cases hadapter : i.adapter with
  | fixed document =>
    rw [hadapter] at h
    obtain ⟨-, rfl⟩ := h
    exact .refl
  | program binary =>
    rw [hadapter] at h
    obtain ⟨b, u, hrun, -, rfl⟩ := mayEnd_bind.1 h
    exact .single ⟨_, _, b, mayEnd_perform.1 hrun⟩

/-- **Without copies only programs touch files**, and candidates are found only if all succeeds. -/
theorem withoutCopies_of_mayEnd {r : Except ImportError ImportResult}
    (h : (i.withoutCopies.importFile path).MayEnd w.MayAnswerImport t r t') :
    Relation.ReflGen w.Touches t t' ∧ ∀ found, r = .ok found →
      ∃ document, i.Adapts w path t document t' ∧ extract document = .ok found := by
  obtain ⟨present, u, hpresent, hrest⟩ := mayEnd_bind.1 h
  obtain ⟨hp, rfl⟩ := FileTree.present_of_mayAnswer
    (mayEnd_perform.1 (Surroundings.mayEnd_importFiles.1 hpresent))
  cases present with
  | false =>
    obtain ⟨rfl, rfl⟩ := hrest
    exact ⟨.refl, nofun⟩
  | true =>
    obtain ⟨adapted, v, hadapt, hrest⟩ := mayEnd_bind.1 hrest
    have htouches := touches_of_adapt hadapt
    cases adapted with
    | error e =>
      obtain ⟨rfl, rfl⟩ := hrest
      exact ⟨htouches, nofun⟩
    | ok document =>
      cases hextract : extract document with
      | error e =>
        simp only [hextract] at hrest
        obtain ⟨rfl, rfl⟩ := hrest
        exact ⟨htouches, nofun⟩
      | ok found =>
        simp only [hextract] at hrest
        obtain ⟨rfl, rfl⟩ := hrest
        refine ⟨htouches, fun found' hfound => ?_⟩
        cases hfound
        exact ⟨document, ⟨hp.symm, hadapt⟩, hextract⟩

/-- Keeping a copy comes to an end. -/
theorem exists_mayEnd_keepCopy (w : Surroundings) (i : Importer) (path : String) (t : FileTree) :
    ∃ t', (i.keepCopy path).MayEnd w.MayAnswerImport t () t' := by
  rw [keepCopy]
  cases i.backupDir with
  | none => exact ⟨t, rfl, rfl⟩
  | some dir =>
    have hmade := w.mayEnd_answer (.makeDirs dir) t
    generalize FileTree.answer (.makeDirs dir) t = made at hmade
    obtain ⟨made, u⟩ := made
    cases made with
    | error e => exact ⟨u, mayEnd_bind.2 ⟨_, _, hmade, rfl, rfl⟩⟩
    | ok =>
      have hnow : (perform (.clock .now)).MayEnd w.MayAnswerImport u w.clock u :=
        mayEnd_perform.2 ⟨rfl, rfl⟩
      have hcopy := w.mayEnd_answer (.copy path (Path.join dir (backupName path w.clock))) u
      exact ⟨_, mayEnd_bind.2 ⟨_, _, hmade, mayEnd_bind.2 ⟨_, _, hnow,
        mayEnd_bind.2 ⟨_, _, hcopy, rfl, rfl⟩⟩⟩⟩

/-- **Keeping a copy does not change the result.** -/
theorem exists_mayEnd_importFile {r : Except ImportError ImportResult} :
    (∃ t', (i.importFile path).MayEnd w.MayAnswerImport t r t') ↔
      ∃ t', (i.withoutCopies.importFile path).MayEnd w.MayAnswerImport t r t' := by
  constructor
  · rintro ⟨t', h⟩
    obtain ⟨u, hfirst, -⟩ := mayEnd_importFile.1 h
    exact ⟨u, hfirst⟩
  · rintro ⟨u, hfirst⟩
    cases r with
    | error e => exact ⟨u, mayEnd_importFile.2 ⟨u, hfirst, rfl⟩⟩
    | ok found =>
      obtain ⟨t', hcopy⟩ := exists_mayEnd_keepCopy w i path u
      exact ⟨t', mayEnd_importFile.2 ⟨u, hfirst, hcopy⟩⟩

/-- Keeping a copy leaves all other files alone. -/
theorem bytesAt?_of_keepCopy {file : String}
    (hfile : ∀ dir, i.backupDir = some dir →
      FileTree.IsElsewhere file (Path.join dir (backupName path w.clock)))
    (h : (i.keepCopy path).MayEnd w.MayAnswerImport t () t') :
    t'.bytesAt? file = t.bytesAt? file := by
  rw [keepCopy] at h
  cases hdir : i.backupDir with
  | none =>
    rw [hdir] at h
    obtain ⟨-, rfl⟩ := h
    rfl
  | some dir =>
    rw [hdir] at h
    obtain ⟨made, u, hmade, hrest⟩ := mayEnd_bind.1 h
    have hfirst : u.bytesAt? file = t.bytesAt? file :=
      @FileTree.bytesAt?_of_mayAnswer _ _ file _ (.makeDirs dir) made trivial
        (mayEnd_perform.1 (Surroundings.mayEnd_importFiles.1 hmade))
    cases made with
    | error e =>
      obtain ⟨-, rfl⟩ := hrest
      exact hfirst
    | ok =>
      obtain ⟨now, v, hnow, hcopied⟩ := mayEnd_bind.1 hrest
      obtain ⟨rfl, rfl⟩ := mayEnd_perform.1 hnow
      obtain ⟨b, v', hcopy, -, rfl⟩ := mayEnd_bind.1 hcopied
      have hspares : FileOp.Spares file (.copy path (Path.join dir (backupName path w.clock))) :=
        hfile dir hdir
      exact (FileTree.bytesAt?_of_mayAnswer hspares
        (mayEnd_perform.1 (Surroundings.mayEnd_importFiles.1 hcopy))).trans hfirst

/-- The adapter can be used, made a document of the file, and that held the candidates. -/
def Finds (w : Surroundings) (i : Importer) (path : String) (t : FileTree) (found : ImportResult)
    (t' : FileTree) : Prop :=
  ∃ u document, i.checkAvailable.MayEnd w.MayAnswerImport t (.ok ()) u ∧
    i.Adapts w path u document t' ∧ extract document = .ok found

theorem Finds.touches {found : ImportResult} (h : i.Finds w path t found t') :
    Relation.ReflTransGen w.Touches t t' := by
  obtain ⟨u, document, hcheck, ⟨-, hadapt⟩, -⟩ := h
  exact (touches_of_checkAvailable hcheck).to_reflTransGen.trans
    (touches_of_adapt hadapt).to_reflTransGen

end Importer

/-! ## Ports of candidates -/

theorem Numeral.lt_of_read? {bound n : Nat} {cs : List Char} (h : read? bound cs = some n) :
    n < bound := by
  simpa using (Option.filter_eq_some_iff.1 h).2

theorem Occurrence.forwardPort_withProxy {p : ReverseProxy} {c : Candidate}
    (h : c.forwardPort < portBound) : (withProxy p c).forwardPort < portBound := by
  rw [withProxy]
  cases p.backends with
  | nil => exact h
  | cons u _ =>
    cases hsplit : Address.split u.dial with
    | error e => simpa [hsplit] using h
    | ok t =>
      simp only [hsplit]
      cases hread : Numeral.u16? t.2 with
      | none => exact (show 0 < portBound by decide)
      | some n => exact Numeral.lt_of_read? hread

theorem Occurrence.forwardPort_candidate (o : Occurrence) :
    o.candidate.forwardPort < portBound := by
  have hzero : 0 < portBound := by decide
  rw [candidate]
  cases proxy? (Handler.flatten o.route.handle) with
  | none => exact hzero
  | some p => exact forwardPort_withProxy hzero

/-- The ports of the candidates of a document are ports. -/
theorem forwardPort_of_extract {bs : Bytes} {r : ImportResult} (h : extract bs = .ok r) :
    ∀ c ∈ r.hosts, c.forwardPort < portBound := by
  obtain ⟨d, -, rfl⟩ := map_eq_ok.1 h
  intro c hc
  obtain ⟨s, -, rfl⟩ := List.mem_map.1 hc
  exact s.place.forwardPort_candidate

theorem Importer.Finds.forwardPort {w : Surroundings} {i : Importer} {path : String}
    {t t' : FileTree} {found : ImportResult} (h : i.Finds w path t found t') :
    ∀ c ∈ found.hosts, c.forwardPort < portBound := by
  obtain ⟨u, document, -, -, hextract⟩ := h
  exact forwardPort_of_extract hextract

theorem hasPorts_toRecords (ids : Nat → String) (wishes : Dict Resolution)
    {hosts : List Candidate} (h : ∀ c ∈ hosts, c.forwardPort < portBound) :
    ∀ x ∈ toRecords ids wishes hosts, x.HasPorts := by
  induction hosts generalizing ids with
  | nil => exact List.forall_mem_nil _
  | cons c rest ih =>
    obtain ⟨hc, hrest⟩ := List.forall_mem_cons.1 h
    rw [toRecords]
    split
    · exact List.forall_mem_cons.2 ⟨⟨hc, List.forall_mem_nil _⟩, ih _ hrest⟩
    · exact ih _ hrest

/-! ## The command -/

theorem FileStore.Stores.congr {s : FileStore} {t t' : FileTree} {f : RecordFile}
    (h : t'.bytesAt? s.recordsPath = t.bytesAt? s.recordsPath) :
    s.Stores t' f ↔ s.Stores t f := by
  rw [Stores, Stores, h]

/-- A records file holds one thing. -/
theorem FileStore.Stores.unique {s : FileStore} {t : FileTree} {f g : RecordFile}
    (hf : s.Stores t f) (hg : s.Stores t g) : f = g := by
  rcases hf with ⟨hnone, rfl⟩ | ⟨contents, hsome, hdecode⟩ <;>
    rcases hg with ⟨hnone', rfl⟩ | ⟨contents', hsome', hdecode'⟩
  · rfl
  · exact absurd (hnone.symm.trans hsome') nofun
  · exact absurd (hnone'.symm.trans hsome) nofun
  · cases hsome.symm.trans hsome'
    exact Except.ok.inj (hdecode.symm.trans hdecode')

namespace Command

/-- The hosts of a file were found, and their records stand behind those that were there before; the
last line says how many they are. -/
def TakesOver (w : Surroundings) (s : Settings) (file : String) (wishes : Dict Resolution)
    (t : FileTree) (o : Outcome) (t' : FileTree) : Prop :=
  ∃ found old contents, (∃ u, s.importer.Finds w file t found u) ∧ s.fileStore.Stores t old ∧
    t'.bytesAt? s.store.recordsPath = some contents ∧
    RecordFile.codec.decode contents =
      .ok { old with records := old.records ++ toRecords w.ids wishes found.hosts } ∧
    o.lines = resultLines (found.detectConflicts old.records) ++
      [s!"Imported {(toRecords w.ids wishes found.hosts).length} hosts into {s.store.recordsPath}"]

variable {w : Surroundings} {s : Settings} {file : String} {t t' : FileTree} {o : Outcome}

theorem records_of_mayEnd {r : Except StoreError (List RoutingRecord)}
    (h : (CommandProgram.files (s.fileStore.answer .records)).MayEnd w.MayAnswer t r t') :
    t' = t ∧ ∀ existing, r = .ok existing →
      ∃ old, s.fileStore.Stores t old ∧ old.records = existing := by
  rcases mayEnd_exceptBind.1 (Surroundings.mayEnd_files.1 h) with
    ⟨e, hload, rfl⟩ | ⟨old, u, hload, rfl, rfl⟩
  · exact ⟨(FileStore.load_of_mayEnd hload).1, nofun⟩
  · obtain ⟨rfl, hold⟩ := FileStore.load_of_mayEnd hload
    exact ⟨rfl, fun existing hexisting => ⟨old, hold old rfl, Except.ok.inj hexisting⟩⟩

/-- Storing the records of candidates fails and leaves the records file alone, or succeeds. -/
theorem commitHosts_of_mayEnd {wishes : Dict Resolution} {r : ImportResult}
    (hports : ∀ c ∈ r.hosts, c.forwardPort < portBound)
    (h : (commitHosts s.fileStore r wishes).MayEnd w.MayAnswer t o t') :
    (∃ e, o.failure = some (.store e)) ∧
        t'.bytesAt? s.store.recordsPath = t.bytesAt? s.store.recordsPath ∨
      ∃ old contents, s.fileStore.Stores t old ∧
        t'.bytesAt? s.store.recordsPath = some contents ∧
        RecordFile.codec.decode contents =
          .ok { old with records := old.records ++ toRecords w.ids wishes r.hosts } ∧
        o = .shown (resultLines r ++
          [s!"Imported {(toRecords w.ids wishes r.hosts).length} hosts into {s.store.recordsPath}"])
      := by
  obtain ⟨ids, u, hids, hrest⟩ := mayEnd_bind.1 h
  obtain ⟨rfl, rfl⟩ := mayEnd_perform.1 hids
  obtain ⟨n, v, hinsert, hdone⟩ := mayEnd_bind.1 hrest
  rcases FileStore.insert_of_mayEnd (Surroundings.mayEnd_files.1 hinsert) with
    ⟨⟨e, rfl⟩, hsame⟩ | ⟨old, rfl, hold, hwritten⟩
  · obtain ⟨rfl, rfl⟩ := hdone
    exact .inl ⟨⟨e, rfl⟩, hsame⟩
  · obtain ⟨rfl, rfl⟩ := hdone
    refine .inr ⟨old, _, hold, hwritten, RecordFile.decode_pretty ?_, rfl⟩
    exact List.forall_mem_append.2 ⟨hold.hasPorts, hasPorts_toRecords _ _ hports⟩

/-- Whether or not candidates are stored, an import ends with them, or with no access to the
records. -/
theorem importHostsOf_of_mayEnd {commit : Bool} {skip rename : List String}
    (h : (importHostsOf s file commit skip rename).MayEnd w.MayAnswer t o t') :
    (∃ e, o = .failed (.imports e)) ∧ Relation.ReflTransGen w.Touches t t' ∨
      ∃ found u v, s.importer.Finds w file t found u ∧
        (s.importer.keepCopy file).MayEnd w.MayAnswerImport u () v ∧
        ((∃ e, o = .failed (.store e)) ∧ t' = v ∨
          ∃ old, s.fileStore.Stores v old ∧
            if commit then
              (commitHosts s.fileStore (found.detectConflicts old.records)
                (resolutions skip rename)).MayEnd w.MayAnswer v o t'
            else o.failure = none ∧ t' = v) := by
  obtain ⟨available, t₁, hcheck, hrest⟩ := mayEnd_bind.1 h
  have hcheck := Surroundings.mayEnd_imports.1 hcheck
  have hchecked := (Importer.touches_of_checkAvailable hcheck).to_reflTransGen
  cases available with
  | error e =>
    obtain ⟨rfl, rfl⟩ := hrest
    exact .inl ⟨⟨e, rfl⟩, hchecked⟩
  | ok =>
    obtain ⟨r, v, himport, hrest⟩ := mayEnd_bind.1 hrest
    have himport := Surroundings.mayEnd_imports.1 himport
    obtain ⟨u, hfirst, hcopy⟩ := Importer.mayEnd_importFile.1 himport
    obtain ⟨htouches, hfound⟩ := Importer.withoutCopies_of_mayEnd hfirst
    cases r with
    | error e =>
      obtain ⟨rfl, rfl⟩ := hrest
      obtain rfl : t' = u := hcopy
      exact .inl ⟨⟨e, rfl⟩, hchecked.trans htouches.to_reflTransGen⟩
    | ok found =>
      obtain ⟨document, hadapts, hextract⟩ := hfound found rfl
      -- from here on the files may also differ by the copy
      refine .inr ⟨found, u, v, ⟨t₁, document, hcheck, hadapts, hextract⟩, hcopy, ?_⟩
      obtain ⟨records, t₂, hrecords, hrest⟩ := mayEnd_bind.1 hrest
      obtain ⟨rfl, hexisting⟩ := records_of_mayEnd hrecords
      cases records with
      | error e =>
        obtain ⟨rfl, rfl⟩ := hrest
        exact .inl ⟨⟨e, rfl⟩, rfl⟩
      | ok existing =>
        obtain ⟨old, hold, rfl⟩ := hexisting existing rfl
        refine .inr ⟨old, hold, ?_⟩
        cases commit with
        | true => exact hrest
        | false =>
          obtain ⟨rfl, rfl⟩ := hrest
          exact ⟨rfl, rfl⟩

/-- **An import takes over all hosts that it found, or none**, whatever fails on the way.  Only the
question whether the records file is there never fails and is answered truly (`FileOp.failure` gives
it no failure): a file that is there but reported missing would be written anew without its records.
The copy of the file is not kept in the place of the records, and the programs that are run leave
the records alone.  Then the records file has its old bytes at the end, or the import was to be
committed and all steps succeeded.  Only programs touch files if nothing is found.  A copy is kept
when something was found, and whether that works does not change what is returned. -/
theorem import_all_or_nothing {commit : Bool} {skip rename : List String}
    (hbackup : FileTree.IsElsewhere s.store.recordsPath
      (Path.join s.imports.backupDir (Importer.backupName file w.clock)))
    (hspares : ∀ u u', w.Touches u u' →
      u'.bytesAt? s.store.recordsPath = u.bytesAt? s.store.recordsPath)
    (hend : (importHostsOf s file commit skip rename).MayEnd w.MayAnswer t o t') :
    (commit = true ∧ o.failure = none ∧ TakesOver w s file (resolutions skip rename) t o t' ∨
      (commit = false ∨ o.failure ≠ none) ∧
        t'.bytesAt? s.store.recordsPath = t.bytesAt? s.store.recordsPath) ∧
    ((∃ e, o = .failed (.imports e)) ∧ Relation.ReflTransGen w.Touches t t' ∨
      (∀ e, o.failure ≠ some (.imports e)) ∧ ∃ found u, s.importer.Finds w file t found u) ∧
    s.importer.KeepsCopyLast file ∧
    ∀ u r, (∃ u', (s.importer.importFile file).MayEnd w.MayAnswerImport u r u') ↔
      ∃ u', (s.importer.withoutCopies.importFile file).MayEnd w.MayAnswerImport u r u' := by
  refine and_assoc.1 ⟨?_, s.importer.keepsCopyLast file,
    fun u r => Importer.exists_mayEnd_importFile⟩
  rcases importHostsOf_of_mayEnd hend with
    ⟨⟨e, rfl⟩, htouches⟩ | ⟨found, u, v, hfinds, hcopy, hstored⟩
  · exact ⟨.inr ⟨.inr nofun, Surroundings.bytesAt?_of_touches hspares htouches⟩,
      .inl ⟨⟨e, rfl⟩, htouches⟩⟩
  · have hsame : v.bytesAt? s.store.recordsPath = t.bytesAt? s.store.recordsPath := by
      have hkept := Importer.bytesAt?_of_keepCopy
        (fun dir hdir => Option.some.inj hdir ▸ hbackup) hcopy
      exact hkept.trans (Surroundings.bytesAt?_of_touches hspares hfinds.touches)
    rcases hstored with ⟨⟨e, rfl⟩, rfl⟩ | ⟨old, hold, hrest⟩
    · exact ⟨.inr ⟨.inr nofun, hsame⟩, .inr ⟨nofun, found, u, hfinds⟩⟩
    · cases commit with
      | false =>
        obtain ⟨hnone, rfl⟩ := hrest
        exact ⟨.inr ⟨.inl rfl, hsame⟩, .inr ⟨by rw [hnone]; exact nofun, found, u, hfinds⟩⟩
      | true =>
        rw [if_pos rfl] at hrest
        have hports : ∀ c ∈ (found.detectConflicts old.records).hosts,
          c.forwardPort < portBound := hfinds.forwardPort
        rcases commitHosts_of_mayEnd hports hrest with
          ⟨⟨e, hfailed⟩, hleft⟩ | ⟨old', contents, hold', hwritten, hdecode, rfl⟩
        · exact ⟨.inr ⟨.inr (by rw [hfailed]; exact nofun), hleft.trans hsame⟩,
            .inr ⟨by rw [hfailed]; exact nofun, found, u, hfinds⟩⟩
        · -- the records are read twice, for the conflicts and for the new file
          obtain rfl := hold.unique hold'
          refine ⟨.inl ⟨rfl, rfl, found, old, contents, ⟨u, hfinds⟩, ?_, hwritten, hdecode, rfl⟩,
            .inr ⟨nofun, found, u, hfinds⟩⟩
          exact (FileStore.Stores.congr hsame).1 hold

/-- Surroundings in which every program writes the same document and touches nothing. -/
def writing (document : Bytes) : Surroundings where
  clock := ⟨0, 0⟩
  ids := Numeral.write
  runs _ _ t r t' := r = .ok ⟨0, document, []⟩ ∧ t' = t

/-- The answers in these surroundings, if no operation on files fails on the way. -/
def answerWriting (document : Bytes) : {β : Type} → CommandOp β → FileTree → β × FileTree
  | _, .file op, t => FileTree.answer op t
  | _, .adapter (.run _ _), t => (.ok ⟨0, document, []⟩, t)
  | _, .clock .now, t => (⟨0, 0⟩, t)
  | _, .ids .fresh, t => (Numeral.write, t)
  | _, .admin (.send _), t => (.error "", t)

theorem mayEnd_writing {α : Type} (document : Bytes) (p : CommandProgram α) (t : FileTree) :
    p.MayEnd (writing document).MayAnswer t (p.run (answerWriting document) t).1
      (p.run (answerWriting document) t).2 := by
  refine (mayEnd_run (answerWriting document) p t).mono fun op u b u' h => ?_
  cases op with
  | file op => exact .inl h
  | adapter op =>
    cases op
    cases h
    exact ⟨rfl, rfl⟩
  | clock op =>
    cases op
    cases h
    exact ⟨rfl, rfl⟩
  | ids op =>
    cases op
    cases h
    exact ⟨rfl, rfl⟩
  | admin op =>
    cases op
    exact congrArg Prod.snd h

/-- A tree with a file to import, in which the records file is yet to be made. -/
def sourceTree : FileTree := .dir [("Caddyfile", .file [])]

/-- The default settings, with the files below the root. -/
def rootedSettings : Settings :=
  { Settings.default with
    store := ⟨"/data/records.json", "/data/audit.log"⟩
    imports := ⟨"caddy", "/data/backups"⟩ }

theorem import_all_or_nothing_twoHosts :
    let p := importHostsOf rootedSettings "/Caddyfile" true ["a.example"] []
    let ending := p.run (answerWriting twoHostsText) sourceTree
    p.MayEnd (writing twoHostsText).MayAnswer sourceTree ending.1 ending.2 ∧
      TakesOver (writing twoHostsText) rootedSettings "/Caddyfile" (resolutions ["a.example"] [])
        sourceTree ending.1 ending.2 := by
  intro p ending
  have hend : p.MayEnd (writing twoHostsText).MayAnswer sourceTree ending.1 ending.2 :=
    mayEnd_writing _ p sourceTree
  have hsucceeds : ending.1.failure = none := by decide +kernel
  have hbackup : FileTree.IsElsewhere rootedSettings.store.recordsPath
      (Path.join rootedSettings.imports.backupDir
        (Importer.backupName "/Caddyfile" (writing twoHostsText).clock)) :=
    fun names hnames hsame => absurd (hnames.trans hsame.symm) (by decide +kernel)
  have hspares : ∀ u u', (writing twoHostsText).Touches u u' →
      u'.bytesAt? rootedSettings.store.recordsPath =
        u.bytesAt? rootedSettings.store.recordsPath := by
    rintro u u' ⟨binary, arguments, r, -, rfl⟩
    rfl
  obtain ⟨⟨-, -, htakes⟩ | ⟨hcommit | hfailed, -⟩, -⟩ := import_all_or_nothing hbackup hspares hend
  · exact ⟨hend, htakes⟩
  · exact absurd hcommit nofun
  · exact absurd hsucceeds hfailed

end Command
end ProxyPlane
