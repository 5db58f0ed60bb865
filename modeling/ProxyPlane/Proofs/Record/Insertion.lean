import ProxyPlane.Proofs.Files.Frame
import ProxyPlane.Proofs.Record.Execution
import ProxyPlane.Proofs.Record.Forms

/-!
# Putting records into a file

Whatever operation fails on the way, the records file has either its old bytes or the new ones.

## What is here

* `FileStore.Stores`, what a records file holds; a missing one holds nothing.
* `load_of_mayEnd`, `save_of_mayEnd` and `insert_of_mayEnd`: reading, writing and both, if any
  operation may fail.
-/

set_option autoImplicit false
namespace ProxyPlane

open Program

/-! ## The file that is written first -/

namespace FileTree

/-- The file that is written first is not the one whose place it takes. -/
theorem isElsewhere_temporary {path : String} (h : wantsDirectory path = false) :
    IsElsewhere path (Path.withExtension path "json.tmp") := by
  intro names hnames htemporary
  obtain ⟨name, hname⟩ := exists_fileName?_of_plain h
  obtain ⟨dir, hpath, hother⟩ := Path.segments_withExtension hname
    (show "json.tmp" ≠ "" by decide) (show '/' ∉ "json.tmp".toList by decide)
  have heq := (segments_of_names? hnames).symm.trans (segments_of_names? htemporary)
  rw [hpath, hother] at heq
  have hlast : name = String.ofList (Path.renamed name "json.tmp") := by simpa using heq
  have hdot : '.' ∈ "json.tmp".toList := by decide
  exact Path.renamed_ne name hdot (by rw [hlast, String.toList_ofList, ← hlast])

/-- A path that can only name a directory names no file. -/
theorem bytesAt?_of_wantsDirectory {path : String} (t : FileTree)
    (h : wantsDirectory path = true) : t.bytesAt? path = none := by
  rw [Option.eq_none_iff_forall_ne_some]
  intro contents hsome
  obtain ⟨names, -, hplain, -⟩ := read_eq_ok.1 (bytesAt?_eq_some.1 hsome)
  rw [h] at hplain
  exact absurd hplain nofun

/-! ## Operations that may fail -/

variable {t t' : FileTree} {file : String}

/-- A program that spares a file leaves it with its bytes. -/
theorem bytesAt?_of_asks {α : Type} {p : FileProgram α} {a : α}
    (hp : p.Asks (FileOp.Spares file)) (h : p.MayEnd MayAnswer t a t') :
    t'.bytesAt? file = t.bytesAt? file :=
  h.of_asks hp (fun u => u.bytesAt? file = t.bytesAt? file)
    (fun _ _ _ _ hspares hanswer hsame => (bytesAt?_of_mayAnswer hspares hanswer).trans hsame) rfl

/-- Asking whether a file is there does not fail. -/
theorem present_of_mayAnswer {path : String} {b : Bool}
    (h : MayAnswer (.isPresent path) t b t') : b = (t.at? path).isOk ∧ t' = t := by
  rcases h with hdone | ⟨e, hfailure, -⟩
  · cases hdone
    exact ⟨rfl, rfl⟩
  · exact absurd hfailure nofun

/-- A file that was read was there. -/
theorem read_of_mayAnswer {path : String} {b : Except IoError Bytes}
    (h : MayAnswer (.read path) t b t') :
    t' = t ∧ ∀ contents, b = .ok contents → t.read path = .ok contents := by
  rcases h with hdone | ⟨e, hfailure, hsame | htorn⟩
  · cases hdone
    exact ⟨rfl, fun contents h => h⟩
  · cases hfailure
    exact ⟨hsame, nofun⟩
  · exact absurd htorn id

/-- A file that is reported as written was written. -/
theorem write_of_mayAnswer {path : String} {contents : Bytes}
    (h : MayAnswer (.write path contents) t (.ok ()) t') :
    t.store path (fun _ => contents) = .ok t' := by
  rcases h with hdone | ⟨e, hfailure, -⟩
  · exact (eq_ok_of_commit hdone nofun).2
  · exact absurd hfailure nofun

/-- A file is renamed, or nothing happens. -/
theorem rename_of_mayAnswer {source target : String} {b : Except IoError Unit}
    (h : MayAnswer (.rename source target) t b t') :
    b = .ok () ∧ t.rename source target = .ok t' ∨ (∃ e, b = .error e) ∧ t' = t := by
  rcases h with hdone | ⟨e, hfailure, hsame | htorn⟩
  · cases hrename : t.rename source target with
    | ok u =>
      rw [answer, hrename] at hdone
      cases hdone
      exact .inl ⟨rfl, rfl⟩
    | error e =>
      rw [answer, hrename] at hdone
      cases hdone
      exact .inr ⟨⟨e, rfl⟩, rfl⟩
  · cases hfailure
    exact .inr ⟨⟨e, rfl⟩, hsame⟩
  · exact absurd htorn id

/-- Writing the other file first leaves the file alone, however that ends. -/
theorem bytesAt?_of_temporary {contents : Bytes} {b : Except IoError Unit}
    (h : MayAnswer (.write (Path.withExtension file "json.tmp") contents) t b t') :
    t'.bytesAt? file = t.bytesAt? file := by
  by_cases hwants : wantsDirectory file = true
  · rw [bytesAt?_of_wantsDirectory t' hwants, bytesAt?_of_wantsDirectory t hwants]
  · have hspares : FileOp.Spares file (.write (Path.withExtension file "json.tmp") contents) :=
      isElsewhere_temporary (Bool.eq_false_iff.2 hwants)
    exact bytesAt?_of_mayAnswer hspares h

/-- A file that was just written takes the place of another, or nothing happens. -/
theorem rename_of_store {source target : String} {contents : Bytes} {u : FileTree}
    {b : Except IoError Unit} (hstore : u.store source (fun _ => contents) = .ok t)
    (h : MayAnswer (.rename source target) t b t') :
    b = .ok () ∧ t'.bytesAt? target = some contents ∨ (∃ e, b = .error e) ∧ t' = t := by
  rcases rename_of_mayAnswer h with ⟨rfl, hrename⟩ | hfailed
  · obtain ⟨origin, horigin, -, hwritten⟩ := look_of_store hstore
    obtain ⟨goal, hgoal, hplain, hlook⟩ := look_of_rename hrename horigin
      (by rw [hwritten, if_pos rfl])
    refine .inl ⟨rfl, bytesAt?_eq_some.2 (read_eq_ok.2 ⟨goal, hgoal, hplain, ?_⟩)⟩
    rw [hlook, if_pos rfl]
  · exact .inr hfailed

end FileTree

/-! ## The store -/

namespace FileStore

variable {s : FileStore} {t t' : FileTree}

/-- What the records file holds; a missing file holds nothing. -/
def Stores (s : FileStore) (t : FileTree) (f : RecordFile) : Prop :=
  t.bytesAt? s.recordsPath = none ∧ f = RecordFile.empty ∨
    ∃ contents, t.bytesAt? s.recordsPath = some contents ∧
      RecordFile.codec.decode contents = .ok f

theorem Stores.hasPorts {f : RecordFile} (h : s.Stores t f) : ∀ r ∈ f.records, r.HasPorts := by
  rcases h with ⟨-, rfl⟩ | ⟨contents, -, hdecode⟩
  · exact List.forall_mem_nil _
  · exact RecordFile.hasPorts_of_decode hdecode

/-- **Reading changes nothing**, and what is returned is what the file holds. -/
theorem load_of_mayEnd {r : Except StoreError RecordFile}
    (h : s.load.run.MayEnd FileTree.MayAnswer t r t') :
    t' = t ∧ ∀ f, r = .ok f → s.Stores t f := by
  obtain ⟨present, t₁, hpresent, hrest⟩ := mayEnd_load.1 h
  obtain ⟨hb, rfl⟩ := FileTree.present_of_mayAnswer hpresent
  by_cases hpres : present = true
  · rw [if_pos hpres] at hrest
    obtain ⟨b, hread, rfl⟩ := hrest
    obtain ⟨rfl, hcontents⟩ := FileTree.read_of_mayAnswer hread
    refine ⟨rfl, fun f hf => ?_⟩
    obtain ⟨contents, rfl, hdecode⟩ := decoded_eq_ok.1 hf
    exact .inr ⟨contents, FileTree.bytesAt?_eq_some.2 (hcontents contents rfl), hdecode⟩
  · rw [if_neg hpres] at hrest
    obtain ⟨rfl, rfl⟩ := hrest
    refine ⟨rfl, fun f hf => .inl ⟨?_, (Except.ok.inj hf).symm⟩⟩
    exact FileTree.bytesAt?_of_absent (by simpa [hb] using hpres)

theorem asks_makeParent (path : String) (file : String) :
    (makeParent path).run.Asks (FileOp.Spares file) := by
  rw [makeParent]
  split
  · exact ⟨trivial, fun _ => by trivial⟩
  · trivial

/-- **The records file is replaced, or it is left alone.** -/
theorem save_of_mayEnd {f : RecordFile} {r : Except StoreError Unit}
    (h : (s.save f).run.MayEnd FileTree.MayAnswer t r t') :
    (∃ e, r = .error e) ∧ t'.bytesAt? s.recordsPath = t.bytesAt? s.recordsPath ∨
      r = .ok () ∧ t'.bytesAt? s.recordsPath = some (RecordFile.codec.pretty f) := by
  rcases mayEnd_exceptBind.1 h with ⟨e, hparent, rfl⟩ | ⟨⟨⟩, t₁, hparent, hrest⟩
  · exact .inl ⟨⟨e, rfl⟩, FileTree.bytesAt?_of_asks (asks_makeParent _ _) hparent⟩
  · have hmade := FileTree.bytesAt?_of_asks (asks_makeParent _ s.recordsPath) hparent
    rcases mayEnd_exceptBind.1 hrest with ⟨e, hwrite, rfl⟩ | ⟨⟨⟩, t₂, hwrite, hrename⟩
    · obtain ⟨b, hop, -⟩ := mayEnd_orFail.1 hwrite
      exact .inl ⟨⟨e, rfl⟩, (FileTree.bytesAt?_of_temporary hop).trans hmade⟩
    · obtain ⟨b, hop, hb⟩ := mayEnd_orFail.1 hwrite
      have hwritten := (FileTree.bytesAt?_of_temporary hop).trans hmade
      cases b with
      | error e => exact absurd hb nofun
      | ok =>
        obtain ⟨b, hmoved, rfl⟩ := mayEnd_orFail.1 hrename
        rcases FileTree.rename_of_store (FileTree.write_of_mayAnswer hop) hmoved with
          ⟨rfl, hnew⟩ | ⟨⟨e, rfl⟩, rfl⟩
        · exact .inr ⟨rfl, hnew⟩
        · exact .inl ⟨⟨_, rfl⟩, hwritten⟩

/-- **Records are put behind those of the file, or the file is left alone.** -/
theorem insert_of_mayEnd {records : List RoutingRecord} {r : Except StoreError Nat}
    (h : (s.insert records).run.MayEnd FileTree.MayAnswer t r t') :
    (∃ e, r = .error e) ∧ t'.bytesAt? s.recordsPath = t.bytesAt? s.recordsPath ∨
      ∃ old, r = .ok records.length ∧ s.Stores t old ∧ t'.bytesAt? s.recordsPath =
        some (RecordFile.codec.pretty { old with records := old.records ++ records }) := by
  rcases mayEnd_exceptBind.1 h with ⟨e, hload, rfl⟩ | ⟨old, t₁, hload, hrest⟩
  · obtain ⟨rfl, -⟩ := load_of_mayEnd hload
    exact .inl ⟨⟨e, rfl⟩, rfl⟩
  · obtain ⟨rfl, hold⟩ := load_of_mayEnd hload
    rcases mayEnd_exceptBind.1 hrest with ⟨e, hsave, rfl⟩ | ⟨⟨⟩, t₂, hsave, hdone⟩
    · rcases save_of_mayEnd hsave with ⟨-, hsame⟩ | ⟨he, -⟩
      · exact .inl ⟨⟨e, rfl⟩, hsame⟩
      · exact absurd he nofun
    · obtain ⟨rfl, rfl⟩ := hdone
      rcases save_of_mayEnd hsave with ⟨⟨e, he⟩, -⟩ | ⟨-, hwritten⟩
      · exact absurd he nofun
      · exact .inr ⟨old, rfl, hold old rfl, hwritten⟩

end FileStore
end ProxyPlane
