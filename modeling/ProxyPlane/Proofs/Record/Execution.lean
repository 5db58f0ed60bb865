import ProxyPlane.Proofs.Execution
import ProxyPlane.Record.Store

/-!
# How a store in files ends

What a store in files does is told by the answers that its operations on files may have, whichever
these are.

## What is here

* `mayEnd_orFail`, `mayEnd_load` and `mayEnd_auditLog`: single operations, and reading.
* `FileStore.decoded` and `FileStore.rowsOf`: what is made of the answer to reading.
-/

set_option autoImplicit false
namespace ProxyPlane
namespace FileStore

open Program

variable {allows : {β : Type} → FileOp β → FileTree → β → FileTree → Prop} {t t' : FileTree}

/-- A single operation ends as it is answered. -/
theorem mayEnd_orFail {α : Type} {path : String} {op : FileOp (Except IoError α)}
    {r : Except StoreError α} :
    (orFail path (.perform op)).run.MayEnd allows t r t' ↔
      ∃ b, allows op t b t' ∧ r = b.mapError (StoreError.io path) := by
  show (Program.bind (.perform op) _).MayEnd allows t r t' ↔ _
  rw [mayEnd_bind]
  constructor
  · rintro ⟨b, t₁, hop, hrest⟩
    cases b <;> obtain ⟨rfl, rfl⟩ := hrest <;> exact ⟨_, mayEnd_perform.1 hop, rfl⟩
  · rintro ⟨b, hop, rfl⟩
    refine ⟨b, t', mayEnd_perform.2 hop, ?_⟩
    cases b <;> exact ⟨rfl, rfl⟩

/-- What the records file is taken to hold. -/
def decoded (s : FileStore) : Except IoError Bytes → Except StoreError RecordFile
  | .error .isADirectory => .error (.malformed s.recordsPath .unreadable)
  | .error e => .error (.io s.recordsPath e)
  | .ok contents =>
    match RecordFile.codec.decode contents with
    | .ok f => .ok f
    | .error e => .error (.malformed s.recordsPath e)

theorem decoded_eq_ok {s : FileStore} {b : Except IoError Bytes} {f : RecordFile} :
    s.decoded b = .ok f ↔
      ∃ contents, b = .ok contents ∧ RecordFile.codec.decode contents = .ok f := by
  cases b with
  | error e => cases e <;> simp [decoded]
  | ok contents =>
    cases hdecode : RecordFile.codec.decode contents <;> simp [decoded, hdecode]

/-- What the audit file is taken to hold. -/
def rowsOf (s : FileStore) : Except IoError Bytes → Except StoreError (List AuditRow)
  | .error e => .error (.io s.auditPath e)
  | .ok contents => readRows s.auditPath (lines contents)

/-- A file is read if it is there. -/
theorem mayEnd_reading {α : Type} {path : String} {absent r : α} {g : Except IoError Bytes → α} :
    (step (.isPresent path) fun present =>
      if (!present) = true then done absent
      else step (.read path) fun b => done (g b)).MayEnd allows t r t' ↔
      ∃ present t₁, allows (.isPresent path) t present t₁ ∧
        if present then ∃ b, allows (.read path) t₁ b t' ∧ r = g b else r = absent ∧ t' = t₁ := by
  rw [mayEnd_step]
  refine exists_congr fun present => exists_congr fun t₁ => and_congr_right fun _ => ?_
  cases present with
  | false => simp
  | true =>
    simp only [Bool.not_true, if_neg Bool.false_ne_true, if_true, mayEnd_step]
    constructor
    · rintro ⟨b, t₂, hread, rfl, rfl⟩
      exact ⟨b, hread, rfl⟩
    · rintro ⟨b, hread, rfl⟩
      exact ⟨b, t', hread, rfl, rfl⟩

variable {s : FileStore}

theorem mayEnd_load {r : Except StoreError RecordFile} :
    s.load.run.MayEnd allows t r t' ↔
      ∃ present t₁, allows (.isPresent s.recordsPath) t present t₁ ∧
        if present then ∃ b, allows (.read s.recordsPath) t₁ b t' ∧ r = s.decoded b
        else r = .ok RecordFile.empty ∧ t' = t₁ :=
  mayEnd_reading

theorem mayEnd_auditLog {r : Except StoreError (List AuditRow)} :
    s.auditLog.run.MayEnd allows t r t' ↔
      ∃ present t₁, allows (.isPresent s.auditPath) t present t₁ ∧
        if present then ∃ b, allows (.read s.auditPath) t₁ b t' ∧ r = s.rowsOf b
        else r = .ok [] ∧ t' = t₁ :=
  mayEnd_reading

end FileStore
end ProxyPlane
