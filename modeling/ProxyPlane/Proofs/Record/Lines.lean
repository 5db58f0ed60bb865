import ProxyPlane.Proofs.Json.Lines
import ProxyPlane.Proofs.Path
import ProxyPlane.Proofs.Record.Forms
import ProxyPlane.Proofs.Text.Trim
import ProxyPlane.Record.Store

/-!
# The lines of the audit file

Each row of the audit is written as one line.  No text in a row can end its line, and no line of a
row is passed over as blank.

## What is here

* `FileStore.auditText`, the file with some rows, and `lines_flatMap`: its lines.
* `readRows_auditText`: the rows are read back in their order.
-/

set_option autoImplicit false
namespace ProxyPlane
namespace FileStore

open Json

/-- What the audit file holds for some rows. -/
def auditText (rows : List AuditRow) : Bytes :=
  rows.flatMap fun row => AuditRow.codec.compact row ++ [0x0A]

theorem auditText_append (rows : List AuditRow) (row : AuditRow) :
    auditText (rows ++ [row]) = auditText rows ++ (AuditRow.codec.compact row ++ [0x0A]) := by
  simp [auditText]

/-! ## Lines -/

theorem pieces_flatMap {ls : List Bytes} (h : ∀ l ∈ ls, 0x0A ∉ l) :
    pieces 0x0A (ls.flatMap fun l => l ++ [0x0A]) = ls ++ [[]] := by
  induction ls with
  | nil => rfl
  | cons l ls ih =>
    obtain ⟨hl, hls⟩ := List.forall_mem_cons.1 h
    rw [List.flatMap_cons, List.append_assoc, List.singleton_append, pieces_append,
      pieces_of_not_mem hl, ih hls]
    rfl

theorem IsLine.not_mem {l : Bytes} (h : IsLine l) {b : UInt8} (hb : b < 0x20) : b ∉ l :=
  fun hmem => UInt8.not_le.2 hb (h.plain b hmem)

/-- A line without control characters has no carriage return at its end. -/
theorem withoutReturn_of_isLine {l : Bytes} (h : IsLine l) : withoutReturn l = l := by
  rw [withoutReturn, if_neg]
  intro hlast
  exact IsLine.not_mem h (by decide) (List.mem_of_getLast? hlast)

/-- **The lines of a file are those that were written**, each with a line break behind it. -/
theorem lines_flatMap {ls : List Bytes} (h : ∀ l ∈ ls, IsLine l) :
    lines (ls.flatMap fun l => l ++ [0x0A]) = ls := by
  have hkept : ls.map withoutReturn = ls := by
    rw [List.map_congr_left fun l hl => withoutReturn_of_isLine (h l hl), List.map_id']
  simp only [lines, pieces_flatMap fun l hl => IsLine.not_mem (h l hl) (by decide),
    List.dropLast_concat, List.getLast?_concat, hkept]
  simp

/-! ## Rows -/

/-- The text of a row is a line that starts with a brace. -/
theorem exists_compact (row : AuditRow) :
    ∃ rest, AuditRow.codec.compact row = 0x7B :: rest ∧ IsLine rest := by
  have hfits := AuditRow.fits (d := 0) row
  refine ⟨_, rfl, isLine_compactMembers fun e he => ?_⟩
  cases hfits with
  | object h => exact isLine_compact (h e he)

theorem isLine_row (row : AuditRow) : IsLine (AuditRow.codec.compact row) :=
  isLine_compact (AuditRow.fits (d := 0) row)

/-- The line of a row is a text, and not a blank one. -/
theorem decode?_compact (row : AuditRow) :
    ∃ text, Utf8.decode? (AuditRow.codec.compact row) = some text ∧
      (trimBlank text).isEmpty = false := by
  obtain ⟨rest, hrow, hrest⟩ := exists_compact row
  obtain ⟨cs, rfl⟩ := hrest.text
  have hencoded : AuditRow.codec.compact row = Utf8.encode (String.ofList ('{' :: cs)) := by
    rw [hrow, Utf8.encode_eq_flatMap, String.toList_ofList]
    rfl
  refine ⟨String.ofList ('{' :: cs), by rw [hencoded, Utf8.decode?_encode], ?_⟩
  have hhead : ('{' :: cs).dropWhile isBlank = '{' :: cs := List.dropWhile_cons_of_neg (by decide)
  have hne : trimWhile isBlank ('{' :: cs) ≠ [] := by
    rw [trimWhile_eq, hhead]
    intro hnil
    exact absurd (List.rdropWhile_eq_nil_iff.1 hnil '{' List.mem_cons_self) (by decide)
  have htrimmed : trimBlank (String.ofList ('{' :: cs)) ≠ "" := by
    rw [trimBlank, String.toList_ofList]
    exact fun h => hne (String.ofList_eq_empty_iff.1 h)
  exact Bool.eq_false_iff.2 fun h => htrimmed (String.isEmpty_iff.1 h)

theorem readRows_map (path : String) {rows : List AuditRow} (h : ∀ row ∈ rows, row.HasText) :
    readRows path (rows.map AuditRow.codec.compact) = .ok rows := by
  induction rows with
  | nil => rfl
  | cons row rows ih =>
    obtain ⟨hrow, hrows⟩ := List.forall_mem_cons.1 h
    obtain ⟨text, htext, hne⟩ := decode?_compact row
    rw [List.map_cons, readRows, htext]
    simp only [hne, if_neg Bool.false_ne_true, AuditRow.decode_compact hrow, ih hrows]
    rfl

/-- **The rows are read back in the order in which they were appended.** -/
theorem readRows_auditText (path : String) {rows : List AuditRow}
    (h : ∀ row ∈ rows, row.HasText) : readRows path (lines (auditText rows)) = .ok rows := by
  have hlines := @lines_flatMap (rows.map AuditRow.codec.compact) fun l hl => by
    obtain ⟨row, -, rfl⟩ := List.mem_map.1 hl
    exact isLine_row row
  rw [List.flatMap_map] at hlines
  exact (congrArg (readRows path) hlines).trans (readRows_map path h)

end FileStore
end ProxyPlane
