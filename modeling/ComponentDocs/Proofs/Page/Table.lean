import ComponentDocs.Proofs.Page.Cell
import ComponentDocs.Proofs.Page.Row

/-!
Tables as they are written: a header row, a row of alignment marks and the rows
below them. A text whose visible lines are those of such a table gives back its
rows.
-/

namespace ComponentDocs.Page

/-- The visible lines of trimmed lines are those that are not empty. -/
theorem visibleLines_join {lines : List Text} (nonempty : lines ≠ [])
    (single : ∀ line ∈ lines, '\n' ∉ line)
    (trimmed : ∀ line ∈ lines, Text.trim line = line) :
    visibleLines (Text.join ['\n'] lines) = lines.filter (!·.isEmpty) := by
  have kept : lines.map Text.trim = lines := by
    conv_rhs => rw [← List.map_id lines]
    exact List.map_congr_left trimmed
  rw [visibleLines, Text.splitOn_join nonempty single, kept]

/-- How a table is written. Every line has a pipe, the second row holds nothing
but alignment marks, and the first row holds something else. -/
structure WrittenTable where
  header : WrittenRow
  delimiter : WrittenRow
  rows : List WrittenRow
  piped : ∀ row ∈ header :: delimiter :: rows, '|' ∈ row.line
  headed : header.cells.all isAlignmentCell = false
  aligned : delimiter.cells.all isAlignmentCell = true

namespace WrittenTable

variable (table : WrittenTable)

def lines : List Text :=
  (table.header :: table.delimiter :: table.rows).map WrittenRow.line

/-- The cells of a row under the headers. -/
def row (written : WrittenRow) : Row :=
  Row.ofValues table.header.cells written.cells

def bodyRows : List Row :=
  table.rows.map table.row

theorem headers_row (written : WrittenRow) :
    (table.row written).headers = table.header.cells :=
  Row.headers_ofValues _ _

/-- The header row of a table may be taken for one, unless it reads like
prose. -/
theorem isHeaderLine_header {options : TableOptions}
    (plain : options.looksLikeProse table.header.line = false) :
    isHeaderLine options table.header.line = true := by
  have piped : table.header.line.contains '|' = true := by
    simpa using table.piped table.header List.mem_cons_self
  rw [isHeaderLine, isAlignmentLine, WrittenRow.splitCells_line, piped, plain,
    table.headed]
  rfl

theorem rowsOfLines_lines :
    rowsOfLines table.lines =
      if table.header.cells.all List.isEmpty then [] else table.bodyRows := by
  have body :
      bodyLines ((table.delimiter :: table.rows).map WrittenRow.line) =
        table.rows.map WrittenRow.line := by
    rw [List.map_cons, bodyLines, isAlignmentLine,
      WrittenRow.splitCells_line, if_pos table.aligned]
  rw [lines, List.map_cons, rowsOfLines, WrittenRow.splitCells_line, body,
    List.map_map]
  split
  · rfl
  · apply List.map_congr_left
    intro written _
    rw [Function.comp_apply, WrittenRow.splitCells_line]
    rfl

/-- A table alone in a text is read row by row, unless its header row is empty
or reads like prose. -/
theorem readTable_eq {options : TableOptions} {text : Text}
    (visible : visibleLines text = table.lines)
    (plain : options.looksLikeProse table.header.line = false) :
    readTable options text =
      if table.header.cells.all List.isEmpty then [] else table.bodyRows := by
  have whole : table.lines.takeWhile (·.contains '|') = table.lines := by
    apply List.takeWhile_eq_self_iff.mpr
    intro line member
    obtain ⟨written, writtenMember, rfl⟩ := List.mem_map.mp member
    simpa using table.piped written writtenMember
  have started :
      table.lines.dropWhile (fun line => !isHeaderLine options line) =
        table.lines := by
    rw [lines, List.map_cons, List.dropWhile_cons_of_neg]
    simp [table.isHeaderLine_header plain]
  rw [readTable, visible, started, whole, rowsOfLines_lines]
  cases present : table.rows with
  | nil =>
      simp [bodyRows, present]
  | cons first rest =>
      have enough : ¬ table.lines.length < 3 := by
        simp [lines, present]
      rw [if_neg enough]

end WrittenTable

end ComponentDocs.Page
