import ComponentDocs.Proofs.Page.Table
import ComponentDocs.Proofs.Text.Pieces

/-!
The text of a table: a header row, a row of alignment marks and body rows of
any width, each written as a line of cells between pipes. Reading the text
gives the body rows back, cut and filled up to the width of the header.
-/

namespace ComponentDocs.Page

/-! ## Cells under headers -/

/-- As many cells as there are headers: extra ones are cut off, and empty ones
fill a row up. -/
def fit (width : Nat) (cells : List Text) : List Text :=
  (cells ++ List.replicate width []).take width

theorem fit_nil (width : Nat) : fit width [] = List.replicate width [] := by
  simp [fit]

theorem fit_cons (width : Nat) (cell : Text) (cells : List Text) :
    fit (width + 1) (cell :: cells) = cell :: fit width cells := by
  have longer :
      cells ++ List.replicate (width + 1) [] =
        (cells ++ List.replicate width []) ++ [[]] := by
    rw [List.replicate_succ', List.append_assoc]
  have enough : width ≤ (cells ++ List.replicate width []).length := by
    simp
  rw [fit, List.cons_append, List.take_succ_cons, longer,
    List.take_append_of_le_length enough, fit]

theorem fit_length_self (cells : List Text) :
    fit cells.length cells = cells := by
  rw [fit, List.take_left]

theorem ofValues_eq (headers values : List Text) :
    Row.ofValues headers values =
      ⟨headers.zip (fit headers.length values)⟩ := by
  induction headers generalizing values with
  | nil =>
      rfl
  | cons header headers inductionHypothesis =>
      cases values with
      | nil =>
          have others := inductionHypothesis []
          rw [fit_nil] at others
          rw [Row.ofValues, others, fit_nil, List.length_cons,
            List.replicate_succ, List.zip_cons_cons]
      | cons value values =>
          have others := inductionHypothesis values
          rw [Row.ofValues, others, List.length_cons, fit_cons,
            List.zip_cons_cons]

/-! ## Rows -/

/-- A cell that is read as it is written: trimmed, on one line, without the
stand-in for escaped pipes, and with every pipe escaped. -/
structure IsCell (cell : Text) : Prop where
  trimmed : Text.trim cell = cell
  single : '\n' ∉ cell
  fresh : pipeStand ∉ cell
  escaped : Text.PipesEscaped cell

instance (cell : Text) : Decidable (IsCell cell) :=
  decidable_of_iff
    (Text.trim cell = cell ∧ '\n' ∉ cell ∧ pipeStand ∉ cell ∧
      Text.PipesEscaped cell)
    ⟨fun ⟨trimmed, single, fresh, escaped⟩ =>
        ⟨trimmed, single, fresh, escaped⟩,
      fun isCell =>
        ⟨isCell.trimmed, isCell.single, isCell.fresh, isCell.escaped⟩⟩

/-- The cells of a row, at least one. -/
structure CellRow where
  cells : List Text
  nonempty : cells ≠ []
  each : ∀ cell ∈ cells, IsCell cell

theorem join_map_pad {cells : List Text} (nonempty : cells ≠ []) :
    Text.join ['|'] (cells.map pad) =
      [' '] ++ Text.join " | ".toList cells ++ [' '] := by
  induction cells with
  | nil =>
      exact absurd rfl nonempty
  | cons first rest inductionHypothesis =>
      cases rest with
      | nil =>
          simp [pad, Text.join]
      | cons second others =>
          have joined := inductionHypothesis (List.cons_ne_nil second others)
          rw [List.map_cons] at joined
          rw [List.map_cons, List.map_cons, Text.join_cons_cons, joined,
            Text.join_cons_cons]
          simp [pad]

namespace CellRow

variable (row : CellRow)

/-- The line `| first | … | last |`. -/
def text : Text :=
  "| ".toList ++ Text.join " | ".toList row.cells ++ " |".toList

def written : WrittenRow :=
  .ofCells row.cells row.nonempty fun cell member =>
    (row.each cell member).escaped

theorem cells_written : row.written.cells = row.cells :=
  WrittenRow.cells_ofCells (fun cell member => (row.each cell member).trimmed)
    fun cell member => (row.each cell member).fresh

theorem line_written : row.written.line = row.text := by
  have line_eq :
      row.written.line =
        ['|'] ++ Text.join ['|'] (row.cells.map pad) ++ ['|'] :=
    rfl
  rw [line_eq, join_map_pad row.nonempty]
  simp [text]

theorem head?_text : row.text.head? = some '|' :=
  rfl

theorem getLast?_text : row.text.getLast? = some '|' := by
  have closed :
      row.text =
        ("| ".toList ++ Text.join " | ".toList row.cells ++ [' ']) ++ ['|'] := by
    simp [text]
  rw [closed, List.getLast?_concat]

theorem trim_text : Text.trim row.text = row.text := by
  apply Text.trim_eq_self
  · intro first isFirst
    rw [head?_text, Option.some.injEq] at isFirst
    rw [← isFirst]
    rfl
  · intro last isLast
    rw [getLast?_text, Option.some.injEq] at isLast
    rw [← isLast]
    rfl

theorem not_mem_text : '\n' ∉ row.text := by
  intro member
  rw [text, List.mem_append, List.mem_append] at member
  rcases member with (opening | inJoin) | closing
  · exact absurd opening (by decide)
  · rcases Text.mem_join inJoin with inSeparator | ⟨cell, isCell, inCell⟩
    · exact absurd inSeparator (by decide)
    · exact (row.each cell isCell).single inCell
  · exact absurd closing (by decide)

/-- The row of these cells under the cells of a header. -/
def under (header : CellRow) : Row :=
  ⟨header.cells.zip (fit header.cells.length row.cells)⟩

end CellRow

/-! ## Tables -/

def tableText (header marks : CellRow) (rows : List CellRow) : Text :=
  Text.join ['\n'] ((header :: marks :: rows).map CellRow.text)

/-- The lines of rows are the visible lines of their text, with or without
line feeds at its end. -/
theorem visibleLines_rows {rows : List CellRow} (nonempty : rows ≠ [])
    (ends : Nat) :
    visibleLines (Text.join ['\n'] (rows.map CellRow.text) ++
        List.replicate ends '\n') =
      rows.map CellRow.text := by
  have nonemptyLines : rows.map CellRow.text ≠ [] := by
    simpa using nonempty
  have line {text : Text}
      (member : text ∈ rows.map CellRow.text ++ List.replicate ends []) :
      text = [] ∨ ∃ row, CellRow.text row = text := by
    rcases List.mem_append.mp member with isRow | added
    · obtain ⟨row, -, text_eq⟩ := List.mem_map.mp isRow
      exact .inr ⟨row, text_eq⟩
    · exact .inl (List.eq_of_mem_replicate added)
  have single :
      ∀ text ∈ rows.map CellRow.text ++ List.replicate ends [],
        '\n' ∉ text := by
    intro text member
    rcases line member with rfl | ⟨row, rfl⟩
    · exact List.not_mem_nil
    · exact row.not_mem_text
  have trimmed :
      ∀ text ∈ rows.map CellRow.text ++ List.replicate ends [],
        Text.trim text = text := by
    intro text member
    rcases line member with rfl | ⟨row, rfl⟩
    · rfl
    · exact row.trim_text
  have kept :
      (rows.map CellRow.text).filter (!·.isEmpty) = rows.map CellRow.text := by
    apply List.filter_eq_self.mpr
    intro text member
    obtain ⟨row, -, rfl⟩ := List.mem_map.mp member
    rfl
  have dropped :
      (List.replicate ends ([] : Text)).filter (!·.isEmpty) = [] := by
    apply List.filter_eq_nil_iff.mpr
    intro text member
    rw [List.eq_of_mem_replicate member]
    decide
  rw [← Text.join_append_replicate '\n' nonemptyLines,
    visibleLines_join (List.append_ne_nil_of_left_ne_nil nonemptyLines _)
      single trimmed,
    List.filter_append, kept, dropped, List.append_nil]

section Table

variable {header marks : CellRow} (rows : List CellRow)
  (headed : ∃ cell ∈ header.cells, isAlignmentCell cell = false)
  (aligned : ∀ cell ∈ marks.cells, isAlignmentCell cell = true)

/-- The table that the text writes. -/
def writtenTable : WrittenTable where
  header := header.written
  delimiter := marks.written
  rows := rows.map CellRow.written
  piped := by
    intro written member
    have isWritten :
        written ∈ (header :: marks :: rows).map CellRow.written := member
    obtain ⟨row, -, rfl⟩ := List.mem_map.mp isWritten
    rw [row.line_written]
    exact List.mem_of_mem_head? row.head?_text
  headed := by
    obtain ⟨cell, member, isOther⟩ := headed
    rw [header.cells_written]
    exact List.all_eq_false.mpr ⟨cell, member, by simp [isOther]⟩
  aligned := by
    rw [marks.cells_written]
    exact List.all_eq_true.mpr aligned

theorem lines_writtenTable :
    (writtenTable rows headed aligned).lines =
      (header :: marks :: rows).map CellRow.text := by
  have lines_eq :
      (writtenTable rows headed aligned).lines =
        ((header :: marks :: rows).map CellRow.written).map WrittenRow.line :=
    rfl
  rw [lines_eq, List.map_map]
  exact List.map_congr_left fun row _ => row.line_written

theorem bodyRows_writtenTable :
    (writtenTable rows headed aligned).bodyRows =
      rows.map (CellRow.under · header) := by
  have bodyRows_eq :
      (writtenTable rows headed aligned).bodyRows =
        (rows.map CellRow.written).map fun written =>
          Row.ofValues header.written.cells written.cells :=
    rfl
  rw [bodyRows_eq, List.map_map]
  apply List.map_congr_left
  intro row _
  rw [Function.comp_apply, header.cells_written, row.cells_written,
    ofValues_eq]
  rfl

theorem looksLikeProse_eq_false {options : TableOptions} {line : Text}
    (plain : ∀ marker ∈ options.proseMarkers, marker ≠ [] →
      ¬ marker <:+: line) :
    options.looksLikeProse line = false := by
  apply List.any_eq_false.mpr
  intro marker member
  rw [Bool.and_eq_true, Text.hasPiece_iff_isInfix]
  rintro ⟨nonempty, isPiece⟩
  exact plain marker member (by simpa using nonempty) isPiece

/-- Reading the text of a table gives one row for each body row, in order: the
cells of the header with the cells below them, which are cut off or filled up
to the width of the header and are otherwise unchanged. The body rows may have
any width and may look like alignment marks. -/
theorem readTable_tableText {options : TableOptions} (ends : Nat)
    (named : ∃ cell ∈ header.cells, cell ≠ [])
    (headed : ∃ cell ∈ header.cells, isAlignmentCell cell = false)
    (aligned : ∀ cell ∈ marks.cells, isAlignmentCell cell = true)
    (plain : ∀ marker ∈ options.proseMarkers, marker ≠ [] →
      ¬ marker <:+: header.text) :
    readTable options
        (tableText header marks rows ++ List.replicate ends '\n') =
      rows.map (CellRow.under · header) := by
  have visible :
      visibleLines (tableText header marks rows ++ List.replicate ends '\n') =
        (writtenTable rows headed aligned).lines := by
    rw [lines_writtenTable]
    exact visibleLines_rows (List.cons_ne_nil _ _) ends
  have notProse :
      options.looksLikeProse (writtenTable rows headed aligned).header.line =
        false := by
    have line_eq :
        (writtenTable rows headed aligned).header.line = header.text :=
      header.line_written
    rw [line_eq]
    exact looksLikeProse_eq_false plain
  have notEmpty :
      (writtenTable rows headed aligned).header.cells.all List.isEmpty =
        false := by
    have cells_eq :
        (writtenTable rows headed aligned).header.cells = header.cells :=
      header.cells_written
    obtain ⟨cell, member, nonempty⟩ := named
    rw [cells_eq]
    exact List.all_eq_false.mpr ⟨cell, member, by simpa using nonempty⟩
  rw [(writtenTable rows headed aligned).readTable_eq visible notProse,
    notEmpty, if_neg Bool.false_ne_true, bodyRows_writtenTable]

end Table

/-! ## A ragged table -/

def raggedHeader : CellRow where
  cells := ["Name".toList, [], "Type".toList]
  nonempty := by decide
  each := by decide +kernel

def raggedMarks : CellRow where
  cells := ["---".toList, ":-:".toList, "-".toList]
  nonempty := by decide
  each := by decide +kernel

/-- A short row, a long one with an escaped pipe, a backslash and an empty
cell at the ends of cells, and one that looks like alignment marks. -/
def raggedRows : List CellRow :=
  [{ cells := ["size".toList]
     nonempty := by decide
     each := by decide +kernel },
    { cells := [[], "a \\|".toList, "b\\".toList, "c".toList]
      nonempty := by decide
      each := by decide +kernel },
    { cells := ["---".toList, "---".toList, "---".toList]
      nonempty := by decide
      each := by decide +kernel }]

theorem readTable_raggedRows :
    readTable .default
        ("| Name |  | Type |\n| --- | :-: | - |\n| size |\n".toList ++
          "|  | a \\| | b\\ | c |\n| --- | --- | --- |\n".toList) =
      [⟨[("Name".toList, "size".toList), ([], []), ("Type".toList, [])]⟩,
        ⟨[("Name".toList, []), ([], "a \\|".toList),
          ("Type".toList, "b\\".toList)]⟩,
        ⟨[("Name".toList, "---".toList), ([], "---".toList),
          ("Type".toList, "---".toList)]⟩] := by
  have text_eq :
      "| Name |  | Type |\n| --- | :-: | - |\n| size |\n".toList ++
          "|  | a \\| | b\\ | c |\n| --- | --- | --- |\n".toList =
        tableText raggedHeader raggedMarks raggedRows ++
          List.replicate 1 '\n' := by
    decide +kernel
  have plain :
      ∀ marker ∈ TableOptions.default.proseMarkers, marker ≠ [] →
        ¬ marker <:+: raggedHeader.text := by
    decide +kernel
  rw [text_eq]
  exact readTable_tableText raggedRows 1
    ⟨"Name".toList, by decide, by decide⟩
    ⟨"Name".toList, by decide, by decide +kernel⟩ (by decide +kernel) plain

end ComponentDocs.Page
