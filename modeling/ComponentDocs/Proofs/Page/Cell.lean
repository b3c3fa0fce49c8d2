import ComponentDocs.Page.Table
import ComponentDocs.Proofs.Text.Join
import ComponentDocs.Proofs.Text.Pieces
import ComponentDocs.Proofs.Text.Pipes

/-!
The cells of the rows that are read from any text: trimmed texts in which every
pipe is escaped, each of them a piece of a line of the text. Only a stand-in
that the text itself holds is altered: it is taken for an escaped pipe.
-/

namespace ComponentDocs.Page

/-- A cell as it is read from a table. -/
structure IsCellText (cell : Text) : Prop where
  escaped : Text.PipesEscaped cell
  trimmed : Text.trim cell = cell

theorem isCellText_nil : IsCellText [] where
  escaped := .of_not_mem List.not_mem_nil
  trimmed := rfl

theorem isCellText_of_mem_splitCells {line cell : Text}
    (member : cell ∈ splitCells line) : IsCellText cell := by
  rw [splitCells] at member
  obtain ⟨piece, isPiece, rfl⟩ := List.mem_map.mp member
  have noPipe : '|' ∉ Text.trim piece := fun inside =>
    Text.not_mem_of_mem_splitOn isPiece (Text.trim_subset piece inside)
  exact ⟨Text.pipesEscaped_showPipes pipeStand noPipe,
    Text.trim_showPipes (Text.trim_trim piece)⟩

/-- What may be read from a line: a piece of the line, with an escaped pipe for
each stand-in. -/
def IsReadFrom (line value : Text) : Prop :=
  ∃ piece, piece <:+: line ∧
    value = Text.showPipes pipeStand Text.escapedPipe piece

theorem IsReadFrom.mono {line other value : Text}
    (read : IsReadFrom line value) (inside : line <:+: other) :
    IsReadFrom other value := by
  obtain ⟨piece, isPiece, written⟩ := read
  exact ⟨piece, isPiece.trans inside, written⟩

theorem isReadFrom_of_mem_splitCells {line cell : Text}
    (member : cell ∈ splitCells line) : IsReadFrom line cell := by
  rw [splitCells] at member
  obtain ⟨between, isBetween, rfl⟩ := List.mem_map.mp member
  have inHidden :
      Text.trim between <:+: Text.hidePipes pipeStand line :=
    calc
      Text.trim between <:+: between := Text.trim_isInfix between
      between <:+: Text.dropOneEnd '|' (Text.dropOneStart '|'
          (Text.trim (Text.hidePipes pipeStand line))) :=
        Text.isInfix_of_mem_splitOn isBetween
      _ <:+: Text.dropOneStart '|'
          (Text.trim (Text.hidePipes pipeStand line)) :=
        (Text.dropOneEnd_isPrefix _ _).isInfix
      _ <:+: Text.trim (Text.hidePipes pipeStand line) :=
        (Text.dropOneStart_isSuffix _ _).isInfix
      _ <:+: Text.hidePipes pipeStand line := Text.trim_isInfix _
  obtain ⟨piece, isPiece, hidden⟩ :=
    Text.exists_isInfix_of_hidePipes pipeStand inHidden
  refine ⟨piece, isPiece, ?_⟩
  rw [← hidden, Text.showPipes_hidePipes pipeStand (by decide)]

/-! ## Rows -/

theorem Row.headers_ofValues (headers values : List Text) :
    (Row.ofValues headers values).headers = headers := by
  fun_induction Row.ofValues headers values with
  | case1 values =>
      rfl
  | case2 header headers inductionHypothesis =>
      exact congrArg _ inductionHypothesis
  | case3 header headers value values inductionHypothesis =>
      exact congrArg _ inductionHypothesis

/-- A cell of a row is one of the values, or empty where there is none. -/
theorem Row.mem_values_ofValues {headers values : List Text} {cell : Text}
    (member : cell ∈ (Row.ofValues headers values).values) :
    cell ∈ values ∨ cell = [] := by
  fun_induction Row.ofValues headers values with
  | case1 values =>
      exact absurd member List.not_mem_nil
  | case2 header headers inductionHypothesis =>
      rcases List.mem_cons.mp member with rfl | isLater
      · exact .inr rfl
      · exact inductionHypothesis isLater
  | case3 header headers value values inductionHypothesis =>
      rcases List.mem_cons.mp member with rfl | isLater
      · exact .inl List.mem_cons_self
      · exact (inductionHypothesis isLater).imp_left (List.mem_cons_of_mem _)

theorem mem_of_mem_bodyLines {lines : List Text} {line : Text}
    (member : line ∈ bodyLines lines) : line ∈ lines := by
  cases lines with
  | nil =>
      exact member
  | cons first rest =>
      rw [bodyLines] at member
      split at member
      · exact List.mem_cons_of_mem _ member
      · exact member

/-- A row comes from two lines: its headers from one and its cells from the
other. -/
theorem exists_lines_of_mem_rowsOfLines {lines : List Text} {row : Row}
    (member : row ∈ rowsOfLines lines) :
    ∃ header ∈ lines, ∃ line ∈ lines,
      row = Row.ofValues (splitCells header) (splitCells line) := by
  cases lines with
  | nil =>
      exact absurd member List.not_mem_nil
  | cons header rest =>
      unfold rowsOfLines at member
      dsimp only at member
      split at member
      · exact absurd member List.not_mem_nil
      · obtain ⟨line, inBody, rfl⟩ := List.mem_map.mp member
        exact ⟨header, List.mem_cons_self, line,
          List.mem_cons_of_mem _ (mem_of_mem_bodyLines inBody), rfl⟩

theorem exists_lines_of_mem_readTable {options : TableOptions} {text : Text}
    {row : Row} (member : row ∈ readTable options text) :
    ∃ header ∈ visibleLines text, ∃ line ∈ visibleLines text,
      row = Row.ofValues (splitCells header) (splitCells line) := by
  unfold readTable at member
  dsimp only at member
  split at member
  · exact absurd member List.not_mem_nil
  · obtain ⟨header, headerMember, line, lineMember, shape⟩ :=
      exists_lines_of_mem_rowsOfLines member
    have visible {line : Text}
        (inTable : line ∈ ((visibleLines text).dropWhile
          fun line => !isHeaderLine options line).takeWhile (·.contains '|')) :
        line ∈ visibleLines text :=
      (List.dropWhile_suffix _).subset (List.takeWhile_subset _ inTable)
    exact ⟨header, visible headerMember, line, visible lineMember, shape⟩

/-- Whatever the text is that a table is read from, its cells are trimmed and
have their pipes escaped. -/
theorem isCellText_of_mem_readTable {options : TableOptions} {text : Text}
    {row : Row} (member : row ∈ readTable options text)
    {cell : Text × Text} (inRow : cell ∈ row.cells) : IsCellText cell.2 := by
  obtain ⟨header, -, line, -, rfl⟩ := exists_lines_of_mem_readTable member
  rcases Row.mem_values_ofValues (List.mem_map_of_mem inRow) with
    isValue | isEmpty
  · exact isCellText_of_mem_splitCells isValue
  · rw [isEmpty]
    exact isCellText_nil

/-! ## Pieces of lines -/

theorem isReadFrom_of_mem_visibleLines {text line value : Text}
    (member : line ∈ visibleLines text) (read : IsReadFrom line value) :
    ∃ line ∈ text.splitOn '\n', IsReadFrom line value := by
  obtain ⟨isTrimmed, -⟩ := List.mem_filter.mp member
  obtain ⟨whole, isLine, rfl⟩ := List.mem_map.mp isTrimmed
  exact ⟨whole, isLine, read.mono (Text.trim_isInfix whole)⟩

/-- Each header and each cell of a table is empty or comes from a piece of one
line of the text: it is that piece, character for character, unless the piece
holds the stand-in, and then an escaped pipe is written for each one. -/
theorem value_from_linePiece {options : TableOptions} {text : Text} {row : Row}
    (member : row ∈ readTable options text) {value : Text}
    (inRow : value ∈ row.headers ∨ value ∈ row.values) :
    value = [] ∨
      ∃ line ∈ text.splitOn '\n', ∃ piece, piece <:+: line ∧
        value = Text.showPipes pipeStand Text.escapedPipe piece ∧
          (value = piece ↔ pipeStand ∉ piece) := by
  obtain ⟨header, headerMember, line, lineMember, rfl⟩ :=
    exists_lines_of_mem_readTable member
  have fromLine {line : Text} (visible : line ∈ visibleLines text)
      (inLine : value ∈ splitCells line) :
      ∃ line ∈ text.splitOn '\n', IsReadFrom line value :=
    isReadFrom_of_mem_visibleLines visible (isReadFrom_of_mem_splitCells inLine)
  have read :
      (∃ line ∈ text.splitOn '\n', IsReadFrom line value) ∨ value = [] := by
    rcases inRow with isHeader | isCell
    · rw [Row.headers_ofValues] at isHeader
      exact .inl (fromLine headerMember isHeader)
    · exact (Row.mem_values_ofValues isCell).imp_left (fromLine lineMember)
  rcases read with ⟨line, isLine, piece, isPiece, rfl⟩ | isEmpty
  · exact .inr ⟨line, isLine, piece, isPiece, rfl,
      Text.showPipes_eq_self_iff pipeStand (by decide)⟩
  · exact .inl isEmpty

/-- A table with the glyph of an icon font, and with an escaped pipe behind a
backslash. -/
def glyphTable : Text :=
  "| Name | Glyph |\n| --- | --- |\n| a \\\\| b | home \ue000 |\n".toList

def glyphRow : Row :=
  ⟨[("Name".toList, "a \\\\| b".toList),
    ("Glyph".toList, "home \\|".toList)]⟩

theorem glyphTable_name_from_linePiece :
    glyphRow ∈ readTable .default glyphTable ∧
      "a \\\\| b".toList ∈ glyphRow.values ∧
      ("a \\\\| b".toList = [] ∨
        ∃ line ∈ glyphTable.splitOn '\n', ∃ piece, piece <:+: line ∧
          "a \\\\| b".toList =
              Text.showPipes pipeStand Text.escapedPipe piece ∧
            ("a \\\\| b".toList = piece ↔ pipeStand ∉ piece)) := by
  have member : glyphRow ∈ readTable .default glyphTable := by
    decide +kernel
  have isCell : "a \\\\| b".toList ∈ glyphRow.values := by
    decide
  exact ⟨member, isCell, value_from_linePiece member (.inr isCell)⟩

/-- The glyph has the code of the stand-in, so that its cell holds an escaped
pipe, and no line of the text holds that cell. -/
theorem glyphTable_glyph_altered :
    glyphRow ∈ readTable .default glyphTable ∧
      "home \\|".toList ∈ glyphRow.values ∧
      ∀ line ∈ glyphTable.splitOn '\n', ¬ "home \\|".toList <:+: line := by
  decide +kernel

end ComponentDocs.Page
