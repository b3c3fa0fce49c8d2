import ComponentDocs.Proofs.Page.TableBreak

/-!
What is read of a table depends on the table alone: neither on the lines above
it, as long as none of them can be a header row, nor on the line that ends it
and what comes below that, nor on blank lines and blanks at the ends of lines.
-/

namespace ComponentDocs.Page

/-! ## Spacing -/

/-- Lists of lines that differ in blank lines and in blanks at the ends of
lines. -/
inductive SameButSpacing : List Text → List Text → Prop
  | nil : SameButSpacing [] []
  | blankLeft {line : Text} {lines others : List Text}
      (blank : ∀ character ∈ line, Text.isBlank character = true)
      (same : SameButSpacing lines others) :
      SameButSpacing (line :: lines) others
  | blankRight {line : Text} {lines others : List Text}
      (blank : ∀ character ∈ line, Text.isBlank character = true)
      (same : SameButSpacing lines others) :
      SameButSpacing lines (line :: others)
  | line (line leftEnds rightEnds : Text) {lines others : List Text}
      (leftBlank : ∀ character ∈ leftEnds, Text.isBlank character = true)
      (rightBlank : ∀ character ∈ rightEnds, Text.isBlank character = true)
      (same : SameButSpacing lines others) :
      SameButSpacing ((line ++ leftEnds) :: lines)
        ((line ++ rightEnds) :: others)

/-- Texts that differ in blank lines and in blanks at the ends of lines. -/
def Respaced (first second : Text) : Prop :=
  SameButSpacing (first.splitOn '\n') (second.splitOn '\n')

theorem SameButSpacing.refl (lines : List Text) :
    SameButSpacing lines lines := by
  induction lines with
  | nil =>
      exact .nil
  | cons first rest inductionHypothesis =>
      have same := inductionHypothesis.line first [] [] (by simp) (by simp)
      rwa [List.append_nil] at same

theorem trim_append_blank (line : Text) {ends : Text}
    (blank : ∀ character ∈ ends, Text.isBlank character = true) :
    Text.trim (line ++ ends) = Text.trim line :=
  Text.trim_append_append [] (fun _ member => nomatch member) line blank

theorem SameButSpacing.filter_trim_eq {lines others : List Text}
    (same : SameButSpacing lines others) :
    (lines.map Text.trim).filter (!·.isEmpty) =
      (others.map Text.trim).filter (!·.isEmpty) := by
  induction same with
  | nil =>
      rfl
  | blankLeft blank _ inductionHypothesis
  | blankRight blank _ inductionHypothesis =>
      simpa [Text.trim_eq_nil_iff.mpr blank] using inductionHypothesis
  | line line leftEnds rightEnds leftBlank rightBlank _ inductionHypothesis =>
      simp only [List.map_cons, trim_append_blank line leftBlank,
        trim_append_blank line rightBlank, List.filter_cons,
        inductionHypothesis]

theorem Respaced.visibleLines_eq {first second : Text}
    (same : Respaced first second) :
    visibleLines first = visibleLines second :=
  same.filter_trim_eq

/-! ## A table and what stands around it -/

/-- A table by itself: lines that each have a pipe, of which the first can be a
header row. -/
structure TableBlock (options : TableOptions) where
  header : Text
  below : List Text
  single : ∀ line ∈ header :: below, '\n' ∉ line
  piped : ∀ line ∈ header :: below, '|' ∈ line
  headed : isHeaderLine options (Text.trim header) = true

namespace TableBlock

variable {options : TableOptions} (block : TableBlock options)

def lines : List Text :=
  block.header :: block.below

/-- The rows that the lines of a table stand for. -/
def rows : List Row :=
  rowsOfLines (block.lines.map Text.trim)

end TableBlock

/-- What stands around a table: lines that cannot be header rows above it, and
below it a line without a pipe, which is not blank, and any text. -/
structure TableFrame (options : TableOptions) where
  above : List Text
  stop : Text
  rest : Text
  singleAbove : ∀ line ∈ above, '\n' ∉ line
  headless : ∀ line ∈ above, isHeaderLine options (Text.trim line) = false
  singleStop : '\n' ∉ stop
  visible : Text.trim stop ≠ []
  pipeless : '|' ∉ stop

namespace TableFrame

variable {options : TableOptions} (frame : TableFrame options)
  (block : TableBlock options)

/-- The text with a table in a frame, line by line. -/
def around : Text :=
  Text.join ['\n'] <|
    frame.above ++ (block.lines ++ [frame.stop, frame.rest])

end TableFrame

/-! ## The lines of a framed table -/

theorem visibleLines_join_eq_flatMap (lines : List Text) :
    visibleLines (Text.join ['\n'] lines) = lines.flatMap visibleLines := by
  by_cases nonempty : lines = []
  · rw [nonempty]
    rfl
  · rw [visibleLines, Text.splitOn_join_eq_flatMap '\n' nonempty,
      List.map_flatMap, List.filter_flatMap]
    rfl

theorem TableBlock.flatMap_visibleLines {options : TableOptions}
    (block : TableBlock options) :
    block.lines.flatMap visibleLines = block.lines.map Text.trim := by
  have shown : ∀ line ∈ block.lines,
      visibleLines line = [Text.trim line] := by
    intro line member
    have piped : '|' ∈ Text.trim line :=
      (Text.mem_trim_iff rfl).mpr (block.piped line member)
    rw [visibleLines_of_line (block.single line member)]
    simp [List.ne_nil_of_mem piped]
  rw [List.map_eq_flatMap]
  exact List.flatMap_congr shown

theorem TableFrame.visibleLines_stop {options : TableOptions}
    (frame : TableFrame options) :
    visibleLines frame.stop = [Text.trim frame.stop] := by
  rw [visibleLines_of_line frame.singleStop]
  simp [frame.visible]

theorem visibleLines_around {options : TableOptions}
    (block : TableBlock options) (frame : TableFrame options) :
    visibleLines (frame.around block) =
      frame.above.flatMap visibleLines ++
        (block.lines.map Text.trim ++
          Text.trim frame.stop :: visibleLines frame.rest) := by
  rw [TableFrame.around, visibleLines_join_eq_flatMap, List.flatMap_append,
    List.flatMap_append, block.flatMap_visibleLines, List.flatMap_cons,
    frame.visibleLines_stop]
  simp

/-- From the first possible header row on, as long as there are pipes: the lines
of a table are found in every frame. -/
theorem tableLines_around {options : TableOptions}
    (block : TableBlock options) (frame : TableFrame options) :
    tableLines options (visibleLines (frame.around block)) =
      block.lines.map Text.trim := by
  have headless : ∀ line ∈ frame.above.flatMap visibleLines,
      (!isHeaderLine options line) = true := by
    intro line member
    obtain ⟨whole, isAbove, shown⟩ := List.mem_flatMap.mp member
    rw [visibleLines_of_line (frame.singleAbove whole isAbove)] at shown
    obtain ⟨isTrimmed, -⟩ := List.mem_filter.mp shown
    rw [List.mem_singleton.mp isTrimmed, frame.headless whole isAbove]
    rfl
  have piped : ∀ line ∈ block.lines.map Text.trim,
      line.contains '|' = true := by
    intro line member
    obtain ⟨whole, isLine, rfl⟩ := List.mem_map.mp member
    simpa using (Text.mem_trim_iff rfl).mpr (block.piped whole isLine)
  have stopped : '|' ∉ Text.trim frame.stop := fun occurs =>
    frame.pipeless ((Text.mem_trim_iff rfl).mp occurs)
  have started (rest : List Text) :
      (block.lines.map Text.trim ++ rest).dropWhile
          (fun line => !isHeaderLine options line) =
        block.lines.map Text.trim ++ rest := by
    rw [TableBlock.lines, List.map_cons, List.cons_append,
      List.dropWhile_cons_of_neg]
    simp [block.headed]
  rw [tableLines, visibleLines_around, List.dropWhile_append_of_pos headless,
    started, List.takeWhile_append_of_pos piped,
    List.takeWhile_cons_of_neg (by simpa using stopped), List.append_nil]

/-! ## Reading -/

/-- A header row alone has no rows. -/
theorem TableBlock.rows_eq_nil {options : TableOptions}
    {block : TableBlock options} (alone : block.below = []) :
    block.rows = [] := by
  simp [rows, lines, alone, rowsOfLines, bodyLines]

theorem readTable_around {options : TableOptions} (block : TableBlock options)
    (frame : TableFrame options) :
    readTable options (frame.around block) = block.rows := by
  rw [readTable_eq_rowsOfLines, tableLines_around]
  split
  -- Two lines can only be a header row and the line that ends the table.
  · rename_i few
    rw [visibleLines_around] at few
    simp only [List.length_append, List.length_map, List.length_cons,
      TableBlock.lines] at few
    exact (block.rows_eq_nil (List.eq_nil_of_length_eq_zero (by omega))).symm
  · rfl

/-- Spacing is never read, and the rows of a table are the same in every frame
and with any spacing: those that its own lines stand for. -/
theorem readTable_depends (options : TableOptions) :
    (∀ first second, Respaced first second →
        readTable options first = readTable options second) ∧
      ∀ (block : TableBlock options) (frame : TableFrame options) (text : Text),
        Respaced (frame.around block) text →
          readTable options text = block.rows := by
  have spaced : ∀ first second, Respaced first second →
      readTable options first = readTable options second := by
    intro first second same
    rw [readTable, readTable, same.visibleLines_eq]
  refine ⟨spaced, ?_⟩
  intro block frame text same
  rw [← spaced _ _ same, readTable_around]

/-- A line of prose with a pipe, a line that ends the table and a second table
below it, against the table with one word below it and with blank lines in
it. -/
theorem spacedTable_depends :
    let options := TableOptions.default
    let first :=
      "例如 a | b\n| k |\n|---|\n| 1 |\ntrailing\n| 2 |".toList
    let second := "\n| k |  \n\n|---|\n \t\n| 1 |\nx".toList
    ∃ block : TableBlock options, ∃ frame other : TableFrame options,
      Respaced (frame.around block) first ∧
        Respaced (other.around block) second ∧
        readTable options first = block.rows ∧
        readTable options second = block.rows ∧
        block.rows = [⟨[(['k'], ['1'])]⟩] := by
  intro options first second
  let block : TableBlock options :=
    { header := "| k |".toList
      below := ["|---|".toList, "| 1 |".toList]
      single := by decide
      piped := by decide
      headed := by decide +kernel }
  let frame : TableFrame options :=
    { above := ["例如 a | b".toList]
      stop := "trailing".toList
      rest := "| 2 |".toList
      singleAbove := by decide
      headless := by decide +kernel
      singleStop := by decide
      visible := by decide
      pipeless := by decide }
  let other : TableFrame options :=
    { above := []
      stop := ['x']
      rest := []
      singleAbove := by decide
      headless := by decide
      singleStop := by decide
      visible := by decide
      pipeless := by decide }
  have same : Respaced (frame.around block) first :=
    SameButSpacing.refl _
  have sameOther : Respaced (other.around block) second := by
    have lines :
        second.splitOn '\n' =
          [[], "| k |  ".toList, [], "|---|".toList, " \t".toList,
            "| 1 |".toList, ['x']] := by
      decide +kernel
    have otherLines :
        (other.around block).splitOn '\n' =
          ["| k |".toList, "|---|".toList, "| 1 |".toList, ['x'], []] := by
      decide +kernel
    rw [Respaced, lines, otherLines]
    refine .blankRight (by decide) ?_
    refine .line "| k |".toList [] "  ".toList (by decide) (by decide) ?_
    refine .blankRight (by decide) ?_
    refine .line "|---|".toList [] [] (by decide) (by decide) ?_
    refine .blankRight (by decide) ?_
    refine .line "| 1 |".toList [] [] (by decide) (by decide) ?_
    refine .line ['x'] [] [] (by decide) (by decide) ?_
    exact .blankLeft (by decide) .nil
  have depends := (readTable_depends options).2 block
  exact ⟨block, frame, other, same, sameOther, depends frame first same,
    depends other second sameOther, by decide +kernel⟩

end ComponentDocs.Page
