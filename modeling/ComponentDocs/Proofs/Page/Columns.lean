import ComponentDocs.Proofs.Page.RowCells
import ComponentDocs.Proofs.Page.TableBreak
import ComponentDocs.Proofs.Page.TablePlace
import Mathlib.Data.List.Nodup

/-!
Tables by columns. With the columns in another order a table has alike rows, and
what is read of it are rows that give the same cell under every header.
-/

namespace ComponentDocs.Page

open ComponentDocs.Markdown

/-! ## Rows -/

/-- Rows of which every question has the same answer: the cell under one of
some headers, and whether all cells are alignment marks. -/
structure Row.Alike (row other : Row) : Prop where
  cellUnder?_eq : ∀ aliases, row.cellUnder? aliases = other.cellUnder? aliases
  isSeparator_eq : row.isSeparator = other.isSeparator

theorem Row.Alike.refl (row : Row) : row.Alike row :=
  ⟨fun _ => rfl, rfl⟩

/-- A search that can find one item only finds it in any order. -/
theorem find?_eq_of_perm {α : Type} {items others : List α}
    {wanted : α → Bool} (perm : items.Perm others)
    (single : ∀ first ∈ items, ∀ second ∈ items,
      wanted first = true → wanted second = true → first = second) :
    items.find? wanted = others.find? wanted := by
  cases found : items.find? wanted with
  | none =>
      rw [List.find?_eq_none] at found
      symm
      rw [List.find?_eq_none]
      exact fun item member => found item (perm.mem_iff.mpr member)
  | some first =>
      have member := List.mem_of_find?_eq_some found
      have isWanted := List.find?_some found
      obtain ⟨second, foundOther⟩ : ∃ second,
          others.find? wanted = some second :=
        Option.isSome_iff_exists.mp <| List.find?_isSome.mpr
          ⟨first, perm.mem_iff.mp member, isWanted⟩
      rw [foundOther, single first member second
        (perm.mem_iff.mpr (List.mem_of_find?_eq_some foundOther)) isWanted
        (List.find?_some foundOther)]

/-- Rows with the same cells under different headers, in any order, are
alike. -/
theorem Row.alike_of_perm {row other : Row} (perm : row.cells.Perm other.cells)
    (distinct : (row.cells.map fun cell => cell.1.map Char.toLower).Nodup) :
    row.Alike other where
  cellUnder?_eq aliases := by
    have sameSearch (wanted : Text) :
        row.cells.find? (fun cell => Text.sameIgnoringCase cell.1 wanted) =
          other.cells.find? fun cell =>
            Text.sameIgnoringCase cell.1 wanted := by
      refine find?_eq_of_perm perm fun first isFirst second isSecond
        firstWanted secondWanted => ?_
      rw [Text.sameIgnoringCase, beq_iff_eq] at firstWanted secondWanted
      exact List.inj_on_of_nodup_map distinct isFirst isSecond
        (firstWanted.trans secondWanted.symm)
    unfold Row.cellUnder?
    simp only [sameSearch]
  isSeparator_eq := by
    have sameValues : row.values.Perm other.values := perm.map Prod.snd
    have sameAll : row.values.all isAlignmentCell =
        other.values.all isAlignmentCell := by
      rw [Bool.eq_iff_iff, List.all_eq_true, List.all_eq_true]
      simp only [sameValues.mem_iff]
    have sameEmpty : row.cells.isEmpty = other.cells.isEmpty := by
      rw [Bool.eq_iff_iff, List.isEmpty_iff_length_eq_zero,
        List.isEmpty_iff_length_eq_zero, perm.length_eq]
    rw [Row.isSeparator, Row.isSeparator, sameAll, sameEmpty]

/-! ## Lines -/

/-- Below a line with an end the next line starts. -/
theorem visibleLines_append_ending (before : Text) {ending : Text}
    (isEnding : IsEnding ending) (after : Text) :
    visibleLines (before ++ (ending ++ after)) =
      visibleLines before ++ visibleLines after := by
  rcases isEnding with rfl | rfl
  · exact visibleLines_append_feed before after
  · rw [List.cons_append, List.singleton_append, List.append_cons,
      visibleLines_append_feed, visibleLines_concat_blank rfl]

theorem visibleLines_append_endsLine (before : Text) {after : Text}
    (ends : EndsLine after) :
    visibleLines (before ++ after) =
      visibleLines before ++ visibleLines after := by
  rcases ends with rfl | ⟨ending, rest, isEnding, rfl⟩
  · rw [List.append_nil, visibleLines_nil, List.append_nil]
  · have alone := visibleLines_append_ending [] isEnding rest
    rw [List.nil_append, visibleLines_nil, List.nil_append] at alone
    rw [visibleLines_append_ending before isEnding, alone]

theorem CellRow.visibleLines_text (row : CellRow) :
    visibleLines row.text = [row.text] := by
  rw [visibleLines_of_line row.not_mem_text, row.trim_text]
  rfl

theorem visibleLines_join_rows {ending below : Text}
    (isEnding : IsEnding ending) (ends : EndsLine below) (rows : List CellRow) :
    visibleLines (Text.join ending (rows.map CellRow.text) ++ below) =
      rows.map CellRow.text ++ visibleLines below := by
  induction rows with
  | nil => rfl
  | cons first rest inductionHypothesis =>
      cases rest with
      | nil =>
          rw [List.map_singleton, Text.join,
            visibleLines_append_endsLine _ ends, first.visibleLines_text]
      | cons second others =>
          rw [List.map_cons, List.map_cons, Text.join_cons_cons,
            List.append_assoc, List.append_assoc,
            visibleLines_append_ending _ isEnding, first.visibleLines_text,
            ← List.map_cons, inductionHypothesis]
          rfl

/-- The lines of a table below lines that end in none, and above lines of which
the first has no pipe, are those of a table above them, if there is one, or
else its own. -/
theorem tableLines_between {options : TableOptions}
    {before rows after : List Text}
    (apart : endsInTable options before = false)
    (headed : ∃ header rest, rows = header :: rest ∧
      isHeaderLine options header = true)
    (piped : ∀ line ∈ rows, line.contains '|' = true)
    (stopped : ∀ line, after.head? = some line → '|' ∉ line) :
    tableLines options (before ++ (rows ++ after)) =
      if before.any (isHeaderLine options) then tableLines options before
      else rows := by
  cases opened : before.any (isHeaderLine options) with
  | true =>
      rw [tableLines_append_of_headed apart opened, if_pos rfl]
  | false =>
      have headless : ∀ line ∈ before, isHeaderLine options line = false := by
        simpa using opened
      have ended : after.takeWhile (·.contains '|') = [] := by
        cases after with
        | nil => rfl
        | cons line rest =>
            exact List.takeWhile_cons_of_neg (by simpa using stopped line rfl)
      obtain ⟨header, rest, rfl, isHeader⟩ := headed
      rw [tableLines_append_of_headless headless, if_neg Bool.false_ne_true,
        tableLines, List.cons_append,
        List.dropWhile_cons_of_neg (by simp [isHeader]), ← List.cons_append,
        List.takeWhile_append_of_pos piped, ended, List.append_nil]

/-! ## Columns -/

/-- A column of a table with `height` rows below its marks. -/
structure Column (height : Nat) where
  header : Text
  mark : Text
  cells : Fin height → Text

def Column.texts {height : Nat} (column : Column height) : List Text :=
  column.header :: column.mark :: List.ofFn column.cells

/-- A table with all its cells, column by column. No header has the name of
another one, not all of them are empty or alignment marks, and none reads like
prose. -/
structure ColumnTable (height : Nat) where
  columns : List (Column height)
  written : ∀ column ∈ columns, ∀ cell ∈ column.texts, IsCell cell
  unreturned : ∀ column ∈ columns, ∀ cell ∈ column.texts, '\r' ∉ cell
  distinct :
    (columns.map fun column => column.header.map Char.toLower).Nodup
  named : ∃ column ∈ columns, column.header ≠ []
  headed : ∃ column ∈ columns, isAlignmentCell column.header = false
  aligned : ∀ column ∈ columns, isAlignmentCell column.mark = true
  plain : ∀ column ∈ columns, ∀ marker ∈ TableOptions.defaultMarkers,
    ¬ marker <:+: column.header

namespace ColumnTable

variable {height : Nat} (table : ColumnTable height)

/-- The table with its columns in another order. -/
def reorder (columns : List (Column height))
    (perm : columns.Perm table.columns) : ColumnTable height where
  columns := columns
  written _ member := table.written _ (perm.mem_iff.mp member)
  unreturned _ member := table.unreturned _ (perm.mem_iff.mp member)
  distinct := (perm.map _).nodup_iff.mpr table.distinct
  named := by simpa only [perm.mem_iff] using table.named
  headed := by simpa only [perm.mem_iff] using table.headed
  aligned _ member := table.aligned _ (perm.mem_iff.mp member)
  plain _ member := table.plain _ (perm.mem_iff.mp member)

/-- One cell of each column, as a row. -/
def rowOf (pick : Column height → Text)
    (picks : ∀ column : Column height, pick column ∈ column.texts) :
    CellRow where
  cells := table.columns.map pick
  nonempty := by
    obtain ⟨column, member, -⟩ := table.named
    exact List.ne_nil_of_mem (List.mem_map_of_mem member)
  each cell member := by
    obtain ⟨column, isColumn, rfl⟩ := List.mem_map.mp member
    exact table.written column isColumn _ (picks column)

def header : CellRow :=
  table.rowOf Column.header fun _ => List.mem_cons_self

def marks : CellRow :=
  table.rowOf Column.mark fun _ => List.mem_cons_of_mem _ List.mem_cons_self

def body (place : Fin height) : CellRow :=
  table.rowOf (Column.cells · place) fun _ =>
    List.mem_cons_of_mem _ <| List.mem_cons_of_mem _ <|
      List.mem_ofFn.mpr ⟨place, rfl⟩

def bodies : List CellRow :=
  List.ofFn table.body

/-- The lines `| first | … | last |` of the table. -/
def lines : List Text :=
  (table.header :: table.marks :: table.bodies).map CellRow.text

def text (ending : Text) : Text :=
  Text.join ending table.lines

/-- The cells under the headers, in one row. -/
def row (place : Fin height) : Row :=
  ⟨table.columns.map fun column => (column.header, column.cells place)⟩

theorem two_le_length_lines : 2 ≤ table.lines.length := by
  rw [lines, List.length_map]
  exact Nat.le_add_left 2 _

theorem text_ne_nil (ending : Text) : table.text ending ≠ [] := by
  rw [text, lines, List.map_cons, List.map_cons, Text.join_cons_cons]
  exact List.append_ne_nil_of_left_ne_nil
    (List.append_ne_nil_of_left_ne_nil
      (List.ne_nil_of_mem (List.mem_of_mem_head? table.header.head?_text)) _) _

/-- The last line of a table ends with a pipe. -/
theorem trimLineEnds_text (ending : Text) :
    trimLineEnds (table.text ending) = table.text ending := by
  obtain ⟨before, last, shape⟩ :=
    (List.eq_nil_or_concat' (table.header :: table.marks ::
      table.bodies)).resolve_left (List.cons_ne_nil _ _)
  apply Text.dropEndWhile_eq_self
  intro character isLast
  rw [text, lines, shape, List.map_append, List.map_singleton,
    Text.getLast?_join last.getLast?_text, Option.some.injEq] at isLast
  rw [← isLast]
  rfl

/-- A section with the table in it. -/
theorem block?_text {above below name lead rest ending : Text}
    (around :
      sectionAround? above (table.text ending) below name =
        some (lead, rest)) :
    block? (above ++ (table.text ending ++ below)) name =
      some (lead ++ (table.text ending ++ rest)) :=
  block?_of_around (table.text_ne_nil ending) (table.trimLineEnds_text ending)
    around

/-! ### Reading -/

theorem body_under_header (place : Fin height) :
    (table.body place).under table.header = table.row place := by
  have sameWidth :
      table.header.cells.length = (table.body place).cells.length := by
    simp [header, body, rowOf]
  rw [CellRow.under, sameWidth, fit_length_self]
  exact congrArg Row.mk (List.zip_map' ..)

theorem exists_headed :
    ∃ cell ∈ table.header.cells, isAlignmentCell cell = false := by
  obtain ⟨column, member, isOther⟩ := table.headed
  exact ⟨column.header, List.mem_map_of_mem member, isOther⟩

theorem forall_aligned :
    ∀ cell ∈ table.marks.cells, isAlignmentCell cell = true := by
  intro cell member
  obtain ⟨column, isColumn, rfl⟩ := List.mem_map.mp member
  exact table.aligned column isColumn

/-- The table row by row. -/
def byRows : WrittenTable :=
  writtenTable table.bodies table.exists_headed table.forall_aligned

theorem isHeaderLine_header :
    isHeaderLine .default table.header.text = true := by
  have plain : ∀ marker ∈ TableOptions.default.proseMarkers, marker ≠ [] →
      ¬ marker <:+: table.header.text := by
    intro marker member nonempty
    have simple : ∀ marker ∈ TableOptions.defaultMarkers,
        ' ' ∉ marker ∧ '|' ∉ marker := by
      decide +kernel
    obtain ⟨unspaced, unpiped⟩ := simple marker member
    rw [CellRow.isInfix_text_iff nonempty unspaced unpiped]
    rintro ⟨cell, isCell, occurs⟩
    obtain ⟨column, isColumn, rfl⟩ := List.mem_map.mp isCell
    exact table.plain column isColumn marker member occurs
  have line_eq : table.byRows.header.line = table.header.text :=
    table.header.line_written
  have notProse := looksLikeProse_eq_false plain
  rw [← line_eq] at notProse ⊢
  exact table.byRows.isHeaderLine_header notProse

theorem rowsOfLines_lines : rowsOfLines table.lines = List.ofFn table.row := by
  have lines_eq : table.byRows.lines = table.lines :=
    lines_writtenTable _ _ _
  have cells_eq : table.byRows.header.cells = table.header.cells :=
    table.header.cells_written
  have rows_eq :
      table.byRows.bodyRows =
        table.bodies.map (CellRow.under · table.header) :=
    bodyRows_writtenTable _ _ _
  have notEmpty : table.header.cells.all List.isEmpty = false := by
    obtain ⟨column, member, nonempty⟩ := table.named
    exact List.all_eq_false.mpr
      ⟨column.header, List.mem_map_of_mem member, by simpa using nonempty⟩
  rw [← lines_eq, table.byRows.rowsOfLines_lines, cells_eq, notEmpty,
    if_neg Bool.false_ne_true, rows_eq, bodies, List.map_ofFn]
  exact congrArg List.ofFn (funext table.body_under_header)

/-- The rows of a text with the table in it: those of a table above it, if there
is one, or else its own. -/
theorem readTable_between {front tail ending : Text}
    (isEnding : IsEnding ending) (starts : StartsLine front)
    (ends : EndsLine tail)
    (apart : endsInTable .default (visibleLines front) = false)
    (stopped : ∀ line, (visibleLines tail).head? = some line → '|' ∉ line) :
    readTable .default (front ++ (table.text ending ++ tail)) =
      if (visibleLines front).length +
          (height + 2 + (visibleLines tail).length) < 3 then []
      else if (visibleLines front).any (isHeaderLine .default) then
        rowsOfLines (tableLines .default (visibleLines front))
      else List.ofFn table.row := by
  have visible :
      visibleLines (front ++ (table.text ending ++ tail)) =
        visibleLines front ++ (table.lines ++ visibleLines tail) := by
    rw [visibleLines_append starts, text, lines,
      visibleLines_join_rows isEnding ends]
  have piped : ∀ line ∈ table.lines, line.contains '|' = true := by
    intro line member
    obtain ⟨row, -, rfl⟩ := List.mem_map.mp member
    simpa using List.mem_of_mem_head? row.head?_text
  have count : table.lines.length = height + 2 := by
    simp [lines, bodies]
  have headed : ∃ first rest, table.lines = first :: rest ∧
      isHeaderLine .default first = true :=
    ⟨_, _, rfl, table.isHeaderLine_header⟩
  rw [readTable_eq_rowsOfLines, visible,
    tableLines_between apart headed piped stopped, List.length_append,
    List.length_append, count, apply_ite rowsOfLines, rowsOfLines_lines]

/-! ### Another order -/

theorem forall₂_ofFn {α β : Type} {relation : α → β → Prop}
    {first : Fin height → α} {second : Fin height → β}
    (related : ∀ place, relation (first place) (second place)) :
    List.Forall₂ relation (List.ofFn first) (List.ofFn second) := by
  rw [List.forall₂_iff_get]
  simpa using fun place inside => related ⟨place, inside⟩

section Reorder

variable (columns : List (Column height))
  (perm : columns.Perm table.columns)

theorem rowAlike_rowOf (pick : Column height → Text)
    (picks : ∀ column : Column height, pick column ∈ column.texts) :
    RowAlike (table.rowOf pick picks).text
      ((table.reorder columns perm).rowOf pick picks).text := by
  refine CellRow.rowAlike_of_perm (perm.map pick).symm fun cell member => ?_
  obtain ⟨column, isColumn, rfl⟩ := List.mem_map.mp member
  exact table.unreturned column isColumn _ (picks column)

theorem lines_alike :
    List.Forall₂ RowAlike table.lines (table.reorder columns perm).lines := by
  refine .cons (table.rowAlike_rowOf columns perm _ _) <|
    .cons (table.rowAlike_rowOf columns perm _ _) ?_
  rw [bodies, bodies, List.map_ofFn, List.map_ofFn]
  exact forall₂_ofFn fun place => table.rowAlike_rowOf columns perm _ _

section Place

variable {above below ending : Text} (isEnding : IsEnding ending)
  (place : TakesTable above (table.text ending) below)

include isEnding place

/-- The sections around a table are the same with its columns in any order. -/
theorem sectionAround?_reorder (name : Text) :
    sectionAround? above ((table.reorder columns perm).text ending) below
        name =
      sectionAround? above (table.text ending) below name :=
  sectionAround?_rows (table.lines_alike columns perm) table.two_le_length_lines
    isEnding place name

theorem block?_reorder_of_not_around {name : Text}
    (notAround :
      sectionAround? above (table.text ending) below name = none) :
    block? (above ++ ((table.reorder columns perm).text ending ++ below))
        name =
      block? (above ++ (table.text ending ++ below)) name :=
  block?_rows_of_not_around (table.lines_alike columns perm)
    table.two_le_length_lines isEnding place notAround

theorem introduction?_reorder
    (introduced : ∃ heading,
      (headings (above ++ (table.text ending ++ below))).find?
          (fun heading => heading.level != 1) = some heading ∧
        heading.start ≤ above.length) :
    introduction?
        (above ++ ((table.reorder columns perm).text ending ++ below)) =
      introduction? (above ++ (table.text ending ++ below)) :=
  introduction?_rows (table.lines_alike columns perm) table.two_le_length_lines
    isEnding place introduced

end Place

theorem row_alike (place : Fin height) :
    (table.row place).Alike ((table.reorder columns perm).row place) := by
  refine Row.alike_of_perm (perm.map _).symm ?_
  rw [row, List.map_map]
  exact table.distinct

/-- A section reads alike rows with the columns in any order. -/
theorem readTable_reorder {front tail ending : Text}
    (isEnding : IsEnding ending) (starts : StartsLine front)
    (ends : EndsLine tail)
    (apart : endsInTable .default (visibleLines front) = false)
    (stopped : ∀ line, (visibleLines tail).head? = some line → '|' ∉ line) :
    List.Forall₂ Row.Alike
      (readTable .default (front ++ (table.text ending ++ tail)))
      (readTable .default
        (front ++ ((table.reorder columns perm).text ending ++ tail))) := by
  have same (rows : List Row) : List.Forall₂ Row.Alike rows rows :=
    List.forall₂_same.mpr fun row _ => .refl row
  rw [table.readTable_between isEnding starts ends apart stopped,
    (table.reorder columns perm).readTable_between isEnding starts ends apart
      stopped]
  split
  · exact .nil
  split
  · exact same _
  · exact forall₂_ofFn (table.row_alike columns perm)

end Reorder

end ColumnTable

end ComponentDocs.Page
