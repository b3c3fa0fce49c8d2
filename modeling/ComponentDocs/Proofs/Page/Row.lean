import ComponentDocs.Page.Table
import ComponentDocs.Proofs.Text.Join
import ComponentDocs.Proofs.Text.Pipes

/-!
Rows of tables as they are written: cells between pipes, with any blanks around
them and with or without the outer pipes. Splitting such a line gives its cells
back.
-/

namespace ComponentDocs

namespace Text

/-! ## Texts joined by a pipe -/

/-- Between texts that do not end in a backslash no pipe is escaped. -/
theorem hidePipes_join (stand : Char) {texts : List Text}
    (open_ends : ∀ text ∈ texts, text.getLast? ≠ some '\\') :
    hidePipes stand (join ['|'] texts) =
      join ['|'] (texts.map (hidePipes stand)) := by
  induction texts with
  | nil =>
      rfl
  | cons first rest inductionHypothesis =>
      cases rest with
      | nil =>
          rfl
      | cons second others =>
          have firstOpen := open_ends first List.mem_cons_self
          have restHidden := inductionHypothesis fun text member =>
            open_ends text (List.mem_cons_of_mem _ member)
          have pipeKept (text : Text) :
              hidePipes stand ('|' :: text) = '|' :: hidePipes stand text :=
            hidePipes.eq_3 stand '|' text (by simp)
          calc
            hidePipes stand (first ++ ['|'] ++ join ['|'] (second :: others)) =
                hidePipes stand first ++
                  '|' :: hidePipes stand (join ['|'] (second :: others)) := by
              rw [List.append_assoc,
                hidePipes_append stand fun ends => absurd ends firstOpen,
                List.singleton_append, pipeKept]
            _ = join ['|'] ((first :: second :: others).map
                (hidePipes stand)) := by
              rw [restHidden]
              simp

theorem dropOneStart_cons (first : Char) (text : Text) :
    dropOneStart first (first :: text) = text := by
  simp [dropOneStart]

theorem dropOneStart_of_ne {first : Char} {text : Text}
    (different : text.head? ≠ some first) : dropOneStart first text = text := by
  rw [dropOneStart, if_neg different]

theorem dropOneEnd_concat (last : Char) (text : Text) :
    dropOneEnd last (text ++ [last]) = text := by
  simp [dropOneEnd]

theorem dropOneEnd_of_ne {last : Char} {text : Text}
    (different : text.getLast? ≠ some last) : dropOneEnd last text = text := by
  rw [dropOneEnd, if_neg different]

end Text

namespace Page

/-! ## Written rows -/

/-- A cell that can stand between pipes: its own pipes are escaped, and it does
not escape the pipe after it. -/
structure IsWritable (cell : Text) : Prop where
  escaped : Text.PipesEscaped cell
  openEnd : cell.getLast? ≠ some '\\'

/-- How a row is written: its cells with the blanks around them, and whether
the outer pipes are written. Beside a missing pipe the cell is visible. -/
structure WrittenRow where
  padded : List Text
  opened : Bool
  closed : Bool
  nonempty : padded ≠ []
  writable : ∀ cell ∈ padded, IsWritable cell
  starts : opened = false → ∀ first, padded.head? = some first →
    ∃ character, first.head? = some character ∧
      Text.isBlank character = false
  ends : closed = false → ∀ last, padded.getLast? = some last →
    ∃ character, last.getLast? = some character ∧
      Text.isBlank character = false

namespace WrittenRow

variable (row : WrittenRow)

/-- The cells as they are read: without the blanks around them, and with an
escaped pipe for its stand-in. -/
def cells : List Text :=
  row.padded.map fun cell =>
    Text.showPipes pipeStand Text.escapedPipe (Text.trim cell)

/-- The pipe that is written at an end of the line, if any. -/
def outerPipe (written : Bool) : Text :=
  if written then ['|'] else []

@[simp]
theorem outerPipe_true : outerPipe true = ['|'] :=
  rfl

@[simp]
theorem outerPipe_false : outerPipe false = [] :=
  rfl

/-- What the line holds between the outer pipes. -/
def inner : Text :=
  Text.join ['|'] row.padded

def line : Text :=
  outerPipe row.opened ++ row.inner ++ outerPipe row.closed

/-- The inner part with its escaped pipes hidden. -/
def hiddenInner : Text :=
  Text.join ['|'] (row.padded.map (Text.hidePipes pipeStand))

/-- An empty cell where an outer pipe is written. -/
def outerCell (written : Bool) : List Text :=
  if written then [[]] else []

theorem join_outerCell (opened closed : Bool) {texts : List Text}
    (nonempty : texts ≠ []) :
    Text.join ['|'] (outerCell opened ++ texts ++ outerCell closed) =
      outerPipe opened ++ Text.join ['|'] texts ++ outerPipe closed := by
  have closing :
      Text.join ['|'] (texts ++ outerCell closed) =
        Text.join ['|'] texts ++ outerPipe closed := by
    cases closed with
    | false => simp [outerCell, outerPipe]
    | true =>
        rw [outerCell, if_pos rfl,
          Text.join_append ['|'] nonempty (List.cons_ne_nil [] [])]
        simp [outerPipe, Text.join]
  rw [List.append_assoc, List.append_assoc, ← closing]
  cases opened with
  | false => rfl
  | true =>
      rw [outerCell, if_pos rfl,
        Text.join_append ['|'] (List.cons_ne_nil [] [])
          (List.append_ne_nil_of_left_ne_nil nonempty _)]
      rfl

theorem hidden_ne_nil : row.padded.map (Text.hidePipes pipeStand) ≠ [] := by
  simpa using row.nonempty

theorem hidePipes_line :
    Text.hidePipes pipeStand row.line =
      outerPipe row.opened ++ row.hiddenInner ++ outerPipe row.closed := by
  have outerOpen (written : Bool) :
      ∀ text ∈ outerCell written, text.getLast? ≠ some '\\' := by
    cases written <;> simp [outerCell]
  have openEnds :
      ∀ text ∈ outerCell row.opened ++ row.padded ++ outerCell row.closed,
        text.getLast? ≠ some '\\' := by
    intro text member
    rcases List.mem_append.mp member with member | member
    · rcases List.mem_append.mp member with member | member
      · exact outerOpen row.opened text member
      · exact (row.writable text member).openEnd
    · exact outerOpen row.closed text member
  have outerHidden (written : Bool) :
      (outerCell written).map (Text.hidePipes pipeStand) =
        outerCell written := by
    cases written <;> rfl
  -- The outer pipes are separators too, between the row and empty cells.
  calc
    Text.hidePipes pipeStand row.line =
        Text.hidePipes pipeStand (Text.join ['|']
          (outerCell row.opened ++ row.padded ++ outerCell row.closed)) := by
      rw [join_outerCell _ _ row.nonempty]
      rfl
    _ = Text.join ['|'] (outerCell row.opened ++
          row.padded.map (Text.hidePipes pipeStand) ++
            outerCell row.closed) := by
      rw [Text.hidePipes_join pipeStand openEnds, List.map_append,
        List.map_append, outerHidden, outerHidden]
    _ = outerPipe row.opened ++ row.hiddenInner ++ outerPipe row.closed :=
      join_outerCell _ _ row.hidden_ne_nil

theorem not_mem_hidden {cell : Text} (member : cell ∈ row.padded) :
    '|' ∉ Text.hidePipes pipeStand cell :=
  Text.not_mem_hidePipes pipeStand (by decide)
    (row.writable cell member).escaped

/-- Where no pipe opens the line, the inner part starts with a visible
character. -/
theorem head?_hiddenInner (unopened : row.opened = false) :
    ∃ character, row.hiddenInner.head? = some character ∧
      Text.isBlank character = false ∧ character ≠ '|' := by
  obtain ⟨first, rest, shape⟩ := List.exists_cons_of_ne_nil row.nonempty
  obtain ⟨character, starts, visible⟩ :=
    row.starts unopened first (by rw [shape]; rfl)
  have nonempty : Text.hidePipes pipeStand first ≠ [] := by
    apply Text.hidePipes_ne_nil
    rintro rfl
    exact absurd starts (by simp)
  obtain ⟨hidden, others, hiddenShape⟩ :=
    List.exists_cons_of_ne_nil nonempty
  have startsHidden :
      (Text.hidePipes pipeStand first).head? = some hidden := by
    rw [hiddenShape]
    rfl
  refine ⟨hidden, ?_, ?_, ?_⟩
  · rw [hiddenInner, shape, List.map_cons]
    exact Text.head?_join startsHidden
  · refine Text.head?_hidePipes pipeStand (by decide) ?_ startsHidden
    intro head equality
    rw [starts, Option.some.injEq] at equality
    rw [← equality]
    exact visible
  · rintro rfl
    exact row.not_mem_hidden (by simp [shape])
      (List.mem_of_mem_head? startsHidden)

/-- Where no pipe closes the line, the inner part ends with a visible
character. -/
theorem getLast?_hiddenInner (unclosed : row.closed = false) :
    ∃ character, row.hiddenInner.getLast? = some character ∧
      Text.isBlank character = false ∧ character ≠ '|' := by
  obtain ⟨before, last, shape⟩ :=
    (List.eq_nil_or_concat' row.padded).resolve_left row.nonempty
  obtain ⟨character, ends, visible⟩ :=
    row.ends unclosed last (by rw [shape]; simp)
  have nonempty : Text.hidePipes pipeStand last ≠ [] := by
    apply Text.hidePipes_ne_nil
    rintro rfl
    exact absurd ends (by simp)
  obtain ⟨others, hidden, hiddenShape⟩ :=
    (List.eq_nil_or_concat' _).resolve_left nonempty
  have endsHidden :
      (Text.hidePipes pipeStand last).getLast? = some hidden := by
    rw [hiddenShape]
    simp
  refine ⟨hidden, ?_, ?_, ?_⟩
  · rw [hiddenInner, shape, List.map_append, List.map_singleton]
    exact Text.getLast?_join endsHidden
  · refine Text.getLast?_hidePipes pipeStand (by decide) ?_ endsHidden
    intro final equality
    rw [ends, Option.some.injEq] at equality
    rw [← equality]
    exact visible
  · rintro rfl
    exact row.not_mem_hidden (by simp [shape])
      (List.mem_of_getLast? endsHidden)

/-- Neither end of the line is blank. -/
theorem trim_hidePipes_line :
    Text.trim (Text.hidePipes pipeStand row.line) =
      outerPipe row.opened ++ row.hiddenInner ++ outerPipe row.closed := by
  rw [hidePipes_line]
  apply Text.trim_eq_self
  · intro first equality
    cases opening : row.opened with
    | true =>
        rw [opening, outerPipe_true, List.append_assoc,
          List.singleton_append, List.head?_cons, Option.some.injEq]
          at equality
        rw [← equality]
        decide
    | false =>
        obtain ⟨character, starts, visible, -⟩ :=
          row.head?_hiddenInner opening
        rw [opening, outerPipe_false, List.nil_append, List.head?_append,
          starts, Option.some_or, Option.some.injEq] at equality
        rw [← equality]
        exact visible
  · intro last equality
    cases closing : row.closed with
    | true =>
        rw [closing, outerPipe_true, List.getLast?_concat,
          Option.some.injEq] at equality
        rw [← equality]
        decide
    | false =>
        obtain ⟨character, ends, visible, -⟩ :=
          row.getLast?_hiddenInner closing
        rw [closing, outerPipe_false, List.append_nil, List.getLast?_append,
          ends, Option.some_or, Option.some.injEq] at equality
        rw [← equality]
        exact visible

/-- Without the outer pipes the inner part is left. -/
theorem dropOuterPipes :
    Text.dropOneEnd '|' (Text.dropOneStart '|'
        (outerPipe row.opened ++ row.hiddenInner ++ outerPipe row.closed)) =
      row.hiddenInner := by
  have started :
      Text.dropOneStart '|'
          (outerPipe row.opened ++ row.hiddenInner ++ outerPipe row.closed) =
        row.hiddenInner ++ outerPipe row.closed := by
    cases opening : row.opened with
    | true => exact Text.dropOneStart_cons '|' _
    | false =>
        obtain ⟨character, starts, -, different⟩ :=
          row.head?_hiddenInner opening
        apply Text.dropOneStart_of_ne
        rw [outerPipe_false, List.nil_append, List.head?_append, starts,
          Option.some_or]
        simpa using different
  rw [started]
  cases closing : row.closed with
  | true => exact Text.dropOneEnd_concat '|' _
  | false =>
      obtain ⟨character, ends, -, different⟩ :=
        row.getLast?_hiddenInner closing
      rw [outerPipe_false, List.append_nil]
      apply Text.dropOneEnd_of_ne
      rw [ends]
      simpa using different

/-- Splitting the line that writes a row gives its cells. -/
theorem splitCells_line : splitCells row.line = row.cells := by
  have split :
      row.hiddenInner.splitOn '|' =
        row.padded.map (Text.hidePipes pipeStand) := by
    apply Text.splitOn_join row.hidden_ne_nil
    intro hidden member
    obtain ⟨cell, cellMember, rfl⟩ := List.mem_map.mp member
    exact row.not_mem_hidden cellMember
  rw [splitCells, trim_hidePipes_line, dropOuterPipes, split, List.map_map]
  apply List.map_congr_left
  intro cell _
  rw [Function.comp_apply, Text.trim_hidePipes pipeStand (by decide),
    Text.showPipes_hidePipes pipeStand (by decide)]

end WrittenRow

/-! ## Padded rows -/

def pad (cell : Text) : Text :=
  ' ' :: (cell ++ [' '])

/-- The row that writes cells with one space on either side and with both outer
pipes. -/
def WrittenRow.ofCells (cells : List Text) (nonempty : cells ≠ [])
    (escaped : ∀ cell ∈ cells, Text.PipesEscaped cell) : WrittenRow where
  padded := cells.map pad
  opened := true
  closed := true
  nonempty := by
    simpa using nonempty
  writable := by
    intro padded member
    obtain ⟨cell, cellMember, rfl⟩ := List.mem_map.mp member
    constructor
    · have isolated :
          Text.hidePipes '\\' (pad cell) =
            [' '] ++ Text.hidePipes '\\' cell ++ [' '] :=
        Text.hidePipes_append_append '\\' [' ']
          (fun _ => Text.isBlank_of_mem_space) cell
          fun _ => Text.isBlank_of_mem_space
      apply Text.PipesEscaped.of_hidePipes '\\'
      rw [isolated]
      simpa using Text.not_mem_hidePipes '\\' (by decide)
        (escaped cell cellMember)
    · simp [pad, List.getLast?_cons]
  starts := by
    intro unopened
    exact absurd unopened (by decide)
  ends := by
    intro unclosed
    exact absurd unclosed (by decide)

theorem WrittenRow.cells_ofCells {cells : List Text} {nonempty : cells ≠ []}
    {escaped : ∀ cell ∈ cells, Text.PipesEscaped cell}
    (trimmed : ∀ cell ∈ cells, Text.trim cell = cell)
    (fresh : ∀ cell ∈ cells, pipeStand ∉ cell) :
    (WrittenRow.ofCells cells nonempty escaped).cells = cells := by
  have unpadded (cell : Text) (member : cell ∈ cells) :
      Text.showPipes pipeStand Text.escapedPipe (Text.trim (pad cell)) =
        cell := by
    have inner : Text.trim (pad cell) = Text.trim cell :=
      Text.trim_append_append [' '] (fun _ => Text.isBlank_of_mem_space) cell
        fun _ => Text.isBlank_of_mem_space
    rw [inner, trimmed cell member,
      Text.showPipes_eq_self pipeStand (fresh cell member)]
  calc
    (WrittenRow.ofCells cells nonempty escaped).cells =
        cells.map fun cell =>
          Text.showPipes pipeStand Text.escapedPipe (Text.trim (pad cell)) :=
      List.map_map
    _ = cells.map id :=
      List.map_congr_left unpadded
    _ = cells :=
      List.map_id cells

end Page

end ComponentDocs
