import ComponentDocs.Proofs.Markdown.Alike
import ComponentDocs.Proofs.Page.TableText

/-!
Rows of which the cells change places: Markdown cannot tell the line of such a
row from the one before. What it looks for in a line is found cell by cell, as
the blanks and pipes between the cells are no part of it.
-/

namespace ComponentDocs.Page

open ComponentDocs.Markdown

/-- The cell of a row with the blank before it and the pipe behind it. -/
def barred (cell : Text) : Text :=
  ' ' :: (cell ++ [' ', '|'])

namespace CellRow

theorem text_eq_flatMap (row : CellRow) :
    row.text = '|' :: row.cells.flatMap barred := by
  have joined {cells : List Text} (nonempty : cells ≠ []) :
      [' '] ++ Text.join " | ".toList cells ++ [' ', '|'] =
        cells.flatMap barred := by
    induction cells with
    | nil => exact absurd rfl nonempty
    | cons first rest inductionHypothesis =>
        cases rest with
        | nil => simp [Text.join, barred]
        | cons second others =>
            rw [List.flatMap_cons,
              ← inductionHypothesis (List.cons_ne_nil _ _),
              Text.join_cons_cons]
            simp [barred]
  rw [← joined row.nonempty]
  simp [text]

end CellRow

/-! ## Pieces -/

/-- A piece without blanks and pipes stands in one of the cells. -/
theorem isInfix_flatMap_barred {piece : Text} (nonempty : piece ≠ [])
    (unspaced : ' ' ∉ piece) (unpiped : '|' ∉ piece) (cells : List Text) :
    piece <:+: cells.flatMap barred ↔ ∃ cell ∈ cells, piece <:+: cell := by
  induction cells with
  | nil => simp [nonempty]
  | cons first rest inductionHypothesis =>
      have whole :
          (first :: rest).flatMap barred =
            [] ++ ' ' :: (first ++ ' ' :: ([] ++
              '|' :: rest.flatMap barred)) := by
        simp [barred]
      rw [whole, List.exists_mem_cons_iff, ← inductionHypothesis]
      constructor
      · intro occurs
        rcases Text.isInfix_append_cons unspaced occurs with inNothing | occurs
        · exact absurd (List.infix_nil.mp inNothing) nonempty
        rcases Text.isInfix_append_cons unspaced occurs with inCell | occurs
        · exact .inl inCell
        rcases Text.isInfix_append_cons unpiped occurs with inNothing | inRest
        · exact absurd (List.infix_nil.mp inNothing) nonempty
        · exact .inr inRest
      · rintro (inCell | inRest)
        · exact inCell.trans ⟨[' '], ' ' :: '|' :: rest.flatMap barred, by simp⟩
        · exact inRest.trans ⟨' ' :: (first ++ [' ', '|']), [], by simp⟩

theorem CellRow.isInfix_text_iff {piece : Text} (nonempty : piece ≠ [])
    (unspaced : ' ' ∉ piece) (unpiped : '|' ∉ piece) (row : CellRow) :
    piece <:+: row.text ↔ ∃ cell ∈ row.cells, piece <:+: cell := by
  rw [row.text_eq_flatMap, ← isInfix_flatMap_barred nonempty unspaced unpiped]
  constructor
  · exact Text.isInfix_of_isInfix_cons unpiped
  · exact List.infix_cons

/-! ## Pipes -/

theorem pipes_append_space (first rest : Text) :
    Marker.pipes (first ++ ' ' :: rest) =
      Marker.pipes first + Marker.pipes rest := by
  fun_induction Marker.pipes first with
  | case1 => simp [Marker.pipes]
  | case2 next tail punctuation inductionHypothesis =>
      rw [List.cons_append, List.cons_append, Marker.pipes, if_pos punctuation,
        inductionHypothesis]
  | case3 next tail plain inductionHypothesis =>
      rw [List.cons_append, List.cons_append, Marker.pipes, if_neg plain,
        ← List.cons_append, inductionHypothesis]
  | case4 tail inductionHypothesis =>
      rw [List.cons_append, Marker.pipes, inductionHypothesis, Nat.add_assoc]
  | case5 character tail notEscape notPipe inductionHypothesis =>
      by_cases isEscape : character = '\\'
      · -- A backslash at the end does not escape the blank.
        subst isEscape
        cases tail with
        | nil => simp [Marker.pipes, isPunctuation]
        | cons next others => exact absurd rfl (notEscape next others rfl)
      · rw [List.cons_append, Marker.pipes.eq_4 _ _
          (fun _ _ same => absurd same isEscape) notPipe,
          inductionHypothesis]

/-- How many cells Markdown finds in a header row of these cells: one more for
each pipe that is not escaped. -/
def cellCount : List Text → Nat
  | [] => 0
  | first :: rest => Marker.pipes first + 1 + cellCount rest

theorem cellCount_of_perm {cells others : List Text}
    (perm : cells.Perm others) : cellCount cells = cellCount others := by
  induction perm with
  | nil => rfl
  | cons first _ inductionHypothesis =>
      rw [cellCount, cellCount, inductionHypothesis]
  | swap first second rest =>
      simp only [cellCount]
      omega
  | trans _ _ sameFirst sameSecond => exact sameFirst.trans sameSecond

theorem pipes_flatMap_barred (cells : List Text) :
    Marker.pipes (cells.flatMap barred) = cellCount cells := by
  induction cells with
  | nil => rfl
  | cons first rest inductionHypothesis =>
      have whole :
          (first :: rest).flatMap barred =
            [] ++ ' ' :: (first ++ ' ' :: '|' :: rest.flatMap barred) := by
        simp [barred]
      have bar (others : Text) :
          Marker.pipes ('|' :: others) = 1 + Marker.pipes others := by
        rw [Marker.pipes]
      rw [whole, pipes_append_space, pipes_append_space, bar,
        inductionHypothesis, cellCount, Marker.pipes]
      omega

theorem endsWithPipe_append (first : Text) :
    Marker.endsWithPipe (first ++ [' ', '|']) = true := by
  fun_induction Marker.endsWithPipe first with
  | case1 => rfl
  | case2 next tail punctuation inductionHypothesis =>
      rw [List.cons_append, List.cons_append, Marker.endsWithPipe,
        if_pos punctuation, inductionHypothesis]
  | case3 next tail plain inductionHypothesis =>
      rw [List.cons_append, List.cons_append, Marker.endsWithPipe,
        if_neg plain, ← List.cons_append, inductionHypothesis]
  | case4 => rfl
  | case5 character tail notEscape notPipe inductionHypothesis =>
      by_cases isEscape : character = '\\'
      · subst isEscape
        cases tail with
        | nil => rfl
        | cons next others => exact absurd rfl (notEscape next others rfl)
      · rw [List.cons_append, Marker.endsWithPipe.eq_4 _ _
          (fun _ _ same => absurd same isEscape)
          (fun _ last => by simp at last),
          inductionHypothesis]

namespace CellRow

theorem exists_flatMap_barred (row : CellRow) :
    ∃ front, row.cells.flatMap barred = front ++ [' ', '|'] := by
  obtain ⟨before, last, shape⟩ :=
    List.eq_nil_or_concat row.cells |>.resolve_left row.nonempty
  refine ⟨before.flatMap barred ++ ' ' :: last, ?_⟩
  rw [shape]
  simp [barred]

theorem dropEndWhile_isIndent_text (row : CellRow) :
    Text.dropEndWhile isIndent row.text = row.text := by
  apply Text.dropEndWhile_eq_self
  intro last isLast
  rw [getLast?_text, Option.some.injEq] at isLast
  rw [← isLast]
  rfl

theorem headerCells?_text (row : CellRow) :
    Marker.headerCells? row.text = some (cellCount row.cells) := by
  obtain ⟨front, ends⟩ := row.exists_flatMap_barred
  have counted := pipes_flatMap_barred row.cells
  have some_cells : cellCount row.cells ≠ 0 := by
    obtain ⟨first, rest, shape⟩ := List.exists_cons_of_ne_nil row.nonempty
    rw [shape, cellCount]
    omega
  have inner :
      (if row.text.head? = some '|' then row.text.tail else row.text) =
        row.cells.flatMap barred := by
    rw [if_pos row.head?_text, row.text_eq_flatMap, List.tail_cons]
  have closed : Marker.endsWithPipe (row.cells.flatMap barred) = true := by
    rw [ends]
    exact endsWithPipe_append front
  have noOther : row.text.head?.any Marker.startsOther = false := by
    rw [row.head?_text]
    decide
  simp only [Marker.headerCells?, row.dropEndWhile_isIndent_text, inner,
    counted, closed, noOther, Bool.or_false, decide_eq_true_eq, if_true,
    if_neg some_cells]

end CellRow

/-! ## Delimiters -/

theorem CellRow.splitOn_inner (row : CellRow) :
    (Text.dropOneEnd '|' (Text.dropOneStart '|' row.text)).splitOn '|' =
      (row.cells.map pad).flatMap (List.splitOn '|') := by
  have nonempty : row.cells.map pad ≠ [] := by
    simpa using row.nonempty
  have whole :
      row.text = '|' :: (Text.join ['|'] (row.cells.map pad) ++ ['|']) := by
    rw [join_map_pad row.nonempty]
    simp [text]
  have started :
      Text.dropOneStart '|' row.text =
        Text.join ['|'] (row.cells.map pad) ++ ['|'] := by
    rw [Text.dropOneStart, if_pos row.head?_text, whole, List.tail_cons]
  rw [started, Text.dropOneEnd, if_pos List.getLast?_concat,
    List.dropLast_concat, Text.splitOn_join_eq_flatMap '|' nonempty]

/-! ## Ends of other blocks -/

/-- The line of a row closes no code. -/
theorem CellRow.closesFence_text (row : CellRow) (mark : Char)
    (length : Nat) : Marker.closesFence mark length row.text = false := by
  obtain ⟨front, ends⟩ := row.exists_flatMap_barred
  have notSpaced : Marker.isSpaced (row.text.drop (Marker.run mark row.text)) =
      false := by
    rw [Marker.isSpaced, List.all_eq_false]
    refine ⟨'|', ?_, by decide⟩
    rw [row.text_eq_flatMap, Marker.run]
    by_cases isPipe : '|' = mark
    · subst isPipe
      obtain ⟨first, rest, shape⟩ := List.exists_cons_of_ne_nil row.nonempty
      rw [shape, List.flatMap_cons]
      simp [barred]
    · rw [List.takeWhile_cons_of_neg (by simpa using isPipe)]
      exact List.mem_cons_self
  rw [Marker.closesFence, notSpaced, Bool.and_false]

section Stop

variable {test : Char → Bool} {stop : Char} (stops : test stop = false)

include stops

theorem takeWhile_append_stopping (first rest : Text) :
    (first ++ stop :: rest).takeWhile test = first.takeWhile test := by
  induction first with
  | nil => simp [stops]
  | cons character others inductionHypothesis =>
      rw [List.cons_append, List.takeWhile_cons, List.takeWhile_cons,
        inductionHypothesis]

theorem dropWhile_append_stopping (first rest : Text) :
    (first ++ stop :: rest).dropWhile test =
      first.dropWhile test ++ stop :: rest := by
  induction first with
  | nil => simp [stops]
  | cons character others inductionHypothesis =>
      rw [List.cons_append, List.dropWhile_cons, List.dropWhile_cons,
        inductionHypothesis]
      split <;> rfl

end Stop

theorem endsName_append_space (text rest other : Text) :
    HtmlBlock.endsName (text ++ ' ' :: rest) =
      HtmlBlock.endsName (text ++ ' ' :: other) := by
  cases text <;> rfl

/-- The name of a tag ends at a blank. -/
theorem any_tagName?_append_space (first rest other : Text) :
    ((HtmlBlock.tagName? (first ++ ' ' :: rest)).any fun (name, after) =>
        HtmlBlock.rawTextTags.contains name && HtmlBlock.endsName after) =
      (HtmlBlock.tagName? (first ++ ' ' :: other)).any fun (name, after) =>
        HtmlBlock.rawTextTags.contains name && HtmlBlock.endsName after := by
  cases first with
  | nil => rfl
  | cons letter tail =>
      have stops : HtmlBlock.isTagNameRest ' ' = false := rfl
      simp only [List.cons_append, HtmlBlock.tagName?]
      split
      · simp only [Option.any_some, takeWhile_append_stopping stops,
          dropWhile_append_stopping stops,
          endsName_append_space _ rest other]
      · rfl

theorem closesRawText_append_space (first rest : Text) :
    HtmlBlock.closesRawText (first ++ ' ' :: rest) =
      (HtmlBlock.closesRawText (first ++ [' ']) ||
        HtmlBlock.closesRawText rest) := by
  fun_induction HtmlBlock.closesRawText first with
  | case1 => rfl
  | case2 tail inductionHypothesis =>
      simp only [List.cons_append, HtmlBlock.closesRawText,
        inductionHypothesis, any_tagName?_append_space tail rest [],
        Bool.or_assoc]
  | case3 character tail notTag inductionHypothesis =>
      have step (more : Text) :
          HtmlBlock.closesRawText (character :: (tail ++ ' ' :: more)) =
            HtmlBlock.closesRawText (tail ++ ' ' :: more) := by
        refine HtmlBlock.closesRawText.eq_3 _ _ ?_
        intro others isLess shape
        cases tail with
        | nil => cases shape
        | cons next further =>
            rw [List.cons_append] at shape
            obtain ⟨isSlash, -⟩ := List.cons.inj shape
            exact notTag further isLess (by rw [isSlash])
      rw [List.cons_append, List.cons_append, step, step, inductionHypothesis]

theorem closesRawText_flatMap_barred (cells : List Text) :
    HtmlBlock.closesRawText (cells.flatMap barred) =
      cells.any fun cell => HtmlBlock.closesRawText (cell ++ [' ']) := by
  have passes {character : Char} (notTag : character ≠ '<') (rest : Text) :
      HtmlBlock.closesRawText (character :: rest) =
        HtmlBlock.closesRawText rest :=
    HtmlBlock.closesRawText.eq_3 _ _ fun _ isTag => absurd isTag notTag
  induction cells with
  | nil => rfl
  | cons first rest inductionHypothesis =>
      have whole :
          (first :: rest).flatMap barred =
            ' ' :: (first ++ ' ' :: '|' :: rest.flatMap barred) := by
        simp [barred]
      rw [whole, passes (by decide), closesRawText_append_space,
        passes (by decide), inductionHypothesis, List.any_cons]

/-! ## Rows with their cells in another order -/

namespace CellRow

variable {row other : CellRow}

theorem isPlain_text (row : CellRow)
    (unreturned : ∀ cell ∈ row.cells, '\r' ∉ cell) :
    Markdown.IsPlain row.text where
  noFeed := row.not_mem_text
  noReturn := by
    rw [row.text_eq_flatMap]
    simpa [barred] using unreturned

/-- A piece without blanks and pipes is in the row with the cells in any
order. -/
theorem hasPiece_text_of_perm (perm : row.cells.Perm other.cells)
    {piece : Text} (nonempty : piece ≠ []) (unspaced : ' ' ∉ piece)
    (unpiped : '|' ∉ piece) :
    Text.hasPiece piece row.text = Text.hasPiece piece other.text := by
  rw [Bool.eq_iff_iff, Text.hasPiece_iff_isInfix, Text.hasPiece_iff_isInfix,
    isInfix_text_iff nonempty unspaced unpiped,
    isInfix_text_iff nonempty unspaced unpiped]
  simp only [perm.mem_iff]

theorem closesRawText_text_of_perm (perm : row.cells.Perm other.cells) :
    HtmlBlock.closesRawText row.text = HtmlBlock.closesRawText other.text := by
  have ofCells (row : CellRow) :
      HtmlBlock.closesRawText row.text =
        row.cells.any fun cell => HtmlBlock.closesRawText (cell ++ [' ']) := by
    rw [row.text_eq_flatMap, ← closesRawText_flatMap_barred,
      HtmlBlock.closesRawText.eq_3 _ _ fun _ isTag => absurd isTag (by decide)]
  rw [ofCells, ofCells, Bool.eq_iff_iff, List.any_eq_true, List.any_eq_true]
  simp only [perm.mem_iff]

theorem isClosedBy_text_of_perm (perm : row.cells.Perm other.cells)
    (block : HtmlBlock) :
    block.isClosedBy row.text = block.isClosedBy other.text := by
  cases block with
  | rawText => exact closesRawText_text_of_perm perm
  | comment =>
      exact hasPiece_text_of_perm perm (by decide) (by decide) (by decide)
  | instruction =>
      exact hasPiece_text_of_perm perm (by decide) (by decide) (by decide)
  | declaration =>
      exact hasPiece_text_of_perm perm (by decide) (by decide) (by decide)
  | characterData =>
      exact hasPiece_text_of_perm perm (by decide) (by decide) (by decide)
  | blockTag => rfl
  | anyTag => rfl

theorem isDelimiterRow_text_of_perm (perm : row.cells.Perm other.cells)
    (columns : Nat) :
    Marker.isDelimiterRow columns row.text =
      Marker.isDelimiterRow columns other.text := by
  have sameParts :
      ((row.cells.map pad).flatMap (List.splitOn '|')).Perm
        ((other.cells.map pad).flatMap (List.splitOn '|')) :=
    (perm.map pad).flatMap_right _
  simp only [Marker.isDelimiterRow, dropEndWhile_isIndent_text,
    splitOn_inner, sameParts.length_eq]
  congr 1
  rw [Bool.eq_iff_iff, List.all_eq_true, List.all_eq_true]
  simp only [sameParts.mem_iff]

theorem length_text_of_perm (perm : row.cells.Perm other.cells) :
    row.text.length = other.text.length := by
  rw [row.text_eq_flatMap, other.text_eq_flatMap, List.length_cons,
    List.length_cons, (perm.flatMap_right barred).length_eq]

/-- Rows with the same cells in another order are alike. -/
theorem rowAlike_of_perm (perm : row.cells.Perm other.cells)
    (unreturned : ∀ cell ∈ row.cells, '\r' ∉ cell) :
    RowAlike row.text other.text where
  plain := row.isPlain_text unreturned
  otherPlain := other.isPlain_text fun cell member =>
    unreturned cell (perm.mem_iff.mpr member)
  pipe := row.head?_text
  otherPipe := other.head?_text
  length_eq := length_text_of_perm perm
  headerCells?_eq := by
    rw [headerCells?_text, headerCells?_text, cellCount_of_perm perm]
  isDelimiterRow_eq := isDelimiterRow_text_of_perm perm
  isClosedBy_eq := isClosedBy_text_of_perm perm
  closesFence_eq mark length := by
    rw [closesFence_text, closesFence_text]

end CellRow

end ComponentDocs.Page
