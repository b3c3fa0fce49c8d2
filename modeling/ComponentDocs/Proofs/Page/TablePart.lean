import ComponentDocs.Proofs.Page.Part
import ComponentDocs.Proofs.Page.Table

/-!
Tables below headings: a table with both outer pipes on every line may be
written as a part of a page, and its section is read as this table.
-/

namespace ComponentDocs.Page

open ComponentDocs.Markdown

/-! ## Lines between pipes -/

/-- A single line that starts and ends with a pipe. -/
structure IsPiped (line : Text) : Prop where
  plain : IsPlain line
  starts : line.head? = some '|'
  ends : line.getLast? = some '|'

namespace IsPiped

variable {line : Text} (piped : IsPiped line)

include piped

theorem ne_nil : line ≠ [] := by
  rintro rfl
  cases piped.starts

theorem trim_eq : Text.trim line = line := by
  apply Text.trim_eq_self
  · intro first isFirst
    rw [piped.starts, Option.some.injEq] at isFirst
    rw [← isFirst]
    rfl
  · intro last isLast
    rw [piped.ends, Option.some.injEq] at isLast
    rw [← isLast]
    rfl

end IsPiped

theorem isPlain_pad {cell : Text} (plain : IsPlain cell) :
    IsPlain (pad cell) := by
  constructor
  · simpa [pad] using plain.noFeed
  · simpa [pad] using plain.noReturn

/-- A row of cells on a single line each is written on a single line. -/
theorem isPiped_ofCells {cells : List Text} {nonempty : cells ≠ []}
    {escaped : ∀ cell ∈ cells, Text.PipesEscaped cell}
    (plain : ∀ cell ∈ cells, IsPlain cell) :
    IsPiped (WrittenRow.ofCells cells nonempty escaped).line := by
  have line_eq :
      (WrittenRow.ofCells cells nonempty escaped).line =
        ['|'] ++ Text.join ['|'] (cells.map pad) ++ ['|'] :=
    rfl
  have inside {character : Char}
      (member : character ∈ ['|'] ++ Text.join ['|'] (cells.map pad) ++ ['|']) :
      character = '|' ∨ ∃ cell ∈ cells, character ∈ pad cell := by
    rw [List.mem_append, List.mem_append] at member
    rcases member with (opening | inJoin) | closing
    · exact .inl (List.mem_singleton.mp opening)
    · rcases Text.mem_join inJoin with isPipe | ⟨padded, isPadded, inCell⟩
      · exact .inl (List.mem_singleton.mp isPipe)
      · obtain ⟨cell, cellMember, rfl⟩ := List.mem_map.mp isPadded
        exact .inr ⟨cell, cellMember, inCell⟩
    · exact .inl (List.mem_singleton.mp closing)
  rw [line_eq]
  refine ⟨⟨?_, ?_⟩, rfl, List.getLast?_concat⟩
  · intro member
    rcases inside member with isPipe | ⟨cell, cellMember, inCell⟩
    · exact absurd isPipe (by decide)
    · exact (isPlain_pad (plain cell cellMember)).noFeed inCell
  · intro member
    rcases inside member with isPipe | ⟨cell, cellMember, inCell⟩
    · exact absurd isPipe (by decide)
    · exact (isPlain_pad (plain cell cellMember)).noReturn inCell

/-! ## Parts -/

namespace WrittenTable

variable (table : WrittenTable)

/-- The lines below the heading of a table: an empty one, those of the table,
and `feeds` line feeds. -/
def pieces (feeds : Nat) : List Text :=
  ([] :: table.lines) ++ List.replicate feeds []

theorem join_pieces (feeds : Nat) :
    Text.join ['\n'] (table.pieces feeds) =
      Text.join ['\n'] ([] :: table.lines) ++ List.replicate feeds '\n' :=
  Text.join_append_replicate '\n' (List.cons_ne_nil _ _) feeds

theorem startsLine_join_pieces (feeds : Nat) :
    StartsLine (Text.join ['\n'] (table.pieces (feeds + 1))) := by
  right
  rw [join_pieces, List.replicate_succ', ← List.append_assoc,
    List.getLast?_concat]

section Piped

variable {table} (piped : ∀ line ∈ table.lines, IsPiped line) (feeds : Nat)

include piped

theorem mem_pieces {piece : Text} (member : piece ∈ table.pieces feeds) :
    piece = [] ∨ IsPiped piece := by
  rw [pieces, List.mem_append, List.mem_cons] at member
  rcases member with (empty | isLine) | added
  · exact .inl empty
  · exact .inr (piped piece isLine)
  · exact .inl (List.eq_of_mem_replicate added)

theorem isPlain_of_mem_pieces {piece : Text}
    (member : piece ∈ table.pieces feeds) : IsPlain piece := by
  rcases mem_pieces piped feeds member with rfl | isPiped
  · exact isPlain_nil
  · exact isPiped.plain

theorem isFlatLine_of_mem_pieces {piece : Text}
    (member : piece ∈ table.pieces feeds) : IsFlatLine piece :=
  (mem_pieces piped feeds member).imp_right IsPiped.starts

/-- The line feeds below a table do not belong to its section. -/
theorem trimLineEnds_join_pieces :
    trimLineEnds (Text.join ['\n'] (table.pieces feeds)) =
      Text.join ['\n'] ([] :: table.lines) := by
  have areEnds : AreEnds (List.replicate feeds '\n') := fun character member =>
    .inl (List.eq_of_mem_replicate member)
  obtain ⟨before, last, shape⟩ :=
    (List.eq_nil_or_concat' table.lines).resolve_left (List.cons_ne_nil _ _)
  have isPiped := piped last (by simp [shape])
  have closes :
      (Text.join ['\n'] ([] :: table.lines)).getLast? = some '|' := by
    rw [shape, ← List.cons_append]
    exact Text.getLast?_join isPiped.ends
  rw [join_pieces, trimLineEnds_append _ areEnds]
  apply Text.dropEndWhile_eq_self
  intro character isLast
  rw [closes, Option.some.injEq] at isLast
  rw [← isLast]
  rfl

theorem visibleLines_join_pieces :
    visibleLines (trimLineEnds (Text.join ['\n'] (table.pieces feeds))) =
      table.lines := by
  have inPieces {piece : Text} (member : piece ∈ [] :: table.lines) :
      piece ∈ table.pieces feeds :=
    List.mem_append_left _ member
  have single : ∀ piece ∈ [] :: table.lines, '\n' ∉ piece :=
    fun piece member =>
      (isPlain_of_mem_pieces piped feeds (inPieces member)).noFeed
  have trimmed : ∀ piece ∈ [] :: table.lines, Text.trim piece = piece := by
    intro piece member
    rcases mem_pieces piped feeds (inPieces member) with rfl | isPiped
    · rfl
    · exact isPiped.trim_eq
  have kept : table.lines.filter (!·.isEmpty) = table.lines := by
    apply List.filter_eq_self.mpr
    intro line member
    simpa using (piped line member).ne_nil
  rw [trimLineEnds_join_pieces piped,
    visibleLines_join (List.cons_ne_nil _ _) single trimmed]
  exact kept

end Piped

end WrittenTable

end ComponentDocs.Page
