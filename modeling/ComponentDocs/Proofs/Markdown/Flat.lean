import ComponentDocs.Proofs.Markdown.Place
import ComponentDocs.Proofs.Markdown.Site
import ComponentDocs.Proofs.Text.Trim

/-!
Texts of which the headings can be told line by line: hash headings, and
between them empty lines and lines that start with a pipe.
-/

namespace ComponentDocs.Markdown

/-- No container is open, and no leaf block that a line continues as it is. -/
structure OpenBlocks.IsFlat (blocks : OpenBlocks) : Prop where
  containers_eq : blocks.containers = []
  continue?_eq : ∀ cursor, blocks.leaf.continue? cursor = none

/-- A line that may stand between the headings: empty or one with a pipe at its
start. -/
def IsFlatLine (content : Text) : Prop :=
  content = [] ∨ content.head? = some '|'

/-- The line that marks a heading by hashes. -/
def hashLine (level : Nat) (name : Text) : Text :=
  List.replicate level '#' ++ ' ' :: name

/-! ## Lines with a pipe -/

section Pipe

variable (line : Line) (rest : Text)

/-- A line that starts with a pipe opens a table or is text. -/
theorem openBlocks_of_pipe (fuel : Nat) (above : Above) :
    openBlocks line (fuel + 1) above ⟨0, '|' :: rest⟩ =
      ([], if above.lines?.any (delimitsTable · ('|' :: rest)) then
          .leaf .table
        else .text ⟨0, '|' :: rest⟩) := by
  have visible : Cursor.visible ⟨0, '|' :: rest⟩ = '|' :: rest := rfl
  have indent : Cursor.indent ⟨0, '|' :: rest⟩ = 0 := rfl
  have notBlank : Cursor.isBlank ⟨0, '|' :: rest⟩ = false := rfl
  have noQuote : Container.startsQuote ⟨0, '|' :: rest⟩ = false := rfl
  have noHashes : hashHeading? line ⟨0, '|' :: rest⟩ = none := rfl
  have noLeaf : openLeaf? above ⟨0, '|' :: rest⟩ = none := by
    cases above <;> rfl
  have noUnderline : underlineOf? line above ('|' :: rest) = none := by
    cases above <;> rfl
  have noRule : Marker.isRule ('|' :: rest) = false := rfl
  have noMarker :
      Marker.listMarker? above.isInner ('|' :: rest) = none := rfl
  rw [openBlocks]
  dsimp only
  rw [notBlank, indent, noQuote, noHashes, noLeaf, visible, noUnderline,
    noRule, noMarker, if_neg Bool.false_ne_true, if_neg (by decide),
    if_neg Bool.false_ne_true]
  dsimp only
  rw [if_neg Bool.false_ne_true]
  split <;> rfl

end Pipe

/-! ## Lines with hashes -/

/-- A text that a hash heading can have as its name: on one line, and with
nothing at its ends that is no part of a name. -/
structure IsHeadingName (name : Text) : Prop where
  plain : IsPlain name
  nonempty : name ≠ []
  trimmed : Text.trim name = name
  kept : headingName name = name

theorem isBlank_of_isIndent {character : Char}
    (indents : isIndent character = true) :
    Text.isBlank character = true := by
  rw [isIndent, Bool.or_eq_true, beq_iff_eq, beq_iff_eq] at indents
  rcases indents with rfl | rfl <;> rfl

theorem dropWhile_isIndent_of_trimmed {content : Text} (nonempty : content ≠ [])
    (trimmed : Text.trim content = content) :
    (' ' :: content).dropWhile isIndent = content := by
  obtain ⟨first, rest, rfl⟩ := List.exists_cons_of_ne_nil nonempty
  have visible : Text.isBlank first = false :=
    Text.head?_trim (by rw [trimmed, List.head?_cons])
  have stops : ¬ isIndent first = true := by
    intro indents
    rw [isBlank_of_isIndent indents] at visible
    cases visible
  have space : isIndent ' ' = true := rfl
  rw [List.dropWhile_cons, if_pos space, List.dropWhile_cons, if_neg stops]

theorem hashes?_hashLine {level : Nat} (positive : 1 ≤ level)
    (small : level ≤ 6) (name : Text) :
    Marker.hashes? (hashLine level name) = some (level, ' ' :: name) := by
  have run_eq : Marker.run '#' (hashLine level name) = level := by
    rw [Marker.run, hashLine, List.takeWhile_append_of_pos (by simp)]
    simp
  have rest_eq : (hashLine level name).drop level = ' ' :: name := by
    rw [hashLine]
    exact List.drop_left' List.length_replicate
  have proper : (level = 0 || 6 < level) = false := by
    simp
    omega
  dsimp only [Marker.hashes?]
  rw [run_eq, rest_eq, proper, if_neg Bool.false_ne_true]
  rfl

/-- The place of a heading whose line is marked by hashes. -/
def hashSpan (level : Nat) (name : Text) (line : Line) : HeadingSpan :=
  ⟨level, line.start, line.contentEnd - name.length, line.contentEnd,
    line.finish⟩

theorem openBlocks_of_hashLine {line : Line} {level : Nat} {name : Text}
    (positive : 1 ≤ level) (small : level ≤ 6) (nonempty : name ≠ [])
    (trimmed : Text.trim name = name)
    (content : line.content = hashLine level name) (fuel : Nat)
    (above : Above) :
    openBlocks line (fuel + 1) above (Cursor.ofLine line) =
      ([], .heading (hashSpan level name line)) := by
  obtain ⟨rest, shape⟩ : ∃ rest, hashLine level name = '#' :: rest := by
    obtain ⟨fewer, rfl⟩ := Nat.exists_eq_add_of_le' positive
    exact ⟨_, rfl⟩
  have starts : Cursor.ofLine line = ⟨0, '#' :: rest⟩ := by
    rw [Cursor.ofLine, content, shape]
  have visible : Cursor.visible ⟨0, '#' :: rest⟩ = '#' :: rest := rfl
  have indent : Cursor.indent ⟨0, '#' :: rest⟩ = 0 := rfl
  have notBlank : Cursor.isBlank ⟨0, '#' :: rest⟩ = false := rfl
  have noQuote : Container.startsQuote ⟨0, '#' :: rest⟩ = false := rfl
  have offset : visibleOffset line ⟨0, '#' :: rest⟩ = line.start := by
    rw [visibleOffset, visible, Line.contentEnd, content, shape,
      Nat.add_sub_cancel]
  have notEmpty : name.isEmpty = false := by
    simpa using nonempty
  have marked :
      hashHeading? line ⟨0, '#' :: rest⟩ =
        some (hashSpan level name line) := by
    rw [hashHeading?, offset, visible, ← shape,
      hashes?_hashLine positive small]
    dsimp only
    rw [dropWhile_isIndent_of_trimmed nonempty trimmed, notEmpty,
      Bool.false_and, if_neg Bool.false_ne_true]
    rfl
  rw [starts, openBlocks]
  dsimp only
  rw [notBlank, indent, noQuote, marked, if_neg Bool.false_ne_true,
    if_neg (by decide), if_neg Bool.false_ne_true]

/-! ## Flat lines -/

namespace OpenBlocks

variable {blocks : OpenBlocks} {line : Line}

theorem isFlat_initial : initial.IsFlat :=
  ⟨rfl, fun _ => rfl⟩

theorem isFlat_paragraph (lines : List ParagraphLine) :
    IsFlat ⟨[], .paragraph lines⟩ :=
  ⟨rfl, fun _ => rfl⟩

theorem isFlat_table : IsFlat ⟨[], .table⟩ :=
  ⟨rfl, fun _ => rfl⟩

theorem IsFlat.addText (flat : blocks.IsFlat) (above : Above)
    (added : ParagraphLine) (cursor : Cursor) :
    (blocks.addText [] above added cursor).IsFlat := by
  unfold OpenBlocks.addText
  split
  · exact isFlat_paragraph _
  · rw [flat.containers_eq]
    exact isFlat_paragraph _
  · exact isFlat_table
  · exact isFlat_paragraph _

/-- In no block a line opens what it holds. -/
theorem IsFlat.next_eq (flat : blocks.IsFlat) (line : Line) :
    blocks.next line = blocks.openNew line [] true (Cursor.ofLine line) := by
  rw [next, flat.containers_eq, Container.continueAll]
  dsimp only
  rw [if_pos rfl, flat.continue?_eq]

theorem IsFlat.next_of_empty (flat : blocks.IsFlat)
    (empty : line.content = []) : blocks.next line = (initial, none) := by
  have isEmpty : Cursor.ofLine line = ⟨0, []⟩ := by
    rw [Cursor.ofLine, empty]
  rw [flat.next_eq, openNew, openBlocks, isEmpty]
  rfl

theorem IsFlat.next_of_pipe (flat : blocks.IsFlat) {rest : Text}
    (pipe : line.content = '|' :: rest) :
    (blocks.next line).1.IsFlat ∧ (blocks.next line).2 = none := by
  have starts : Cursor.ofLine line = ⟨0, '|' :: rest⟩ := by
    rw [Cursor.ofLine, pipe]
  have notBlank : Cursor.isBlank ⟨0, '|' :: rest⟩ = false := rfl
  rw [flat.next_eq, openNew, starts, openBlocks_of_pipe]
  dsimp only
  generalize Option.any _ _ = delimits
  cases delimits with
  | true => exact ⟨isFlat_table, rfl⟩
  | false => exact ⟨flat.addText _ _ _, rfl⟩

/-- A flat line marks no heading and leaves the blocks flat. -/
theorem IsFlat.next_of_flat (flat : blocks.IsFlat)
    (flatLine : IsFlatLine line.content) :
    (blocks.next line).1.IsFlat ∧ (blocks.next line).2 = none := by
  rcases flatLine with empty | pipe
  · rw [flat.next_of_empty empty]
    exact ⟨isFlat_initial, rfl⟩
  · obtain ⟨rest, shape⟩ := List.head?_eq_some_iff.mp pipe
    exact flat.next_of_pipe shape

/-- In no block a line of hashes and a name is a heading. -/
theorem IsFlat.next_of_hashLine (flat : blocks.IsFlat) {level : Nat}
    {name : Text} (positive : 1 ≤ level) (small : level ≤ 6)
    (nonempty : name ≠ []) (trimmed : Text.trim name = name)
    (content : line.content = hashLine level name) :
    blocks.next line = (initial, some (hashSpan level name line)) := by
  rw [flat.next_eq, openNew,
    openBlocks_of_hashLine positive small nonempty trimmed content]
  rfl

theorem IsFlat.after {lines : List Line} (flat : blocks.IsFlat)
    (flatLines : ∀ line ∈ lines, IsFlatLine line.content) :
    (blocks.after lines).IsFlat := by
  induction lines generalizing blocks with
  | nil =>
      exact flat
  | cons line rest inductionHypothesis =>
      exact inductionHypothesis
        (flat.next_of_flat (flatLines line List.mem_cons_self)).1
        fun later member => flatLines later (List.mem_cons_of_mem _ member)

/-- No heading stands on flat lines. -/
theorem IsFlat.sites_eq_nil {lines : List Line} (flat : blocks.IsFlat)
    (flatLines : ∀ line ∈ lines, IsFlatLine line.content)
    (beyond : Option Line) : sites blocks beyond lines = [] := by
  induction lines generalizing blocks with
  | nil =>
      rfl
  | cons line rest inductionHypothesis =>
      obtain ⟨stays, nothing⟩ :=
        flat.next_of_flat (flatLines line List.mem_cons_self)
      rw [sites, siteOn?, nothing, inductionHypothesis stays fun later member =>
        flatLines later (List.mem_cons_of_mem _ member)]
      rfl

end OpenBlocks

end ComponentDocs.Markdown
