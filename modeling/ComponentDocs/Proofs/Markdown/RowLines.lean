import ComponentDocs.Proofs.Markdown.Break
import ComponentDocs.Proofs.Markdown.Part
import ComponentDocs.Proofs.Markdown.RowStep

/-!
The lines of a text with rows in it: alike rows are cut into alike lines, between
the same lines above and below them, and count or do not count together.
-/

namespace ComponentDocs.Markdown

/-! ## Lines with an end -/

theorem areEnded_cut (start : Nat) (held text : Text) :
    AreEnded (Line.cut start held text) := by
  have cons {line : Line} {rest : List Line} (ended : line.isEnded = true)
      (below : AreEnded rest) : AreEnded (line :: rest) := by
    cases rest with
    | nil => simp [AreEnded]
    | cons second more =>
        rw [AreEnded, List.dropLast_cons_cons, List.forall_mem_cons]
        exact ⟨ended, below⟩
  fun_induction Line.cut start held text with
  | case1 start held empty => simp [AreEnded]
  | case2 start held nonempty => simp [AreEnded]
  | case3 start held rest inductionHypothesis =>
      exact cons rfl inductionHypothesis
  | case4 start held rest inductionHypothesis =>
      exact cons rfl inductionHypothesis
  | case5 start held rest notFed inductionHypothesis =>
      exact cons rfl inductionHypothesis
  | case6 start held first rest notFeed notFed notReturn
      inductionHypothesis =>
      exact inductionHypothesis

/-- A text after which a line ends: it is empty or starts with a line end. -/
def EndsLine (after : Text) : Prop :=
  after = [] ∨ ∃ ending rest, IsEnding ending ∧ after = ending ++ rest

theorem cut_line_ending (start : Nat) {content ending : Text}
    (plain : IsPlain content) (isEnding : IsEnding ending) (rest : Text) :
    Line.cut start [] (content ++ (ending ++ rest)) =
      ⟨start, content, ending⟩ ::
        Line.cut (start + content.length + ending.length) [] rest := by
  rcases isEnding with rfl | rfl
  · exact cut_line start plain rest
  · rw [cut_append_of_isPlain start [] plain, List.append_nil,
      List.cons_append, List.cons_append, List.nil_append, Line.cut,
      List.reverse_reverse, List.length_reverse]
    rfl

/-- A last line is cut off with what ends it. -/
theorem exists_cut_last {after : Text} (ends : EndsLine after) :
    ∃ ending rest, ∀ (start : Nat) (content : Text), IsPlain content →
      content ≠ [] →
        Line.cut start [] (content ++ after) =
          ⟨start, content, ending⟩ ::
            Line.cut (start + content.length + ending.length) [] rest := by
  rcases ends with rfl | ⟨ending, rest, isEnding, rfl⟩
  · refine ⟨[], [], fun start content plain nonempty => ?_⟩
    rw [cut_append_of_isPlain start [] plain, List.append_nil, Line.cut,
      if_neg (by simpa using nonempty), List.reverse_reverse]
    rfl
  · exact ⟨ending, rest, fun start content plain _ =>
      cut_line_ending start plain isEnding rest⟩

/-- Alike rows are cut into alike lines, and what stands below them is cut the
same. -/
theorem exists_cut_rows {rows others : List Text} {ending below : Text}
    (alike : List.Forall₂ RowAlike rows others) (nonempty : rows ≠ [])
    (isEnding : IsEnding ending) (ends : EndsLine below) (start : Nat) :
    ∃ lines otherLines stop rest,
      Line.cut start [] (Text.join ending rows ++ below) =
          lines ++ Line.cut stop [] rest ∧
        Line.cut start [] (Text.join ending others ++ below) =
          otherLines ++ Line.cut stop [] rest ∧
        List.Forall₂ Line.Alike lines otherLines ∧
        lines.length = rows.length := by
  induction alike generalizing start with
  | nil => exact absurd rfl nonempty
  | @cons row other rest otherRest rowAlike restAlike inductionHypothesis =>
      cases restAlike with
      | nil =>
          obtain ⟨lastEnding, after, cuts⟩ := exists_cut_last ends
          have shown : row ≠ [] :=
            List.ne_nil_of_mem (List.mem_of_mem_head? rowAlike.pipe)
          have otherShown : other ≠ [] :=
            List.ne_nil_of_mem (List.mem_of_mem_head? rowAlike.otherPipe)
          refine ⟨[⟨start, row, lastEnding⟩], [⟨start, other, lastEnding⟩],
            start + row.length + lastEnding.length, after,
            cuts start row rowAlike.plain shown, ?_,
            .cons ⟨rfl, rowAlike, rfl⟩ .nil, rfl⟩
          rw [rowAlike.length_eq]
          exact cuts start other rowAlike.otherPlain otherShown
      | @cons second otherSecond more otherMore secondAlike moreAlike =>
          obtain ⟨lines, otherLines, stop, after, cuts, otherCuts, linesAlike,
            sameNumber⟩ := inductionHypothesis (List.cons_ne_nil _ _)
              (start + row.length + ending.length)
          refine ⟨⟨start, row, ending⟩ :: lines,
            ⟨start, other, ending⟩ :: otherLines, stop, after, ?_, ?_,
            .cons ⟨rfl, rowAlike, rfl⟩ linesAlike,
            congrArg Nat.succ sameNumber⟩
          · rw [Text.join_cons_cons, List.append_assoc, List.append_assoc,
              cut_line_ending start rowAlike.plain isEnding, cuts,
              List.cons_append]
          · rw [Text.join_cons_cons, List.append_assoc, List.append_assoc,
              cut_line_ending start rowAlike.otherPlain isEnding,
              ← rowAlike.length_eq, otherCuts, List.cons_append]

/-! ## Metadata -/

theorem afterMetadata?_append (mark : Char) (lines others : List Line) :
    afterMetadata? mark (lines ++ others) =
      ((afterMetadata? mark lines).map (· ++ others)).or
        (afterMetadata? mark others) := by
  induction lines with
  | nil => rfl
  | cons line rest inductionHypothesis =>
      rw [List.cons_append, afterMetadata?, afterMetadata?]
      split
      · rfl
      · exact inductionHypothesis

theorem metadataMark?_of_pipe {line : Line}
    (pipe : line.content.head? = some '|') : metadataMark? line = none := by
  apply metadataMark?_eq_none
  intro first isFirst
  rw [pipe] at isFirst
  exact .inr (.inl (Option.some.inj isFirst).symm)

theorem afterMetadata?_rows {mark : Char} (isMark : mark = '-' ∨ mark = '+')
    {rows : List Line}
    (pipes : ∀ line ∈ rows, line.content.head? = some '|')
    (below : List Line) :
    afterMetadata? mark (rows ++ below) = afterMetadata? mark below := by
  induction rows with
  | nil => rfl
  | cons row rest inductionHypothesis =>
      rw [List.forall_mem_cons] at pipes
      obtain ⟨others, content⟩ := List.head?_eq_some_iff.mp pipes.1
      have noRun : Marker.run mark ('|' :: others) = 0 := by
        rcases isMark with rfl | rfl <;> rfl
      have noMark : isMetadataMark mark row.content row = false := by
        rw [isMetadataMark, content, noRun]
        rfl
      rw [List.cons_append, afterMetadata?, noMark,
        if_neg Bool.false_ne_true]
      exact inductionHypothesis pipes.2

/-- Rows below lines count after those of the lines that count, or a metadata
block reaches from above them to below them. -/
theorem withoutMetadata_rows (above below : List Line) :
    (∀ rows : List Line, rows ≠ [] →
      (∀ line ∈ rows, line.content.head? = some '|') →
        withoutMetadata (above ++ (rows ++ below)) =
          withoutMetadata above ++ (rows ++ below)) ∨
    ∃ lines, ∀ rows : List Line, rows ≠ [] →
      (∀ line ∈ rows, line.content.head? = some '|') →
        withoutMetadata (above ++ (rows ++ below)) = lines := by
  cases above with
  | nil =>
      left
      intro rows nonempty pipes
      obtain ⟨row, rest, rfl⟩ := List.exists_cons_of_ne_nil nonempty
      rw [List.forall_mem_cons] at pipes
      simp only [List.nil_append, List.cons_append, withoutMetadata,
        metadataMark?_of_pipe pipes.1, Option.bind_none, Option.getD_none]
  | cons first rest =>
      simp only [List.cons_append, withoutMetadata]
      cases opens : metadataMark? first with
      | none => exact .inl fun _ _ _ => rfl
      | some mark =>
          have isMark : mark = '-' ∨ mark = '+' := by
            unfold metadataMark? at opens
            rw [Option.ite_none_left_eq_some] at opens
            simpa using List.mem_of_find?_eq_some opens.2
          simp only [Option.bind_some, afterMetadata?_append]
          cases afterMetadata? mark rest with
          | some lines => exact .inl fun _ _ _ => by simp
          | none =>
              cases closes : afterMetadata? mark below with
              | none =>
                  left
                  intro rows nonempty pipes
                  have skipped := afterMetadata?_rows isMark pipes below
                  rw [afterMetadata?_append, closes] at skipped
                  simp [skipped]
              | some lines =>
                  right
                  refine ⟨lines, fun rows nonempty pipes => ?_⟩
                  have skipped := afterMetadata?_rows isMark pipes below
                  rw [afterMetadata?_append, closes] at skipped
                  simp [skipped]

/-! ## The lines of a text -/

theorem cut_append_startsLine (start : Nat) {above : Text}
    (starts : StartsLine above) (rest : Text) :
    Line.cut start [] (above ++ rest) =
      Line.cut start [] above ++ Line.cut (start + above.length) [] rest := by
  rcases starts with rfl | feed
  · rfl
  · obtain ⟨front, rfl⟩ := List.getLast?_eq_some_iff.mp feed
    rw [List.append_assoc, List.singleton_append]
    exact cut_append_feed rest (by simp; omega)

/-- The lines of a text with another text below it. -/
theorem exists_blockLines_append {above : Text} (starts : StartsLine above) :
    ∃ lines, blockLines above = withoutMetadata lines ∧
      ∀ rest : Text, rest.head? = some '|' →
        blockLines (above ++ rest) =
          withoutMetadata (lines ++ Line.cut above.length [] rest) := by
  have plain (text : Text) (noMark : text.head? ≠ some '\ufeff') :
      blockLines text = withoutMetadata (Line.cut 0 [] text) := by
    unfold blockLines
    split
    · exact absurd rfl noMark
    · rfl
  cases above with
  | nil =>
      refine ⟨[], rfl, fun rest pipe => ?_⟩
      rw [List.nil_append, plain rest (by simp [pipe])]
      rfl
  | cons first others =>
      by_cases isMark : first = '\ufeff'
      · subst isMark
        have startsOthers : StartsLine others := by
          rcases starts with empty | feed
          · cases empty
          · cases others with
            | nil => cases feed
            | cons second more => exact .inr (by simpa using feed)
        refine ⟨Line.cut 1 [] others, rfl, fun rest _ => ?_⟩
        rw [List.length_cons, Nat.add_comm others.length,
          ← cut_append_startsLine 1 startsOthers]
        rfl
      · refine ⟨Line.cut 0 [] (first :: others), plain _ (by simpa using isMark),
          fun rest _ => ?_⟩
        rw [plain _ (by simpa using isMark), cut_append_startsLine 0 starts,
          Nat.zero_add]

end ComponentDocs.Markdown
