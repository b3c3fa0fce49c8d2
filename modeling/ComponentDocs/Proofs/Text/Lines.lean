import ComponentDocs.Text.Basic

/-!
Lines with their line feeds: a text is its lines, and starts with the line up
to its first line feed.
-/

namespace ComponentDocs.Text

theorem linesWithEnds_append {line : Text} (plain : '\n' ∉ line)
    (rest : Text) :
    linesWithEnds (line ++ '\n' :: rest) =
      (line ++ ['\n']) :: linesWithEnds rest := by
  induction line with
  | nil =>
      rfl
  | cons head tail inductionHypothesis =>
      have notFeed : head ≠ '\n' := fun equality =>
        plain (by simp [equality])
      have plainTail : '\n' ∉ tail := fun member =>
        plain (List.mem_cons_of_mem _ member)
      rw [List.cons_append, linesWithEnds.eq_3 head _ notFeed,
        inductionHypothesis plainTail]
      rfl

theorem flatten_linesWithEnds (text : Text) :
    (linesWithEnds text).flatten = text := by
  fun_induction linesWithEnds text with
  | case1 =>
      rfl
  | case2 rest inductionHypothesis =>
      simp [inductionHypothesis]
  | case3 character rest notFeed none inductionHypothesis =>
      rw [none] at inductionHypothesis
      simp [← inductionHypothesis]
  | case4 character rest notFeed line lines some inductionHypothesis =>
      rw [some] at inductionHypothesis
      simp [← inductionHypothesis]

/-- A text may be cut after a line feed. -/
theorem linesWithEnds_append_of_feed {text : Text}
    (feed : text.getLast? = some '\n') (rest : Text) :
    linesWithEnds (text ++ rest) =
      linesWithEnds text ++ linesWithEnds rest := by
  obtain ⟨front, rfl⟩ := List.getLast?_eq_some_iff.mp feed
  clear feed
  rw [List.append_assoc, List.singleton_append]
  induction front with
  | nil =>
      rfl
  | cons first others inductionHypothesis =>
      rw [List.cons_append, List.cons_append]
      by_cases isFeed : first = '\n'
      · rw [isFeed, linesWithEnds, linesWithEnds, inductionHypothesis]
        rfl
      · obtain ⟨line, lines, shape⟩ :
            ∃ line lines, linesWithEnds (others ++ ['\n']) = line :: lines := by
          apply List.exists_cons_of_ne_nil
          intro empty
          have parts := flatten_linesWithEnds (others ++ ['\n'])
          simp [empty] at parts
        rw [linesWithEnds.eq_3 first _ isFeed, linesWithEnds.eq_3 first _ isFeed,
          inductionHypothesis, shape]
        rfl

end ComponentDocs.Text
