import ComponentDocs.Text.Basic
import Mathlib.Data.List.Basic

/-!
Texts joined by a separator: their ends, and splitting them again.
-/

namespace ComponentDocs.Text

@[simp]
theorem join_cons_cons (separator first second : Text) (others : List Text) :
    join separator (first :: second :: others) =
      first ++ separator ++ join separator (second :: others) :=
  rfl

theorem join_eq_intercalate (separator : Text) (texts : List Text) :
    join separator texts = separator.intercalate texts := by
  induction texts with
  | nil =>
      rfl
  | cons first rest inductionHypothesis =>
      cases rest with
      | nil =>
          simp [join]
      | cons second others =>
          rw [join_cons_cons, inductionHypothesis,
            List.intercalate_cons_cons, List.append_assoc]

/-- Behind the first text each one follows a separator. -/
theorem join_cons_eq_flatMap (separator first : Text) (others : List Text) :
    join separator (first :: others) =
      first ++ others.flatMap (separator ++ ·) := by
  induction others generalizing first with
  | nil =>
      exact (List.append_nil first).symm
  | cons second rest inductionHypothesis =>
      rw [join_cons_cons, inductionHypothesis, List.flatMap_cons,
        List.append_assoc, List.append_assoc]

theorem join_append (separator : Text) {before after : List Text}
    (nonemptyBefore : before ≠ []) (nonemptyAfter : after ≠ []) :
    join separator (before ++ after) =
      join separator before ++ separator ++ join separator after := by
  induction before with
  | nil =>
      exact absurd rfl nonemptyBefore
  | cons first rest inductionHypothesis =>
      obtain ⟨second, others, shape⟩ :=
        List.exists_cons_of_ne_nil nonemptyAfter
      cases rest with
      | nil =>
          rw [shape]
          rfl
      | cons next further =>
          have moved := inductionHypothesis (List.cons_ne_nil next further)
          simp only [List.cons_append, List.append_assoc, join_cons_cons]
            at moved ⊢
          rw [moved]

theorem mem_join {separator : Text} {texts : List Text} {character : Char}
    (member : character ∈ join separator texts) :
    character ∈ separator ∨ ∃ text ∈ texts, character ∈ text := by
  induction texts with
  | nil =>
      cases member
  | cons first rest inductionHypothesis =>
      cases rest with
      | nil =>
          exact .inr ⟨first, List.mem_cons_self, member⟩
      | cons second others =>
          rw [join_cons_cons, List.append_assoc, List.mem_append,
            List.mem_append] at member
          rcases member with inFirst | inSeparator | inRest
          · exact .inr ⟨first, List.mem_cons_self, inFirst⟩
          · exact .inl inSeparator
          · exact (inductionHypothesis inRest).imp_right
              fun ⟨text, textMember, inText⟩ =>
                ⟨text, List.mem_cons_of_mem _ textMember, inText⟩

/-- Empty texts at the end add a separator each. -/
theorem join_append_replicate (separator : Char) {texts : List Text}
    (nonempty : texts ≠ []) (count : Nat) :
    join [separator] (texts ++ List.replicate count []) =
      join [separator] texts ++ List.replicate count separator := by
  induction count with
  | zero =>
      simp
  | succ count inductionHypothesis =>
      have nonemptyLonger : texts ++ List.replicate count [] ≠ [] :=
        List.append_ne_nil_of_left_ne_nil nonempty _
      rw [List.replicate_succ', List.replicate_succ', ← List.append_assoc,
        join_append _ nonemptyLonger (List.cons_ne_nil [] []),
        inductionHypothesis]
      simp [join]

/-- Splitting a joined text at the separator gives the texts back. -/
theorem splitOn_join {separator : Char} {texts : List Text}
    (nonempty : texts ≠ [])
    (absent : ∀ text ∈ texts, separator ∉ text) :
    (join [separator] texts).splitOn separator = texts := by
  rw [join_eq_intercalate]
  exact List.splitOn_intercalate separator absent nonempty

theorem not_mem_of_mem_splitOn {separator : Char} {text piece : Text}
    (member : piece ∈ text.splitOn separator) : separator ∉ piece := by
  induction size : text.length using Nat.strongRecOn
    generalizing text with
  | ind length inductionHypothesis =>
    by_cases occurs : separator ∈ text
    · obtain ⟨before, after, rfl⟩ := List.append_of_mem occurs
      rw [List.length_append, List.length_cons] at size
      rw [List.splitOn_append_cons_self, List.mem_append] at member
      rcases member with inBefore | inAfter
      · exact inductionHypothesis before.length (by omega) inBefore rfl
      · exact inductionHypothesis after.length (by omega) inAfter rfl
    · rw [List.splitOn_eq_singleton occurs, List.mem_singleton] at member
      rw [member]
      exact occurs

/-- What stands before a joined text is nothing, or ends with the separator. -/
theorem exists_join_of_mem (separator : Char) {texts : List Text}
    {text : Text} (member : text ∈ texts) :
    ∃ before after : Text,
      join [separator] texts = before ++ text ++ after ∧
        (before = [] ∨ before.getLast? = some separator) := by
  obtain ⟨front, back, rfl⟩ := List.append_of_mem member
  have behind : ∃ after,
      join [separator] (text :: back) = text ++ after := by
    cases back with
    | nil => exact ⟨[], (List.append_nil text).symm⟩
    | cons second others =>
        exact ⟨_, by rw [join_cons_cons, List.append_assoc]⟩
  obtain ⟨after, written⟩ := behind
  cases front with
  | nil =>
      exact ⟨[], after, written, .inl rfl⟩
  | cons first others =>
      refine ⟨join [separator] (first :: others) ++ [separator], after, ?_,
        .inr List.getLast?_concat⟩
      rw [join_append _ (List.cons_ne_nil _ _) (List.cons_ne_nil _ _), written,
        List.append_assoc _ text after]

/-- What is split off a text is a piece of it. -/
theorem isInfix_of_mem_splitOn {separator : Char} {text piece : Text}
    (member : piece ∈ text.splitOn separator) : piece <:+: text := by
  obtain ⟨before, after, parts, -⟩ := exists_join_of_mem separator member
  have whole : join [separator] (text.splitOn separator) = text := by
    rw [join_eq_intercalate]
    exact List.intercalate_splitOn separator
  exact ⟨before, after, parts.symm.trans whole⟩

theorem head?_join {separator : Text} {first : Text} {rest : List Text}
    {character : Char} (starts : first.head? = some character) :
    (join separator (first :: rest)).head? = some character := by
  cases rest with
  | nil => exact starts
  | cons second others =>
      rw [join_cons_cons, List.append_assoc, List.head?_append, starts]
      rfl

theorem getLast?_join {separator : Text} {before : List Text} {last : Text}
    {character : Char} (ends : last.getLast? = some character) :
    (join separator (before ++ [last])).getLast? = some character := by
  induction before with
  | nil => exact ends
  | cons first rest inductionHypothesis =>
      have split : ∃ second others, rest ++ [last] = second :: others :=
        List.exists_cons_of_ne_nil (by simp)
      obtain ⟨second, others, shape⟩ := split
      rw [List.cons_append, shape, join_cons_cons, ← shape,
        List.getLast?_append, inductionHypothesis]
      rfl

/-- The pieces of joined texts are those of each. -/
theorem splitOn_join_eq_flatMap (separator : Char) {parts : List Text}
    (nonempty : parts ≠ []) :
    (join [separator] parts).splitOn separator =
      parts.flatMap (List.splitOn separator) := by
  induction parts with
  | nil => exact absurd rfl nonempty
  | cons first rest inductionHypothesis =>
      cases rest with
      | nil => simp [join]
      | cons second others =>
          rw [join_cons_cons, List.append_assoc, List.singleton_append,
            List.splitOn_append_cons_self,
            inductionHypothesis (List.cons_ne_nil _ _)]
          rfl

end ComponentDocs.Text
