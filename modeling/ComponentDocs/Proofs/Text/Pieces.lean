import ComponentDocs.Text.Basic
import Mathlib.Data.List.Infix
import Mathlib.Data.List.TakeWhile

/-!
Searching a text for a piece, splitting it at a character, and where a piece can
stand in a longer text.
-/

namespace ComponentDocs.Text

/-- What holds of all characters of a text is decided on the text, and not by
going through the characters that there are. -/
instance decidableForallMem (text : Text) (property : Char → Prop)
    [DecidablePred property] :
    Decidable (∀ character ∈ text, property character) :=
  List.decidableBAll property text

/-- The search finds exactly the texts that stand in a row somewhere. -/
theorem hasPiece_iff_isInfix {piece text : Text} :
    hasPiece piece text = true ↔ piece <:+: text := by
  induction text with
  | nil =>
      simp [hasPiece]
  | cons character rest inductionHypothesis =>
      rw [hasPiece, Bool.or_eq_true, List.isPrefixOf_iff_prefix,
        inductionHypothesis, List.infix_cons_iff]

/-- What stands before the first character of a kind is taken whole. -/
theorem takeWhile_append_stop {stop : Char} {text : Text} (absent : stop ∉ text)
    (rest : Text) : (text ++ stop :: rest).takeWhile (· != stop) = text := by
  have passes : ∀ character ∈ text, (character != stop) = true := by
    intro character member
    rw [bne_iff_ne]
    rintro rfl
    exact absent member
  rw [List.takeWhile_append_of_pos passes]
  simp

/-- A text is split at the first separator in it. -/
theorem splitOnce_eq_some_iff {separator : Char} {text before after : Text} :
    splitOnce separator text = some (before, after) ↔
      text = before ++ separator :: after ∧ separator ∉ before := by
  have parts := List.takeWhile_append_dropWhile (p := (· != separator))
    (l := text)
  constructor
  · intro split
    unfold splitOnce at split
    cases stops : text.dropWhile (· != separator) with
    | nil =>
        rw [stops] at split
        cases split
    | cons first rest =>
        rw [stops, Option.some.injEq, Prod.mk.injEq] at split
        obtain ⟨rfl, rfl⟩ := split
        have isSeparator : first = separator := by
          have fails := List.head?_dropWhile_not (· != separator) text
          rw [stops] at fails
          simpa using fails
        rw [stops, isSeparator] at parts
        refine ⟨parts.symm, fun member => ?_⟩
        exact absurd (List.mem_takeWhile_imp member) (by simp)
  · rintro ⟨rfl, absent⟩
    have passes : ∀ character ∈ before, (character != separator) = true := by
      intro character member
      rw [bne_iff_ne]
      rintro rfl
      exact absent member
    rw [splitOnce, List.dropWhile_append_of_pos passes,
      takeWhile_append_stop absent]
    simp

theorem dropOneStart_isSuffix (first : Char) (text : Text) :
    dropOneStart first text <:+ text := by
  unfold dropOneStart
  split
  · exact List.tail_suffix text
  · exact List.suffix_rfl

theorem dropOneEnd_isPrefix (last : Char) (text : Text) :
    dropOneEnd last text <+: text := by
  unfold dropOneEnd
  split
  · exact List.dropLast_prefix text
  · exact List.prefix_rfl

/-! ## Pieces without a character -/

section Absent

variable {character : Char} {piece : Text} (absent : character ∉ piece)

include absent

theorem isPrefix_of_isPrefix_append_cons {first second : Text}
    (starts : piece <+: first ++ character :: second) : piece <+: first := by
  rcases List.prefix_or_prefix_of_prefix starts
      (List.prefix_append first (character :: second))
    with inFirst | ⟨rest, rfl⟩
  · exact inFirst
  · rw [List.prefix_append_right_inj] at starts
    rcases rest with _ | ⟨next, others⟩
    · rw [List.append_nil]
    · have isNext := (List.cons_prefix_cons.mp starts).1
      exact absurd (by simp [isNext]) absent

theorem isInfix_of_isInfix_cons {rest : Text}
    (occurs : piece <:+: character :: rest) : piece <:+: rest := by
  rcases List.infix_cons_iff.mp occurs with starts | later
  · have behind : piece <+: [] ++ character :: rest := starts
    have empty := isPrefix_of_isPrefix_append_cons absent behind
    rw [List.prefix_nil.mp empty]
    exact List.nil_infix
  · exact later

/-- A piece stands on one side of a character that it does not have. -/
theorem isInfix_append_cons {first second : Text}
    (occurs : piece <:+: first ++ character :: second) :
    piece <:+: first ∨ piece <:+: second := by
  induction first with
  | nil =>
      exact .inr (isInfix_of_isInfix_cons absent occurs)
  | cons next first inductionHypothesis =>
      rcases List.infix_cons_iff.mp occurs with starts | later
      · have inFirst : piece <+: next :: first :=
          isPrefix_of_isPrefix_append_cons absent starts
        exact .inl inFirst.isInfix
      · rcases inductionHypothesis later with inFirst | inSecond
        · exact .inl (List.infix_cons inFirst)
        · exact .inr inSecond

end Absent

end ComponentDocs.Text
