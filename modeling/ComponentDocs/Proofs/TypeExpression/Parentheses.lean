import ComponentDocs.Proofs.TypeExpression.Brackets

/-!
Parentheses around a whole text: the scan for an early end counts the open
parentheses, so a text loses a pair of parentheses exactly when what stands
between them is closed on its own.
-/

namespace ComponentDocs.TypeExpression

open Signature (IsClosed parenDepth parenDepth_append)

/-! ## The scan for an early end -/

theorem parenDepth_cons (character : Char) (rest : Text) :
    parenDepth (character :: rest) =
      parenDepth [character] + parenDepth rest :=
  parenDepth_append [character] rest

/-- One step of the scan, which goes on unless the last open parenthesis is
closed. -/
theorem closesEarly_cons {count next : Nat} (character : Char) {rest : Text}
    (nonempty : rest ≠ [])
    (step : (next : Int) = count + parenDepth [character]) :
    closesEarly (count + 1) (character :: rest) =
      closesEarly (next + 1) rest := by
  by_cases isOpening : character = '('
  · subst isOpening
    have change : parenDepth ['('] = 1 := by decide
    obtain rfl : next = count + 1 := by omega
    rw [closesEarly]
    exact nonempty
  · by_cases isClosing : character = ')'
    · subst isClosing
      have change : parenDepth [')'] = -1 := by decide
      obtain rfl : count = next + 1 := by omega
      rw [closesEarly, Nat.add_sub_cancel]
      · simp
      · exact nonempty
    · have change : parenDepth [character] = 0 := by
        simp [parenDepth, isOpening, isClosing]
      obtain rfl : next = count := by omega
      rw [closesEarly]
      · exact nonempty
      · exact isOpening
      · exact isClosing

/-- The last open parenthesis is not closed early exactly when no part before
the last character closes more than it opens. -/
theorem closesEarly_concat_eq_false_iff (count : Nat) (inside : Text)
    (last : Char) :
    closesEarly (count + 1) (inside ++ [last]) = false ↔
      ∀ before, before <+: inside → 0 ≤ count + parenDepth before := by
  induction inside generalizing count with
  | nil =>
      constructor
      · intro _ before isPrefix
        rw [List.prefix_nil.mp isPrefix]
        simp [parenDepth]
      · intro _
        rfl
  | cons character inside inductionHypothesis =>
      have nonempty : inside ++ [last] ≠ [] := List.concat_ne_nil _ _
      by_cases drops : (count : Int) + parenDepth [character] < 0
      · -- Only a closing parenthesis takes away the last open one.
        have isClosing : character = ')' := by
          by_contra other
          have nonneg : 0 ≤ parenDepth [character] := by
            simp [parenDepth, other]
          omega
        have change : parenDepth [')'] = -1 := by decide
        subst isClosing
        obtain rfl : count = 0 := by omega
        constructor
        · intro notEarly
          rw [List.cons_append, closesEarly] at notEarly
          · simp at notEarly
          · exact nonempty
        · intro nonneg
          have bound := nonneg [')'] (by simp)
          omega
      · obtain ⟨next, step⟩ := Int.eq_ofNat_of_zero_le (Int.not_lt.mp drops)
        rw [List.cons_append, closesEarly_cons character nonempty step.symm,
          inductionHypothesis]
        constructor
        · intro nonneg before isPrefix
          cases before with
          | nil =>
              simp [parenDepth]
          | cons first before =>
              obtain ⟨rfl, isRest⟩ := List.cons_prefix_cons.mp isPrefix
              have bound := nonneg before isRest
              rw [parenDepth_cons]
              omega
        · intro nonneg before isPrefix
          have bound := nonneg (character :: before)
            (List.cons_prefix_cons.mpr ⟨rfl, isPrefix⟩)
          rw [parenDepth_cons] at bound
          omega

theorem closesEarly_around_eq_false_iff {inside : Text} :
    closesEarly 0 ('(' :: (inside ++ [')'])) = false ↔
      ∀ before, before <+: inside → 0 ≤ parenDepth before := by
  have opened : closesEarly 0 ('(' :: (inside ++ [')'])) =
      closesEarly 1 (inside ++ [')']) := by
    rw [closesEarly]
    exact List.concat_ne_nil _ _
  rw [opened]
  simpa using closesEarly_concat_eq_false_iff 0 inside ')'

/-! ## Stripped parentheses -/

theorem stripParentheses_around {inside : Text}
    (notEarly : closesEarly 0 ('(' :: (inside ++ [')'])) = false) :
    stripParentheses ('(' :: (inside ++ [')'])) = Text.trim inside := by
  have closes : ('(' :: (inside ++ [')'])).getLast? = some ')' := by
    rw [← List.cons_append, List.getLast?_concat]
  have wrapped :
      (('(' :: (inside ++ [')'])).head? == some '(' &&
        ('(' :: (inside ++ [')'])).getLast? == some ')' &&
          !closesEarly 0 ('(' :: (inside ++ [')']))) = true := by
    rw [notEarly, closes]
    rfl
  rw [stripParentheses, if_pos wrapped, List.tail_cons, List.dropLast_concat]

/-- A text keeps its parentheses unless they stand around all of it. -/
theorem stripParentheses_cases (text : Text) :
    stripParentheses text = text ∨
      ∃ inside, text = '(' :: (inside ++ [')']) ∧
        closesEarly 0 text = false ∧
          stripParentheses text = Text.trim inside := by
  by_cases wrapped : (text.head? == some '(' && text.getLast? == some ')' &&
      !closesEarly 0 text) = true
  · obtain ⟨⟨opens, closes⟩, notEarly⟩ :
        (text.head? = some '(' ∧ text.getLast? = some ')') ∧
          closesEarly 0 text = false := by
      simpa using wrapped
    obtain ⟨before, rfl⟩ := List.getLast?_eq_some_iff.mp closes
    cases before with
    | nil => exact absurd opens (by decide)
    | cons first inside =>
        obtain rfl : first = '(' := by simpa using opens
        exact .inr ⟨inside, rfl, notEarly, stripParentheses_around notEarly⟩
  · rw [stripParentheses, if_neg wrapped]
    exact .inl rfl

/-- The parentheses around a closed text are stripped. -/
theorem stripParentheses_around_closed {inside : Text}
    (closed : IsClosed inside) :
    stripParentheses ('(' :: (inside ++ [')'])) = Text.trim inside :=
  stripParentheses_around (closesEarly_around_eq_false_iff.mpr closed.nonneg)

/-- A closed text that is no closed text in parentheses stays as it is. -/
theorem stripParentheses_eq_self {text : Text} (closed : IsClosed text)
    (notAround : ∀ inside, text = '(' :: (inside ++ [')']) →
      ¬ IsClosed inside) : stripParentheses text = text := by
  rcases stripParentheses_cases text with same | ⟨inside, rfl, notEarly, -⟩
  · exact same
  · have pair : parenDepth ('(' :: (inside ++ [')'])) = parenDepth inside := by
      rw [parenDepth_cons, parenDepth_append]
      have opening : parenDepth ['('] = 1 := by decide
      have closing : parenDepth [')'] = -1 := by decide
      omega
    have closedInside : IsClosed inside :=
      ⟨closesEarly_around_eq_false_iff.mp notEarly,
        pair.symm.trans closed.closed⟩
    exact absurd closedInside (notAround inside rfl)

end ComponentDocs.TypeExpression
