import ComponentDocs.Proofs.Text.Pieces
import ComponentDocs.Proofs.Text.Pipes

/-!
Escaping pipes: a text with a backslash before each of its pipes. Unescaping
gives the text back and hiding covers exactly its pipes, also where the text has
backslashes of its own.
-/

namespace ComponentDocs.Text

/-- The text with a backslash before each pipe. -/
def escapePipes : Text → Text
  | [] => []
  | '|' :: rest => '\\' :: '|' :: escapePipes rest
  | character :: rest => character :: escapePipes rest

/-- The text with `stand` in the place of each pipe. -/
def coverPipes (stand : Char) (text : Text) : Text :=
  text.map fun character => if character = '|' then stand else character

theorem escapePipes_cons {character : Char} (notPipe : character ≠ '|')
    (rest : Text) :
    escapePipes (character :: rest) = character :: escapePipes rest :=
  escapePipes.eq_3 character rest notPipe

/-! ## Characters -/

/-- No escaped text starts with a pipe, so that no character before it escapes
one. -/
theorem head?_escapePipes_ne (text : Text) :
    (escapePipes text).head? ≠ some '|' := by
  fun_cases escapePipes text with
  | case1 =>
      simp
  | case2 rest =>
      simp
  | case3 character rest notPipe =>
      rw [List.head?_cons]
      intro isPipe
      exact notPipe (Option.some.inj isPipe)

theorem getLast?_escapePipes (text : Text) :
    (escapePipes text).getLast? = text.getLast? := by
  fun_induction escapePipes text with
  | case1 =>
      rfl
  | case2 rest inductionHypothesis =>
      simp [List.getLast?_cons, inductionHypothesis]
  | case3 character rest notPipe inductionHypothesis =>
      rw [List.getLast?_cons, List.getLast?_cons, inductionHypothesis]

theorem mem_escapePipes {text : Text} {character : Char}
    (notBackslash : character ≠ '\\')
    (member : character ∈ escapePipes text) : character ∈ text := by
  fun_induction escapePipes text with
  | case1 =>
      exact member
  | case2 rest inductionHypothesis =>
      rcases List.mem_cons.mp member with isBackslash | later
      · exact absurd isBackslash notBackslash
      · rcases List.mem_cons.mp later with rfl | inRest
        · exact List.mem_cons_self
        · exact List.mem_cons_of_mem _ (inductionHypothesis inRest)
  | case3 first rest notPipe inductionHypothesis =>
      rcases List.mem_cons.mp member with rfl | inRest
      · exact List.mem_cons_self
      · exact List.mem_cons_of_mem _ (inductionHypothesis inRest)

theorem trim_escapePipes {text : Text} (trimmed : trim text = text) :
    trim (escapePipes text) = escapePipes text := by
  obtain ⟨visibleStart, visibleEnd⟩ := trim_eq_self_iff.mp trimmed
  apply trim_eq_self
  · intro first starts
    cases text with
    | nil =>
        simp [escapePipes] at starts
    | cons character rest =>
        by_cases isPipe : character = '|'
        · subst isPipe
          obtain rfl : '\\' = first := by simpa [escapePipes] using starts
          decide
        · rw [escapePipes_cons isPipe] at starts
          exact visibleStart first starts
  · intro last ends
    rw [getLast?_escapePipes] at ends
    exact visibleEnd last ends

/-! ## Pieces -/

/-- Escaping brings up no piece without a backslash. -/
theorem isPrefix_of_escapePipes {piece text : Text} (plain : '\\' ∉ piece)
    (starts : piece <+: escapePipes text) : piece <+: text := by
  induction text generalizing piece with
  | nil =>
      exact starts
  | cons first rest inductionHypothesis =>
      rcases piece with _ | ⟨character, others⟩
      · exact List.nil_prefix
      · obtain ⟨notBackslash, plainOthers⟩ :=
          not_or.mp (mt List.mem_cons.mpr plain)
        by_cases isPipe : first = '|'
        · subst isPipe
          have isBackslash := (List.cons_prefix_cons.mp starts).1
          exact absurd isBackslash.symm notBackslash
        · rw [escapePipes_cons isPipe, List.cons_prefix_cons] at starts
          rw [List.cons_prefix_cons]
          exact ⟨starts.1, inductionHypothesis plainOthers starts.2⟩

theorem isInfix_of_escapePipes {piece text : Text} (plain : '\\' ∉ piece)
    (pipeless : '|' ∉ piece) (occurs : piece <:+: escapePipes text) :
    piece <:+: text := by
  induction text with
  | nil =>
      exact occurs
  | cons first rest inductionHypothesis =>
      by_cases isPipe : first = '|'
      · subst isPipe
        have behind : piece <:+: escapePipes rest :=
          isInfix_of_isInfix_cons pipeless (isInfix_of_isInfix_cons plain occurs)
        exact List.infix_cons (inductionHypothesis behind)
      · rw [escapePipes_cons isPipe, List.infix_cons_iff] at occurs
        rcases occurs with starts | later
        · rw [← escapePipes_cons isPipe] at starts
          exact (isPrefix_of_escapePipes plain starts).isInfix
        · exact List.infix_cons (inductionHypothesis later)

/-! ## Hiding and unescaping -/

/-- Of an escaped text, hiding covers exactly the pipes. -/
theorem hidePipes_escapePipes (stand : Char) (text : Text) :
    hidePipes stand (escapePipes text) = coverPipes stand text := by
  fun_induction escapePipes text with
  | case1 =>
      rfl
  | case2 rest inductionHypothesis =>
      rw [hidePipes, inductionHypothesis]
      simp [coverPipes]
  | case3 character rest notPipe inductionHypothesis =>
      rw [hidePipes, inductionHypothesis]
      · rw [coverPipes, coverPipes, List.map_cons, if_neg notPipe]
      · rintro others - startsPipe
        apply head?_escapePipes_ne rest
        rw [startsPipe, List.head?_cons]

section Cover

variable {stand : Char}

theorem not_mem_coverPipes (notPipe : stand ≠ '|') (text : Text) :
    '|' ∉ coverPipes stand text := by
  intro member
  obtain ⟨character, -, covered⟩ := List.mem_map.mp member
  by_cases isPipe : character = '|'
  · rw [if_pos isPipe] at covered
    exact notPipe covered
  · rw [if_neg isPipe] at covered
    exact isPipe covered

/-- Showing pipes undoes covering them in a text without the stand-in. -/
theorem showPipes_coverPipes {text : Text} (fresh : stand ∉ text) :
    showPipes stand ['|'] (coverPipes stand text) = text := by
  induction text with
  | nil =>
      rfl
  | cons first rest inductionHypothesis =>
      obtain ⟨notFirst, notRest⟩ := not_or.mp (mt List.mem_cons.mpr fresh)
      have others := inductionHypothesis notRest
      unfold showPipes coverPipes at others
      rw [showPipes, coverPipes, List.map_cons, List.flatMap_cons, others]
      by_cases isPipe : first = '|'
      · simp [isPipe]
      · simp [isPipe, Ne.symm notFirst]

end Cover

/-- To unescape a pipe is to hide it behind itself. -/
theorem unescapePipes_eq_hidePipes (text : Text) :
    unescapePipes text = hidePipes '|' text := by
  fun_induction unescapePipes text with
  | case1 =>
      rfl
  | case2 rest inductionHypothesis =>
      rw [hidePipes, inductionHypothesis]
  | case3 character rest notEscape inductionHypothesis =>
      rw [hidePipes, inductionHypothesis]
      exact notEscape

/-- Unescaping undoes escaping. -/
theorem unescapePipes_escapePipes (text : Text) :
    unescapePipes (escapePipes text) = text := by
  have covered : coverPipes '|' text = text := by
    conv_rhs => rw [← List.map_id text]
    apply List.map_congr_left
    intro character _
    by_cases isPipe : character = '|'
    · rw [if_pos isPipe, isPipe]
      rfl
    · rw [if_neg isPipe]
      rfl
  rw [unescapePipes_eq_hidePipes, hidePipes_escapePipes, covered]

/-- Unescaping and trimming do not disturb each other. -/
theorem trim_unescapePipes (text : Text) :
    trim (unescapePipes text) = unescapePipes (trim text) := by
  rw [unescapePipes_eq_hidePipes, unescapePipes_eq_hidePipes]
  exact trim_hidePipes '|' (by decide) text

/-- Without an escaped pipe there is nothing to unescape. -/
theorem unescapePipes_of_not_isInfix {text : Text}
    (absent : ¬ escapedPipe <:+: text) : unescapePipes text = text := by
  fun_induction unescapePipes text with
  | case1 =>
      rfl
  | case2 rest inductionHypothesis =>
      exact absurd (List.prefix_append escapedPipe rest).isInfix absent
  | case3 character rest notEscape inductionHypothesis =>
      rw [inductionHypothesis fun later => absent (List.infix_cons later)]

end ComponentDocs.Text
