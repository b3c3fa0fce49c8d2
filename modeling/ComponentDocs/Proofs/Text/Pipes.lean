import ComponentDocs.Proofs.Text.Trim

/-!
Escaped pipes: hiding them behind a stand-in leaves no pipe in a text in which
every pipe is escaped, and showing them again gives the text back. A piece of
the hidden text is a piece of the text, hidden.
-/

namespace ComponentDocs.Text

/-- Every pipe in a text has a backslash directly before it. -/
def PipesEscaped (text : Text) : Prop :=
  ∀ before after : Text,
    text = before ++ '|' :: after → before.getLast? = some '\\'

theorem PipesEscaped.of_not_mem {text : Text} (absent : '|' ∉ text) :
    PipesEscaped text := by
  intro before after equality
  exact absurd (by simp [equality]) absent

theorem PipesEscaped.append {first second : Text}
    (firstEscaped : PipesEscaped first) (secondEscaped : PipesEscaped second) :
    PipesEscaped (first ++ second) := by
  intro before after equality
  rcases List.append_eq_append_iff.mp equality
    with ⟨rest, rfl, whole⟩ | ⟨rest, whole, parts⟩
  · rw [List.getLast?_append, secondEscaped rest after whole, Option.some_or]
  · cases rest with
    | nil =>
        have starts := secondEscaped [] after parts.symm
        exact absurd starts (by simp)
    | cons character rest =>
        obtain ⟨rfl, -⟩ := List.cons.inj parts
        exact firstEscaped before rest whole

/-- A part of a text has its pipes escaped unless a backslash stands before
it. -/
theorem PipesEscaped.part {front piece back : Text}
    (escaped : PipesEscaped (front ++ piece ++ back))
    (apart : front.getLast? ≠ some '\\') : PipesEscaped piece := by
  rintro before after rfl
  have ends := escaped (front ++ before) (after ++ back) (by simp)
  rw [List.getLast?_append] at ends
  cases last : before.getLast? with
  | none =>
      rw [last, Option.none_or] at ends
      exact absurd ends apart
  | some character =>
      rw [last, Option.some_or] at ends
      exact ends

/-! ## Hiding and showing -/

/-- Induction along a text in which an escaped pipe counts as one step. -/
@[elab_as_elim]
theorem escape_induction {motive : Text → Prop} (text : Text)
    (nil : motive [])
    (escape : ∀ rest, motive rest → motive ('\\' :: '|' :: rest))
    (single : ∀ character rest,
      (∀ after, character = '\\' → rest = '|' :: after → False) →
        motive rest → motive (character :: rest)) :
    motive text := by
  fun_induction dropEscapedPipes text with
  | case1 => exact nil
  | case2 rest inductionHypothesis => exact escape rest inductionHypothesis
  | case3 character rest notEscape inductionHypothesis =>
      exact single character rest notEscape inductionHypothesis

variable (stand : Char)

theorem hidePipes_escape (rest : Text) :
    hidePipes stand ('\\' :: '|' :: rest) = stand :: hidePipes stand rest :=
  rfl

theorem hidePipes_single {character : Char} {rest : Text}
    (notEscape : ∀ after, character = '\\' → rest = '|' :: after → False) :
    hidePipes stand (character :: rest) =
      character :: hidePipes stand rest :=
  hidePipes.eq_3 stand character rest notEscape

/-- Hiding works on two texts one by one, unless a backslash and a pipe meet
between them. -/
theorem hidePipes_append {first second : Text}
    (apart : first.getLast? = some '\\' → second.head? ≠ some '|') :
    hidePipes stand (first ++ second) =
      hidePipes stand first ++ hidePipes stand second := by
  induction first using escape_induction with
  | nil =>
      rfl
  | escape rest inductionHypothesis =>
      rw [List.cons_append, List.cons_append, hidePipes_escape,
        hidePipes_escape, inductionHypothesis, List.cons_append]
      intro ends
      apply apart
      cases rest with
      | nil => simp at ends
      | cons head tail => simpa using ends
  | single character rest notEscape inductionHypothesis =>
      have apartRest :
          rest.getLast? = some '\\' → second.head? ≠ some '|' := by
        intro ends
        apply apart
        cases rest with
        | nil => simp at ends
        | cons head tail => simpa using ends
      rw [List.cons_append, hidePipes_single stand notEscape,
        hidePipes_single, inductionHypothesis apartRest, List.cons_append]
      intro rest' isBackslash startsPipe
      cases rest with
      | nil =>
          refine apart (by simp [isBackslash]) ?_
          rw [List.nil_append] at startsPipe
          simp [startsPipe]
      | cons head tail =>
          rw [List.cons_append, List.cons.injEq] at startsPipe
          exact notEscape tail isBackslash (by rw [startsPipe.1])

theorem hidePipes_ne_nil {text : Text} (nonempty : text ≠ []) :
    hidePipes stand text ≠ [] := by
  induction text using escape_induction with
  | nil =>
      exact absurd rfl nonempty
  | escape rest =>
      exact List.cons_ne_nil _ _
  | single character rest notEscape =>
      rw [hidePipes_single stand notEscape]
      exact List.cons_ne_nil _ _

/-- A text without pipes and backslashes has nothing to hide. -/
theorem hidePipes_eq_self {text : Text} (absent : '\\' ∉ text) :
    hidePipes stand text = text := by
  induction text using escape_induction with
  | nil =>
      rfl
  | escape rest inductionHypothesis =>
      exact absurd List.mem_cons_self absent
  | single character rest notEscape inductionHypothesis =>
      rw [hidePipes_single stand notEscape,
        inductionHypothesis fun member =>
          absent (List.mem_cons_of_mem _ member)]

/-- Where every pipe is escaped, hiding leaves none. -/
theorem not_mem_hidePipes {text : Text} (notPipe : stand ≠ '|')
    (escaped : PipesEscaped text) : '|' ∉ hidePipes stand text := by
  induction text using escape_induction with
  | nil =>
      exact List.not_mem_nil
  | escape rest inductionHypothesis =>
      have escapedRest : PipesEscaped rest := by
        intro before after equality
        have ends :=
          escaped ('\\' :: '|' :: before) after (by rw [equality]; rfl)
        cases before with
        | nil => simp at ends
        | cons head tail => simpa using ends
      have absent := inductionHypothesis escapedRest
      rw [hidePipes_escape]
      simp [Ne.symm notPipe, absent]
  | single character rest notEscape inductionHypothesis =>
      have characterNe : character ≠ '|' := by
        intro equality
        have ends := escaped [] rest (by rw [equality]; rfl)
        simp at ends
      have escapedRest : PipesEscaped rest := by
        intro before after equality
        have ends := escaped (character :: before) after (by rw [equality]; rfl)
        cases before with
        | nil =>
            have isBackslash : character = '\\' := by simpa using ends
            exact absurd equality (notEscape after isBackslash)
        | cons head tail => simpa using ends
      have absent := inductionHypothesis escapedRest
      rw [hidePipes_single stand notEscape]
      simp [Ne.symm characterNe, absent]

/-- Where hiding leaves no pipe, every pipe is escaped. -/
theorem PipesEscaped.of_hidePipes {text : Text}
    (absent : '|' ∉ hidePipes stand text) : PipesEscaped text := by
  induction text using escape_induction with
  | nil =>
      exact PipesEscaped.of_not_mem List.not_mem_nil
  | escape rest inductionHypothesis =>
      have escapedRest : PipesEscaped rest :=
        inductionHypothesis fun member =>
          absent (List.mem_cons_of_mem _ member)
      rintro (_ | ⟨first, _ | ⟨second, before⟩⟩) after equality
      · simp at equality
      · simp only [List.cons_append, List.cons.injEq] at equality
        rw [← equality.1]
        rfl
      · simp only [List.cons_append, List.cons.injEq] at equality
        simp [List.getLast?_cons, escapedRest before after equality.2.2]
  | single character rest notEscape inductionHypothesis =>
      rw [hidePipes_single stand notEscape] at absent
      have escapedRest : PipesEscaped rest :=
        inductionHypothesis fun member =>
          absent (List.mem_cons_of_mem _ member)
      rintro (_ | ⟨first, before⟩) after equality
      · simp only [List.nil_append, List.cons.injEq] at equality
        simp [equality.1] at absent
      · simp only [List.cons_append, List.cons.injEq] at equality
        simp [List.getLast?_cons, escapedRest before after equality.2]

instance (text : Text) : Decidable (PipesEscaped text) :=
  decidable_of_iff ('|' ∉ hidePipes '\\' text)
    ⟨PipesEscaped.of_hidePipes '\\', not_mem_hidePipes '\\' (by decide)⟩

/-- Showing pipes undoes hiding them. -/
theorem showPipes_hidePipes (apart : stand ∉ escapedPipe) (text : Text) :
    showPipes stand escapedPipe (hidePipes stand text) =
      showPipes stand escapedPipe text := by
  have pieces (first : Char) (rest : Text) :
      showPipes stand escapedPipe (first :: rest) =
        (if first == stand then escapedPipe else [first]) ++
          showPipes stand escapedPipe rest :=
    List.flatMap_cons
  induction text using escape_induction with
  | nil =>
      rfl
  | escape rest inductionHypothesis =>
      obtain ⟨notBackslash, notPipe⟩ : stand ≠ '\\' ∧ stand ≠ '|' := by
        simpa [escapedPipe] using apart
      rw [hidePipes_escape, pieces stand, pieces '\\', pieces '|',
        inductionHypothesis]
      simp [escapedPipe, notBackslash.symm, notPipe.symm]
  | single character rest notEscape inductionHypothesis =>
      rw [hidePipes_single stand notEscape, pieces, pieces,
        inductionHypothesis]

theorem exists_isPrefix_of_hidePipes {text piece : Text}
    (starts : piece <+: hidePipes stand text) :
    ∃ part, part <+: text ∧ hidePipes stand part = piece := by
  induction text using escape_induction generalizing piece with
  | nil =>
      exact ⟨[], List.nil_prefix, (List.prefix_nil.mp starts).symm⟩
  | escape rest inductionHypothesis =>
      cases piece with
      | nil =>
          exact ⟨[], List.nil_prefix, rfl⟩
      | cons first others =>
          obtain ⟨rfl, startsRest⟩ := List.cons_prefix_cons.mp starts
          obtain ⟨part, isPart, rfl⟩ := inductionHypothesis startsRest
          refine ⟨'\\' :: '|' :: part, ?_, rfl⟩
          rw [List.cons_prefix_cons, List.cons_prefix_cons]
          exact ⟨rfl, rfl, isPart⟩
  | single character rest notEscape inductionHypothesis =>
      rw [hidePipes_single stand notEscape] at starts
      cases piece with
      | nil =>
          exact ⟨[], List.nil_prefix, rfl⟩
      | cons first others =>
          obtain ⟨rfl, startsRest⟩ := List.cons_prefix_cons.mp starts
          obtain ⟨part, isPart, rfl⟩ := inductionHypothesis startsRest
          refine ⟨first :: part, List.cons_prefix_cons.mpr ⟨rfl, isPart⟩, ?_⟩
          apply hidePipes_single
          -- A pipe behind the part would stand behind it in the text as well.
          rintro after isBackslash rfl
          obtain ⟨back, rfl⟩ := isPart
          exact notEscape (after ++ back) isBackslash rfl

/-- A piece of the hidden text is a piece of the text, hidden: no escaped pipe
is cut in two. -/
theorem exists_isInfix_of_hidePipes {text piece : Text}
    (occurs : piece <:+: hidePipes stand text) :
    ∃ part, part <:+: text ∧ hidePipes stand part = piece := by
  induction text using escape_induction with
  | nil =>
      exact ⟨[], List.nil_infix, (List.infix_nil.mp occurs).symm⟩
  | escape rest inductionHypothesis =>
      rcases List.infix_cons_iff.mp occurs with starts | later
      · rw [← hidePipes_escape] at starts
        obtain ⟨part, isPart, hidden⟩ :=
          exists_isPrefix_of_hidePipes stand starts
        exact ⟨part, isPart.isInfix, hidden⟩
      · obtain ⟨part, isPart, hidden⟩ := inductionHypothesis later
        exact ⟨part, List.infix_cons (List.infix_cons isPart), hidden⟩
  | single character rest notEscape inductionHypothesis =>
      rw [hidePipes_single stand notEscape] at occurs
      rcases List.infix_cons_iff.mp occurs with starts | later
      · rw [← hidePipes_single stand notEscape] at starts
        obtain ⟨part, isPart, hidden⟩ :=
          exists_isPrefix_of_hidePipes stand starts
        exact ⟨part, isPart.isInfix, hidden⟩
      · obtain ⟨part, isPart, hidden⟩ := inductionHypothesis later
        exact ⟨part, List.infix_cons isPart, hidden⟩

/-- A text without the stand-in shows as it is. -/
theorem showPipes_eq_self {text : Text} (fresh : stand ∉ text) :
    showPipes stand escapedPipe text = text := by
  induction text with
  | nil =>
      rfl
  | cons first rest inductionHypothesis =>
      have different : first ≠ stand := fun equality =>
        fresh (by simp [equality])
      have freshRest : stand ∉ rest := fun member =>
        fresh (List.mem_cons_of_mem _ member)
      calc
        showPipes stand escapedPipe (first :: rest) =
            first :: showPipes stand escapedPipe rest := by
          simp [showPipes, different]
        _ = first :: rest := by
          rw [inductionHypothesis freshRest]

theorem not_mem_showPipes (apart : stand ∉ escapedPipe) (text : Text) :
    stand ∉ showPipes stand escapedPipe text := by
  intro member
  obtain ⟨character, -, written⟩ := List.mem_flatMap.mp member
  by_cases isStand : character = stand
  · rw [isStand, beq_self_eq_true, if_pos rfl] at written
    exact apart written
  · rw [if_neg (by simpa using isStand), List.mem_singleton] at written
    exact isStand written.symm

theorem showPipes_eq_self_iff (apart : stand ∉ escapedPipe) {text : Text} :
    showPipes stand escapedPipe text = text ↔ stand ∉ text := by
  constructor
  · intro same
    rw [← same]
    exact not_mem_showPipes stand apart text
  · exact showPipes_eq_self stand

/-- Shown pipes are escaped. -/
theorem pipesEscaped_showPipes {text : Text} (absent : '|' ∉ text) :
    PipesEscaped (showPipes stand escapedPipe text) := by
  induction text with
  | nil =>
      exact .of_not_mem List.not_mem_nil
  | cons first rest inductionHypothesis =>
      obtain ⟨notFirst, notRest⟩ := not_or.mp (mt List.mem_cons.mpr absent)
      have pieces :
          showPipes stand escapedPipe (first :: rest) =
            (if first == stand then escapedPipe else [first]) ++
              showPipes stand escapedPipe rest :=
        List.flatMap_cons
      rw [pieces]
      apply PipesEscaped.append _ (inductionHypothesis notRest)
      split
      · decide
      · exact .of_not_mem (by simpa using notFirst)

/-! ## Open pipes -/

/-- Hiding and dropping leave the same pipes. -/
theorem mem_hidePipes_iff {stand : Char} (notPipe : stand ≠ '|')
    {text : Text} : '|' ∈ hidePipes stand text ↔ '|' ∈ dropEscapedPipes text := by
  induction text using escape_induction with
  | nil =>
      rfl
  | escape rest inductionHypothesis =>
      rw [hidePipes_escape, dropEscapedPipes, List.mem_cons,
        inductionHypothesis, or_iff_right (Ne.symm notPipe)]
  | single character rest notEscape inductionHypothesis =>
      rw [hidePipes_single stand notEscape,
        dropEscapedPipes.eq_3 character rest notEscape, List.mem_cons,
        List.mem_cons, inductionHypothesis]

theorem mem_of_mem_unescapePipes {text : Text} {character : Char}
    (member : character ∈ unescapePipes text) : character ∈ text := by
  fun_induction unescapePipes text with
  | case1 =>
      exact member
  | case2 rest inductionHypothesis =>
      rcases List.mem_cons.mp member with isPipe | later
      · exact List.mem_cons_of_mem _ (List.mem_cons.mpr (.inl isPipe))
      · exact List.mem_cons_of_mem _
          (List.mem_cons_of_mem _ (inductionHypothesis later))
  | case3 first rest notEscape inductionHypothesis =>
      rcases List.mem_cons.mp member with isFirst | later
      · exact List.mem_cons.mpr (.inl isFirst)
      · exact List.mem_cons_of_mem _ (inductionHypothesis later)

/-- Without a pipe in the result there was nothing to unescape. -/
theorem unescapePipes_eq_self {text : Text}
    (absent : '|' ∉ unescapePipes text) : unescapePipes text = text := by
  fun_induction unescapePipes text with
  | case1 =>
      rfl
  | case2 rest inductionHypothesis =>
      exact absurd List.mem_cons_self absent
  | case3 character rest notEscape inductionHypothesis =>
      rw [inductionHypothesis fun member =>
        absent (List.mem_cons_of_mem _ member)]

/-! ## Trimming -/

theorem backslash_ne_of_isBlank {character : Char}
    (blank : isBlank character = true) : character ≠ '\\' := by
  rintro rfl
  exact absurd blank (by decide)

theorem pipe_ne_of_isBlank {character : Char}
    (blank : isBlank character = true) : character ≠ '|' := by
  rintro rfl
  exact absurd blank (by decide)

theorem PipesEscaped.trim {text : Text} (escaped : PipesEscaped text) :
    PipesEscaped (Text.trim text) := by
  obtain ⟨before, after, parts, blankBefore, -⟩ := exists_trim text
  rw [parts] at escaped
  apply escaped.part
  intro ends
  exact backslash_ne_of_isBlank
    (blankBefore _ (List.mem_of_getLast? ends)) rfl

/-- Blanks around a text stay where they are. -/
theorem hidePipes_append_append (before : Text) {after : Text}
    (blankBefore : ∀ character ∈ before, isBlank character = true)
    (text : Text)
    (blankAfter : ∀ character ∈ after, isBlank character = true) :
    hidePipes stand (before ++ text ++ after) =
      before ++ hidePipes stand text ++ after := by
  have keptBefore : hidePipes stand before = before :=
    hidePipes_eq_self stand fun member =>
      backslash_ne_of_isBlank (blankBefore _ member) rfl
  have keptAfter : hidePipes stand after = after :=
    hidePipes_eq_self stand fun member =>
      backslash_ne_of_isBlank (blankAfter _ member) rfl
  have apartAfter :
      (before ++ text).getLast? = some '\\' → after.head? ≠ some '|' := by
    intro _ starts
    exact pipe_ne_of_isBlank (blankAfter _ (List.mem_of_mem_head? starts)) rfl
  have apartBefore :
      before.getLast? = some '\\' → text.head? ≠ some '|' := by
    intro ends
    exact absurd rfl <|
      backslash_ne_of_isBlank (blankBefore _ (List.mem_of_getLast? ends))
  rw [hidePipes_append stand apartAfter, hidePipes_append stand apartBefore,
    keptBefore, keptAfter]

theorem head?_hidePipes {text : Text} {first : Char}
    (visible : isBlank stand = false)
    (starts : ∀ head, text.head? = some head → isBlank head = false)
    (hidden : (hidePipes stand text).head? = some first) :
    isBlank first = false := by
  induction text using escape_induction with
  | nil =>
      cases hidden
  | escape rest =>
      rw [hidePipes_escape, List.head?_cons, Option.some.injEq] at hidden
      rw [← hidden]
      exact visible
  | single character rest notEscape =>
      rw [hidePipes_single stand notEscape, List.head?_cons,
        Option.some.injEq] at hidden
      exact starts first (by rw [List.head?_cons, hidden])

/-- The last character stays the last, unless it is hidden with the backslash
before it. -/
theorem getLast?_hidePipes_concat (text : Text) (last : Char) :
    (hidePipes stand (text ++ [last])).getLast? = some stand ∨
      (hidePipes stand (text ++ [last])).getLast? = some last := by
  by_cases meet : text.getLast? = some '\\' ∧ last = '|'
  · obtain ⟨ends, rfl⟩ := meet
    obtain ⟨before, rfl⟩ := List.getLast?_eq_some_iff.mp ends
    left
    rw [List.append_assoc, hidePipes_append stand (by simp)]
    exact List.getLast?_concat
  · right
    have apart :
        text.getLast? = some '\\' → ([last] : Text).head? ≠ some '|' := by
      intro ends starts
      exact meet ⟨ends, by simpa using starts⟩
    have single : hidePipes stand [last] = [last] := by
      exact hidePipes_single stand (by simp)
    rw [hidePipes_append stand apart, single, List.getLast?_concat]

theorem getLast?_hidePipes {text : Text} {last : Char}
    (visible : isBlank stand = false)
    (ends : ∀ final, text.getLast? = some final → isBlank final = false)
    (hidden : (hidePipes stand text).getLast? = some last) :
    isBlank last = false := by
  -- Hiding reads from the start, so the last character is split off first.
  cases text using List.reverseRecOn with
  | nil =>
      cases hidden
  | append_singleton before final _ =>
      rcases getLast?_hidePipes_concat stand before final with
        standLast | same
      · rw [standLast, Option.some.injEq] at hidden
        rw [← hidden]
        exact visible
      · rw [same, Option.some.injEq] at hidden
        rw [← hidden]
        exact ends final (by simp)

/-- Hiding and trimming do not disturb each other. -/
theorem trim_hidePipes (visible : isBlank stand = false) (text : Text) :
    trim (hidePipes stand text) = hidePipes stand (trim text) := by
  obtain ⟨before, after, parts, blankBefore, blankAfter⟩ := exists_trim text
  have hidden :
      hidePipes stand text =
        before ++ hidePipes stand (trim text) ++ after := by
    conv_lhs => rw [parts]
    exact hidePipes_append_append stand before blankBefore _ blankAfter
  rw [hidden, trim_append_append before blankBefore _ blankAfter]
  exact trim_eq_self
    (fun _ => head?_hidePipes stand visible fun _ => head?_trim)
    (fun _ => getLast?_hidePipes stand visible fun _ => getLast?_trim)

/-- An escaped pipe is as visible as its stand-in. -/
theorem trim_showPipes {stand : Char} {text : Text}
    (trimmed : trim text = text) :
    trim (showPipes stand escapedPipe text) =
      showPipes stand escapedPipe text := by
  obtain ⟨starts, ends⟩ := trim_eq_self_iff.mp trimmed
  apply trim_eq_self
  · intro first isFirst
    cases text with
    | nil =>
        cases isFirst
    | cons head tail =>
        rw [showPipes, List.flatMap_cons, List.head?_append] at isFirst
        by_cases isStand : head == stand
        · rw [if_pos isStand] at isFirst
          obtain rfl := Option.some.inj isFirst
          rfl
        · rw [if_neg isStand] at isFirst
          exact starts first isFirst
  · intro last isLast
    rcases List.eq_nil_or_concat' text with rfl | ⟨front, final, rfl⟩
    · cases isLast
    · rw [showPipes, List.flatMap_append, List.flatMap_singleton,
        List.getLast?_append] at isLast
      by_cases isStand : final == stand
      · rw [if_pos isStand] at isLast
        obtain rfl := Option.some.inj isLast
        rfl
      · rw [if_neg isStand] at isLast
        exact ends last (List.getLast?_concat.trans isLast)

end ComponentDocs.Text
