import ComponentDocs.Proofs.TypeExpression.Parentheses
import ComponentDocs.Proofs.Text.Pipes

/-!
The forms that type expressions are brought to: a name, alternatives of which
there are several, or what a marked code span holds. Only slashes around
nothing and marked code spans give forms without text.
-/

namespace ComponentDocs.TypeExpression

open Signature (IsClosed isClosed_of_not_mem)

/-! ## Names and alternatives -/

/-- A form that is one name, or several alternatives. -/
inductive IsNamed : TypeForm → Prop
  | simple (name : Text) : IsNamed (.simple name)
  | union {members : List Text} (several : 2 ≤ members.length) :
      IsNamed (.union members)

theorem two_le_length_splitOn {separator : Char} {text : Text}
    (member : separator ∈ text) : 2 ≤ (text.splitOn separator).length := by
  obtain ⟨before, after, rfl⟩ := List.append_of_mem member
  have first :=
    List.length_pos_of_ne_nil (List.splitOn_ne_nil separator before)
  have second :=
    List.length_pos_of_ne_nil (List.splitOn_ne_nil separator after)
  rw [List.splitOn_append_cons_self, List.length_append]
  omega

theorem isNamed_splitAlternatives {text : Text}
    (isOpen : hasOpenPipe text = true) :
    IsNamed (.union (splitAlternatives text)) := by
  have dropped : '|' ∈ Text.dropEscapedPipes text :=
    List.contains_iff_mem.mp isOpen
  have hidden : '|' ∈ Text.hidePipes pipeStand text :=
    (Text.mem_hidePipes_iff (by decide)).mpr dropped
  apply IsNamed.union
  rw [splitAlternatives, List.length_map]
  exact two_le_length_splitOn hidden

theorem isNamed_formOfContent (content : Text) :
    IsNamed (formOfContent content) := by
  unfold formOfContent
  by_cases isOpen : hasOpenPipe content = true
  · rw [if_pos isOpen]
    exact isNamed_splitAlternatives isOpen
  · rw [if_neg isOpen]
    exact .simple _

/-! ## Texts without slashes -/

section Piece

variable {text : Text}

theorem firstRule_of_applies {rule : Rule} (others : List Rule)
    (applies : rule.applies text = true) :
    firstRule (rule :: others) text = rule := by
  rw [firstRule, List.find?_cons, applies]
  rfl

theorem firstRule_of_fails {rule : Rule} (others : List Rule)
    (fails : rule.applies text = false) :
    firstRule (rule :: others) text = firstRule others text := by
  rw [firstRule, List.find?_cons, fails]
  rfl

/-- Where one of the rules applies, the first of them that applies is taken. -/
theorem firstRule_spec {rules : List Rule}
    (some : ∃ rule ∈ rules, rule.applies text = true) :
    firstRule rules text ∈ rules ∧
      (firstRule rules text).applies text = true := by
  obtain ⟨rule, found⟩ := Option.isSome_iff_exists.mp
    (List.find?_isSome.mpr some)
  have first : firstRule rules text = rule := by
    rw [firstRule, found]
    rfl
  have applies := List.find?_some found
  rw [first]
  exact ⟨List.mem_of_find?_eq_some found, applies⟩

theorem pieceForm_of_function {span : Text}
    (marked : markedSpan? functionMarker text = some span) :
    pieceForm text =
      .literal (stripParentheses (Text.trim (Text.unescapePipes span))) := by
  have applies : functionRule.applies text = true :=
    congrArg Option.isSome marked
  have form : functionRule.form text =
      .literal (stripParentheses (Text.trim (Text.unescapePipes
        ((markedSpan? functionMarker text).getD text)))) := rfl
  rw [pieceForm, pieceRules, firstRule_of_applies _ applies, form, marked,
    Option.getD_some]

variable (noFunction : markedSpan? functionMarker text = none)

include noFunction

theorem pieceForm_of_object {span : Text}
    (marked : markedSpan? objectMarker text = some span) :
    pieceForm text = .literal span := by
  have functionFails : functionRule.applies text = false :=
    congrArg Option.isSome noFunction
  have applies : objectRule.applies text = true :=
    congrArg Option.isSome marked
  have form : objectRule.form text =
      .literal ((markedSpan? objectMarker text).getD text) := rfl
  rw [pieceForm, pieceRules, firstRule_of_fails _ functionFails,
    firstRule_of_applies _ applies, form, marked, Option.getD_some]

variable (noObject : markedSpan? objectMarker text = none)

include noObject

theorem pieceForm_of_enum {span : Text}
    (marked : markedSpan? enumMarker text = some span) :
    pieceForm text = .literal (Text.unescapePipes span) := by
  have functionFails : functionRule.applies text = false :=
    congrArg Option.isSome noFunction
  have objectFails : objectRule.applies text = false :=
    congrArg Option.isSome noObject
  have applies : enumRule.applies text = true :=
    congrArg Option.isSome marked
  have form : enumRule.form text =
      .literal (Text.unescapePipes
        ((markedSpan? enumMarker text).getD text)) := rfl
  rw [pieceForm, pieceRules, firstRule_of_fails _ functionFails,
    firstRule_of_fails _ objectFails, firstRule_of_applies _ applies, form,
    marked, Option.getD_some]

/-- Where no bracket marks a code span, one of the rules left is taken. -/
theorem pieceForm_of_unmarked (noEnum : markedSpan? enumMarker text = none) :
    pieceForm text =
      (firstRule [bracketRule, spanRule, openPipeRule, escapedPipeRule,
        plainRule] text).form text := by
  have functionFails : functionRule.applies text = false :=
    congrArg Option.isSome noFunction
  have objectFails : objectRule.applies text = false :=
    congrArg Option.isSome noObject
  have enumFails : enumRule.applies text = false :=
    congrArg Option.isSome noEnum
  rw [pieceForm, pieceRules, firstRule_of_fails _ functionFails,
    firstRule_of_fails _ objectFails, firstRule_of_fails _ enumFails]

/-- Where no bracket marks a code span, all rules left give names. -/
theorem isNamed_pieceForm (noEnum : markedSpan? enumMarker text = none) :
    IsNamed (pieceForm text) := by
  rw [pieceForm_of_unmarked noFunction noObject noEnum]
  have plainLeft :
      ∃ rule ∈ [bracketRule, spanRule, openPipeRule, escapedPipeRule,
        plainRule], rule.applies text = true :=
    ⟨plainRule, by simp, rfl⟩
  obtain ⟨isLeft, applies⟩ := firstRule_spec plainLeft
  generalize firstRule [bracketRule, spanRule, openPipeRule, escapedPipeRule,
    plainRule] text = rule at isLeft applies ⊢
  simp only [List.mem_cons, List.not_mem_nil, or_false] at isLeft
  rcases isLeft with rfl | rfl | rfl | rfl | rfl
  · exact isNamed_formOfContent _
  · exact isNamed_formOfContent _
  · exact isNamed_splitAlternatives applies
  · exact .simple _
  · exact .simple _

end Piece

/-! ## Parentheses -/

theorem stripParentheses_around_blank {inside : Text}
    (blank : ∀ character ∈ inside, Text.isBlank character = true) :
    stripParentheses ('(' :: (inside ++ [')'])) = [] := by
  have closed : IsClosed inside := by
    apply isClosed_of_not_mem
    · intro member
      exact absurd (blank '(' member) (by decide)
    · intro member
      exact absurd (blank ')' member) (by decide)
  rw [stripParentheses_around_closed closed]
  exact Text.trim_eq_nil_iff.mpr blank

/-- A text whose type signature is empty: nothing, or parentheses around
nothing. -/
def IsBlankSignature (text : Text) : Prop :=
  text = [] ∨
    ∃ inside : Text,
      (∀ character ∈ inside, Text.isBlank character = true) ∧
        text = ['('] ++ inside ++ [')']

theorem stripParentheses_eq_nil_iff {text : Text} :
    stripParentheses text = [] ↔ IsBlankSignature text := by
  constructor
  · intro empty
    rcases stripParentheses_cases text with same | ⟨inside, whole, -, stripped⟩
    · exact .inl (same.symm.trans empty)
    · have blank := Text.trim_eq_nil_iff.mp (stripped.symm.trans empty)
      exact .inr ⟨inside, blank, whole⟩
  · rintro (rfl | ⟨inside, blank, rfl⟩)
    · rfl
    · exact stripParentheses_around_blank blank

/-! ## Empty forms -/

/-- A bracket marks a code span without a type: an empty one, or for functions
also one of blanks, or with nothing in its parentheses. -/
inductive MarksNothing (text : Text) : Prop
  | function (span : Text)
      (marked : markedSpan? functionMarker text = some span)
      (blank : IsBlankSignature (Text.trim span))
  | object (noFunction : markedSpan? functionMarker text = none)
      (marked : markedSpan? objectMarker text = some [])
  | enum (noFunction : markedSpan? functionMarker text = none)
      (noObject : markedSpan? objectMarker text = none)
      (marked : markedSpan? enumMarker text = some [])

theorem IsBlankSignature.not_mem_pipe {text : Text}
    (blank : IsBlankSignature text) : '|' ∉ text := by
  rcases blank with rfl | ⟨inside, blankInside, rfl⟩
  · exact List.not_mem_nil
  · have absent : '|' ∉ inside := fun member =>
      absurd (blankInside _ member) (by decide)
    simp [absent]

theorem isBlankSignature_unescapePipes {span : Text} :
    IsBlankSignature (Text.trim (Text.unescapePipes span)) ↔
      IsBlankSignature (Text.trim span) := by
  have pipeVisible : Text.isBlank '|' = false := by decide
  by_cases member : '|' ∈ Text.unescapePipes span
  · constructor
    · intro blank
      exact absurd ((Text.mem_trim_iff pipeVisible).mpr member)
        blank.not_mem_pipe
    · intro blank
      have written := Text.mem_of_mem_unescapePipes member
      exact absurd ((Text.mem_trim_iff pipeVisible).mpr written)
        blank.not_mem_pipe
  · rw [Text.unescapePipes_eq_self member]

theorem unescapePipes_eq_nil_iff {text : Text} :
    Text.unescapePipes text = [] ↔ text = [] := by
  constructor
  · intro empty
    have absent : '|' ∉ Text.unescapePipes text := by
      rw [empty]
      exact List.not_mem_nil
    rw [← Text.unescapePipes_eq_self absent, empty]
  · rintro rfl
    rfl

theorem MarksNothing.pieceForm_eq {text : Text}
    (nothing : MarksNothing text) : pieceForm text = .literal [] := by
  cases nothing with
  | function span marked blank =>
      have empty := stripParentheses_eq_nil_iff.mpr
        (isBlankSignature_unescapePipes.mpr blank)
      rw [pieceForm_of_function marked, empty]
  | object noFunction marked =>
      exact pieceForm_of_object noFunction marked
  | enum noFunction noObject marked =>
      exact pieceForm_of_enum noFunction noObject marked

/-- A form is names, or what a marked code span holds; the latter is empty only
where the bracket marks nothing. -/
theorem pieceForm_cases (text : Text) :
    IsNamed (pieceForm text) ∨
      ∃ content, pieceForm text = .literal content ∧
        (content = [] → MarksNothing text) := by
  rcases function : markedSpan? functionMarker text with _ | span
  swap
  · refine .inr ⟨_, pieceForm_of_function function, ?_⟩
    intro empty
    have blank := stripParentheses_eq_nil_iff.mp empty
    exact .function span function (isBlankSignature_unescapePipes.mp blank)
  rcases object : markedSpan? objectMarker text with _ | span
  swap
  · refine .inr ⟨span, pieceForm_of_object function object, ?_⟩
    rintro rfl
    exact .object function object
  rcases enum : markedSpan? enumMarker text with _ | span
  swap
  · refine .inr ⟨_, pieceForm_of_enum function object enum, ?_⟩
    intro empty
    rw [unescapePipes_eq_nil_iff.mp empty] at enum
    exact .enum function object enum
  exact .inl (isNamed_pieceForm function object enum)

theorem IsNamed.members_ne_nil {form : TypeForm} (named : IsNamed form) :
    form.members ≠ [] := by
  cases named with
  | simple name => exact List.cons_ne_nil _ _
  | union several =>
      exact List.ne_nil_of_length_pos (Nat.lt_of_lt_of_le Nat.two_pos several)

theorem members_pieceForm_ne_nil (text : Text) :
    (pieceForm text).members ≠ [] := by
  rcases pieceForm_cases text with named | ⟨content, form, -⟩
  · exact named.members_ne_nil
  · rw [form]
    exact List.cons_ne_nil _ _

/-! ## Texts with slashes -/

/-- Alternatives between slashes are names; without any the union is empty. -/
theorem slashForm_cases (text : Text) :
    (IsNamed (slashForm text) ∧ slashAlternatives text ≠ []) ∨
      (slashForm text = .union [] ∧ slashAlternatives text = []) := by
  by_cases empty : slashAlternatives text = []
  · refine .inr ⟨?_, empty⟩
    rw [slashForm, empty]
    rfl
  · refine .inl ⟨?_, empty⟩
    have nonempty : (slashAlternatives text).flatMap
        (fun piece => (pieceForm piece).members) ≠ [] := by
      intro none
      obtain ⟨piece, member⟩ := List.exists_mem_of_ne_nil _ empty
      exact members_pieceForm_ne_nil piece
        (List.flatMap_eq_nil_iff.mp none piece member)
    unfold slashForm
    generalize (slashAlternatives text).flatMap
      (fun piece => (pieceForm piece).members) = members at nonempty ⊢
    rcases members with _ | ⟨first, _ | ⟨second, others⟩⟩
    · exact absurd rfl nonempty
    · exact .simple first
    · exact .union (by simp)

/-! ## Whole expressions -/

theorem normalForm_of_slashes {raw : Text}
    (slashes : 1 < (slashPieces (Text.trim raw)).length) :
    normalForm raw = slashForm (Text.trim raw) := by
  have applies : slashRule.applies (Text.trim raw) = true :=
    decide_eq_true slashes
  rw [normalForm, matchingRule, rules, firstRule_of_applies _ applies]
  rfl

theorem normalForm_of_piece {raw : Text}
    (piece : (slashPieces (Text.trim raw)).length ≤ 1) :
    normalForm raw = pieceForm (Text.trim raw) := by
  have fails : slashRule.applies (Text.trim raw) = false :=
    decide_eq_false (Nat.not_lt.mpr piece)
  rw [normalForm, matchingRule, rules, firstRule_of_fails _ fails]
  rfl

/-- An expression of slashes around nothing. -/
def IsBlankChoice (raw : Text) : Prop :=
  '/' ∈ raw ∧
    ∀ character ∈ raw, character = '/' ∨ Text.isBlank character = true

theorem isBlankChoice_iff {raw : Text} :
    IsBlankChoice raw ↔
      1 < (slashPieces (Text.trim raw)).length ∧
        slashAlternatives (Text.trim raw) = [] := by
  have slashVisible : Text.isBlank '/' = false := by decide
  have sameCharacters :
      (∀ character ∈ raw, character = '/' ∨ Text.isBlank character = true) ↔
        ∀ character ∈ Text.trim raw,
          character = '/' ∨ Text.isBlank character = true := by
    apply forall_congr'
    intro character
    cases visible : Text.isBlank character with
    | true => simp
    | false => rw [Text.mem_trim_iff visible]
  rw [IsBlankChoice, sameCharacters, ← Text.mem_trim_iff slashVisible,
    slashAlternatives_eq_nil_iff]
  apply and_congr_left
  intro blank
  have noTick : tick ∉ Text.trim raw := by
    intro member
    rcases blank tick member with isSlash | isBlank
    · exact absurd isSlash (by decide)
    · exact absurd isBlank (by decide)
  rw [slashPieces, length_splitOutsideSpans noTick, Nat.lt_add_left_iff_pos,
    List.count_pos_iff]

/-- An expression that is brought to a form without text: slashes around
nothing or, without slashes, a bracket that marks nothing. -/
def IsVoid (raw : Text) : Prop :=
  IsBlankChoice raw ∨
    ((slashPieces (Text.trim raw)).length ≤ 1 ∧ MarksNothing (Text.trim raw))

section Void

variable {raw : Text}

theorem isVoid_iff_of_slashes
    (slashes : 1 < (slashPieces (Text.trim raw)).length) :
    IsVoid raw ↔ slashAlternatives (Text.trim raw) = [] := by
  rw [IsVoid, isBlankChoice_iff]
  constructor
  · rintro (⟨-, empty⟩ | ⟨piece, -⟩)
    · exact empty
    · exact absurd slashes (Nat.not_lt.mpr piece)
  · intro empty
    exact .inl ⟨slashes, empty⟩

theorem isVoid_iff_of_piece
    (piece : (slashPieces (Text.trim raw)).length ≤ 1) :
    IsVoid raw ↔ MarksNothing (Text.trim raw) := by
  rw [IsVoid, isBlankChoice_iff]
  constructor
  · rintro (⟨slashes, -⟩ | ⟨-, nothing⟩)
    · exact absurd slashes (Nat.not_lt.mpr piece)
    · exact nothing
  · intro nothing
    exact .inr ⟨piece, nothing⟩

end Void

/-- A normal form is names, or alternatives of which there are none, or what a
marked code span holds; void expressions are those whose form has no text. -/
theorem normalForm_cases (raw : Text) :
    (IsNamed (normalForm raw) ∧ ¬ IsVoid raw) ∨
      (normalForm raw = .union [] ∧ IsVoid raw) ∨
        ∃ content, normalForm raw = .literal content ∧
          (content = [] ↔ IsVoid raw) := by
  rcases Nat.lt_or_ge 1 (slashPieces (Text.trim raw)).length
    with slashes | piece
  · rw [normalForm_of_slashes slashes, isVoid_iff_of_slashes slashes]
    rcases slashForm_cases (Text.trim raw) with named | empty
    · exact .inl named
    · exact .inr (.inl empty)
  · rw [normalForm_of_piece piece, isVoid_iff_of_piece piece]
    rcases pieceForm_cases (Text.trim raw)
      with named | ⟨content, form, nothing⟩
    · refine .inl ⟨named, ?_⟩
      intro nothing
      rw [nothing.pieceForm_eq] at named
      exact nomatch named
    · refine .inr (.inr ⟨content, form, nothing, ?_⟩)
      intro marks
      exact TypeForm.literal.inj (form.symm.trans marks.pieceForm_eq)

end ComponentDocs.TypeExpression
