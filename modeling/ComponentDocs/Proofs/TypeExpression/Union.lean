import ComponentDocs.Proofs.Text.Escape
import ComponentDocs.Proofs.TypeExpression.Search
import ComponentDocs.Proofs.TypeExpression.Span

/-!
Unions as they are written: members with their pipes escaped and an open pipe
between two of them, bare, in a bracket or in a code span. All three are brought
to the members, and a single member is brought to a name.
-/

namespace ComponentDocs

namespace Text

/-! ## Blanks around pieces -/

/-- Blanks around a text do not count in its trimmed pieces. -/
theorem map_trim_splitOn {separator : Char}
    (visible : isBlank separator = false) (before text after : Text)
    (blankBefore : ∀ character ∈ before, isBlank character = true)
    (blankAfter : ∀ character ∈ after, isBlank character = true) :
    ((before ++ text ++ after).splitOn separator).map trim =
      (text.splitOn separator).map trim := by
  induction size : text.length using Nat.strong_induction_on
    generalizing before text after with
  | _ length inductionHypothesis =>
    by_cases member : separator ∈ text
    · -- The blanks stand around the two parts, which are shorter.
      obtain ⟨first, second, rfl⟩ := List.append_of_mem member
      have sizes : first.length + (second.length + 1) = length := by
        simpa using size
      have firstPieces :
          ((before ++ first).splitOn separator).map trim =
            (first.splitOn separator).map trim := by
        simpa using inductionHypothesis first.length (by omega) before first []
          blankBefore (by simp) rfl
      have secondPieces :
          ((second ++ after).splitOn separator).map trim =
            (second.splitOn separator).map trim :=
        inductionHypothesis second.length (by omega) [] second after
          (by simp) blankAfter rfl
      have parts :
          before ++ (first ++ separator :: second) ++ after =
            (before ++ first) ++ separator :: (second ++ after) := by
        simp
      rw [parts, List.splitOn_append_cons_self, List.map_append, firstPieces,
        secondPieces, List.splitOn_append_cons_self, List.map_append]
    · have absent : separator ∉ before ++ text ++ after := by
        rw [List.mem_append, List.mem_append]
        rintro ((inBefore | inText) | inAfter)
        · exact absurd (blankBefore _ inBefore) (by simp [visible])
        · exact member inText
        · exact absurd (blankAfter _ inAfter) (by simp [visible])
      rw [List.splitOn_eq_singleton absent, List.splitOn_eq_singleton member,
        List.map_singleton, List.map_singleton,
        trim_append_append before blankBefore text blankAfter]

theorem map_trim_splitOn_trim {separator : Char}
    (visible : isBlank separator = false) (text : Text) :
    ((trim text).splitOn separator).map trim =
      (text.splitOn separator).map trim := by
  obtain ⟨before, after, parts, blankBefore, blankAfter⟩ := exists_trim text
  conv_rhs => rw [parts]
  exact (map_trim_splitOn visible before _ after blankBefore blankAfter).symm

/-! ## Texts between spaced pipes -/

/-- The pipe between two members of a union, with the spaces around it. -/
def spacedPipe : Text :=
  " | ".toList

theorem join_spacedPipe (first second : Text) (others : List Text) :
    join spacedPipe (first :: second :: others) =
      (first ++ [' ']) ++ '|' :: ([' '] ++ join spacedPipe (second :: others)) := by
  simp [spacedPipe]

theorem hidePipes_spacedPipe_append (stand : Char) (first rest : Text) :
    hidePipes stand (first ++ spacedPipe ++ rest) =
      hidePipes stand first ++ spacedPipe ++ hidePipes stand rest := by
  have closed : ([' '] : Text).getLast? = some '\\' →
      rest.head? ≠ some '|' := by
    simp
  have spaced : hidePipes stand (spacedPipe ++ rest) =
      spacedPipe ++ hidePipes stand rest := by
    have plain : hidePipes stand spacedPipe = spacedPipe :=
      hidePipes_eq_self stand (by decide)
    rw [hidePipes_append stand (by simp [spacedPipe]), plain]
  rw [List.append_assoc, hidePipes_append stand (by simp [spacedPipe]),
    spaced, List.append_assoc]

/-- Between spaced pipes no pipe is escaped. -/
theorem hidePipes_join_spacedPipe (stand : Char) (texts : List Text) :
    hidePipes stand (join spacedPipe texts) =
      join spacedPipe (texts.map (hidePipes stand)) := by
  induction texts with
  | nil =>
      rfl
  | cons first rest inductionHypothesis =>
      cases rest with
      | nil =>
          rfl
      | cons second others =>
          rw [join_cons_cons, hidePipes_spacedPipe_append,
            inductionHypothesis]
          rfl

/-- Splitting at the pipes gives the texts back, up to blanks around them. -/
theorem map_trim_splitOn_join {texts : List Text} (nonempty : texts ≠ [])
    (absent : ∀ text ∈ texts, '|' ∉ text) :
    ((join spacedPipe texts).splitOn '|').map trim = texts.map trim := by
  have visible : isBlank '|' = false := by decide
  induction texts with
  | nil =>
      exact absurd rfl nonempty
  | cons first rest inductionHypothesis =>
      obtain ⟨notFirst, notRest⟩ := List.forall_mem_cons.mp absent
      have firstPiece : first.splitOn '|' = [first] :=
        List.splitOn_eq_singleton notFirst
      cases rest with
      | nil =>
          rw [join, firstPiece]
      | cons second others =>
          have before :
              ((first ++ [' ']).splitOn '|').map trim =
                (first.splitOn '|').map trim :=
            map_trim_splitOn visible [] first [' '] (by simp)
              fun _ => isBlank_of_mem_space
          have after :
              (([' '] ++ join spacedPipe (second :: others)).splitOn '|').map
                  trim =
                ((join spacedPipe (second :: others)).splitOn '|').map
                  trim := by
            simpa using map_trim_splitOn visible [' ']
              (join spacedPipe (second :: others)) []
              (fun _ => isBlank_of_mem_space) (by simp)
          rw [join_spacedPipe, List.splitOn_append_cons_self, List.map_append,
            before, after, firstPiece,
            inductionHypothesis (List.cons_ne_nil _ _) notRest]
          rfl

/-- A piece without spaces stands in one of the texts. -/
theorem isInfix_join_spacedPipe {piece : Text} {texts : List Text}
    (nonempty : piece ≠ []) (spaceless : ' ' ∉ piece) (pipeless : '|' ∉ piece)
    (occurs : piece <:+: join spacedPipe texts) :
    ∃ text ∈ texts, piece <:+: text := by
  induction texts with
  | nil =>
      exact absurd (List.infix_nil.mp occurs) nonempty
  | cons first rest inductionHypothesis =>
      cases rest with
      | nil =>
          exact ⟨first, List.mem_cons_self, occurs⟩
      | cons second others =>
          have parts :
              join spacedPipe (first :: second :: others) =
                first ++ ' ' :: '|' :: ' ' ::
                  join spacedPipe (second :: others) := by
            simp [spacedPipe]
          rw [parts] at occurs
          rcases isInfix_append_cons spaceless occurs with inFirst | behind
          · exact ⟨first, List.mem_cons_self, inFirst⟩
          · have inRest := isInfix_of_isInfix_cons spaceless
              (isInfix_of_isInfix_cons pipeless behind)
            obtain ⟨text, member, inText⟩ := inductionHypothesis inRest
            exact ⟨text, List.mem_cons_of_mem _ member, inText⟩

end Text

namespace TypeExpression

/-! ## Blanks around alternatives -/

theorem hasOpenPipe_iff {text : Text} :
    hasOpenPipe text = true ↔ '|' ∈ Text.hidePipes pipeStand text := by
  rw [Text.mem_hidePipes_iff (by decide)]
  exact List.contains_iff_mem

theorem hasOpenPipe_trim (text : Text) :
    hasOpenPipe (Text.trim text) = hasOpenPipe text := by
  rw [Bool.eq_iff_iff, hasOpenPipe_iff, hasOpenPipe_iff,
    ← Text.trim_hidePipes pipeStand (by decide)]
  exact Text.mem_trim_iff (by decide)

theorem splitAlternatives_eq (text : Text) :
    splitAlternatives text =
      (((Text.hidePipes pipeStand text).splitOn '|').map Text.trim).map
        (Text.showPipes pipeStand ['|']) := by
  rw [splitAlternatives, List.map_map]
  rfl

theorem splitAlternatives_trim (text : Text) :
    splitAlternatives (Text.trim text) = splitAlternatives text := by
  rw [splitAlternatives_eq, splitAlternatives_eq,
    ← Text.trim_hidePipes pipeStand (by decide),
    Text.map_trim_splitOn_trim (by decide)]

/-- Blanks around a content do not count. -/
theorem formOfContent_trim (content : Text) :
    formOfContent (Text.trim content) = formOfContent content := by
  rw [formOfContent, formOfContent, hasOpenPipe_trim, splitAlternatives_trim,
    Text.trim_unescapePipes, Text.trim_unescapePipes, Text.trim_trim]

/-! ## Written members -/

/-- The members with their pipes escaped and an open pipe between two of
them. -/
def unionText (members : List Text) : Text :=
  Text.join Text.spacedPipe (members.map Text.escapePipes)

/-- The form with these members: a name if there is one of them, and else their
union. -/
def formOfMembers : List Text → TypeForm
  | [member] => .simple member
  | members => .union members

theorem hidePipes_unionText (members : List Text) :
    Text.hidePipes pipeStand (unionText members) =
      Text.join Text.spacedPipe
        (members.map (Text.coverPipes pipeStand)) := by
  rw [unionText, Text.hidePipes_join_spacedPipe, List.map_map]
  congr 1
  apply List.map_congr_left
  intro member _
  exact Text.hidePipes_escapePipes pipeStand member

theorem trim_coverPipes {member : Text} (trimmed : Text.trim member = member) :
    Text.trim (Text.coverPipes pipeStand member) =
      Text.coverPipes pipeStand member := by
  rw [← Text.hidePipes_escapePipes,
    Text.trim_hidePipes pipeStand (by decide), Text.trim_escapePipes trimmed]

section Members

variable {members : List Text}
  (trimmed : ∀ member ∈ members, Text.trim member = member)

include trimmed

theorem splitAlternatives_unionText (nonempty : members ≠ [])
    (fresh : ∀ member ∈ members, pipeStand ∉ member) :
    splitAlternatives (unionText members) = members := by
  have covered :
      ∀ text ∈ members.map (Text.coverPipes pipeStand), '|' ∉ text := by
    intro text isCovered
    obtain ⟨member, -, rfl⟩ := List.mem_map.mp isCovered
    exact Text.not_mem_coverPipes (by decide) member
  have nonemptyCovered : members.map (Text.coverPipes pipeStand) ≠ [] := by
    simpa using nonempty
  rw [splitAlternatives_eq, hidePipes_unionText,
    Text.map_trim_splitOn_join nonemptyCovered covered, List.map_map,
    List.map_map]
  conv_rhs => rw [← List.map_id members]
  apply List.map_congr_left
  intro member isMember
  rw [Function.comp_apply, Function.comp_apply,
    trim_coverPipes (trimmed member isMember),
    Text.showPipes_coverPipes (fresh member isMember)]
  rfl

/-- What is written as a union has the form of its members. -/
theorem formOfContent_unionText (nonempty : members ≠ [])
    (fresh : ∀ member ∈ members, pipeStand ∉ member) :
    formOfContent (unionText members) = formOfMembers members := by
  rcases members with _ | ⟨first, _ | ⟨second, others⟩⟩
  · exact absurd rfl nonempty
  · have notOpen : ¬ hasOpenPipe (unionText [first]) = true := by
      rw [hasOpenPipe_iff, hidePipes_unionText]
      exact Text.not_mem_coverPipes (by decide) first
    have whole : unionText [first] = Text.escapePipes first := rfl
    rw [formOfContent, if_neg notOpen, whole,
      Text.unescapePipes_escapePipes, trimmed first (List.mem_singleton_self _)]
    rfl
  · have isOpen :
        hasOpenPipe (unionText (first :: second :: others)) = true := by
      rw [hasOpenPipe_iff, hidePipes_unionText, List.map_cons, List.map_cons,
        Text.join_spacedPipe]
      simp
    rw [formOfContent, if_pos isOpen,
      splitAlternatives_unionText trimmed nonempty fresh]
    rfl

end Members

/-! ## Bare contents, brackets and code spans -/

/-- How a content is written. -/
inductive Wrapping
  | bare
  | bracket
  | span
deriving DecidableEq

def Wrapping.wrap (wrapping : Wrapping) (content : Text) : Text :=
  match wrapping with
  | .bare => content
  | .bracket => opening ++ content ++ [']']
  | .span => tick :: (content ++ [tick])

/-- A text that can stand in a wrapping: without ticks and brackets of its own,
without open slashes and, in a bracket, without its end. -/
structure IsWrappable (wrapping : Wrapping) (text : Text) : Prop where
  noTick : tick ∉ text
  unopened : ¬ opening <:+: text
  unslashed : wrapping ≠ .span → '/' ∉ text
  unclosed : wrapping = .bracket → ']' ∉ text

instance (wrapping : Wrapping) (text : Text) :
    Decidable (IsWrappable wrapping text) :=
  decidable_of_iff
    (tick ∉ text ∧ ¬ opening <:+: text ∧
      (wrapping ≠ .span → '/' ∉ text) ∧ (wrapping = .bracket → ']' ∉ text))
    ⟨fun ⟨noTick, unopened, unslashed, unclosed⟩ =>
        ⟨noTick, unopened, unslashed, unclosed⟩,
      fun isWrappable =>
        ⟨isWrappable.noTick, isWrappable.unopened, isWrappable.unslashed,
          isWrappable.unclosed⟩⟩

section Piece

variable {text : Text}

theorem plainForm_of_unopened (unopened : ¬ opening <+: text) :
    plainForm text = .simple (Text.trim text) := by
  unfold plainForm
  split
  · rename_i rest
    exact absurd (List.prefix_append opening rest) unopened
  · rfl

/-- Without brackets and code spans, a text is read as a content. -/
theorem pieceForm_of_bare (noTick : tick ∉ text)
    (unopened : ¬ opening <:+: text) :
    pieceForm text = formOfContent text := by
  have unmarked (name : Text) : markedSpan? name text = none :=
    markedSpan?_of_unopened name unopened
  have noBracket : bracketRule.applies text = false :=
    congrArg Option.isSome (bracket?_eq_none unopened)
  have noSpan : spanRule.applies text = false := by
    have absent : (span? text).isSome = false :=
      congrArg Option.isSome (span?_eq_none noTick)
    change ((span? text).isSome && !hasMarker text) = false
    rw [absent, Bool.false_and]
  rw [pieceForm_of_unmarked (unmarked _) (unmarked _) (unmarked _),
    firstRule_of_fails _ noBracket, firstRule_of_fails _ noSpan,
    formOfContent]
  by_cases isOpen : hasOpenPipe text = true
  · rw [if_pos isOpen, firstRule_of_applies _ isOpen]
    rfl
  · have notOpen : openPipeRule.applies text = false :=
      Bool.eq_false_iff.mpr isOpen
    rw [if_neg isOpen, firstRule_of_fails _ notOpen]
    by_cases isEscaped : escapedPipeRule.applies text = true
    · rw [firstRule_of_applies _ isEscaped]
      rfl
    · have notEscaped : ¬ Text.escapedPipe <:+: text :=
        mt Text.hasPiece_iff_isInfix.mpr isEscaped
      rw [firstRule_of_fails _ (Bool.eq_false_iff.mpr isEscaped),
        firstRule_of_applies [] rfl,
        Text.unescapePipes_of_not_isInfix notEscaped]
      exact plainForm_of_unopened fun starts => unopened starts.isInfix

theorem normalForm_bare (isContent : IsWrappable .bare text) :
    normalForm text = formOfContent text := by
  have unslashed : '/' ∉ Text.trim text := fun member =>
    isContent.unslashed (by decide) (Text.trim_subset text member)
  have single : (slashPieces (Text.trim text)).length ≤ 1 := by
    rw [slashPieces_eq_singleton (isSpanned_of_not_mem false unslashed)]
    exact Nat.le_refl 1
  rw [normalForm_of_piece single, ← formOfContent_trim]
  apply pieceForm_of_bare
  · exact fun member => isContent.noTick (Text.trim_subset text member)
  · exact fun inTrimmed =>
      isContent.unopened (inTrimmed.trans (Text.trim_isInfix text))

theorem normalForm_bracket (isContent : IsWrappable .bracket text) :
    normalForm (Wrapping.bracket.wrap text) = formOfContent text := by
  rw [Wrapping.wrap]
  have trimmed :
      Text.trim (opening ++ text ++ [']']) = opening ++ text ++ [']'] :=
    Text.trim_append_eq_self text (by decide) (by decide) (by decide)
      (by decide)
  have absent {character : Char} (notText : character ∉ text)
      (notSign : character ∉ opening ++ [']']) :
      character ∉ opening ++ text ++ [']'] := by
    rw [List.mem_append] at notSign
    rw [List.mem_append, List.mem_append]
    rintro ((isOpening | inText) | isEnd)
    · exact notSign (.inl isOpening)
    · exact notText inText
    · exact notSign (.inr isEnd)
  have unslashed : '/' ∉ opening ++ text ++ [']'] :=
    absent (isContent.unslashed (by decide)) (by decide)
  have unmarked (name : Text) :
      markedSpan? name (opening ++ text ++ [']']) = none := by
    apply markedSpan?_of_few
    rw [List.count_eq_zero.mpr (absent isContent.noTick (by decide))]
    exact Nat.zero_le 1
  have found : bracket? (opening ++ text ++ [']']) = some text := by
    apply firstAt?_of_eq_some
    rw [List.append_assoc]
    exact bracketAtStart?_append (isContent.unclosed rfl) []
  have applies : bracketRule.applies (opening ++ text ++ [']']) = true :=
    congrArg Option.isSome found
  have form : bracketRule.form (opening ++ text ++ [']']) =
      formOfContent ((bracket? (opening ++ text ++ [']'])).getD
        (opening ++ text ++ [']'])) := rfl
  rw [normalForm_of_isSpanned trimmed (isSpanned_of_not_mem false unslashed),
    pieceForm_of_unmarked (unmarked _) (unmarked _) (unmarked _),
    firstRule_of_applies _ applies, form, found, Option.getD_some]

theorem normalForm_span (isContent : IsWrappable .span text) :
    normalForm (Wrapping.span.wrap text) = formOfContent text := by
  rw [Wrapping.wrap]
  have trimmed :
      Text.trim (tick :: (text ++ [tick])) = tick :: (text ++ [tick]) := by
    change Text.trim ([tick] ++ text ++ [tick]) = [tick] ++ text ++ [tick]
    exact Text.trim_append_eq_self text (by decide) (by decide) (by decide)
      (by decide)
  have spanned : IsSpanned '/' false (tick :: (text ++ [tick])) :=
    isSpanned_append_span [] (by decide) List.not_mem_nil
      List.not_mem_nil isContent.noTick
  have unopened : ¬ opening <:+: tick :: (text ++ [tick]) := by
    intro occurs
    have inside := Text.isInfix_of_isInfix_cons (by decide) occurs
    rcases Text.isInfix_append_cons (by decide) inside with inText | behind
    · exact isContent.unopened inText
    · exact absurd (List.infix_nil.mp behind) (by decide)
  have unmarked (name : Text) :
      markedSpan? name (tick :: (text ++ [tick])) = none :=
    markedSpan?_of_unopened name unopened
  have noBracket : bracketRule.applies (tick :: (text ++ [tick])) = false :=
    congrArg Option.isSome (bracket?_eq_none unopened)
  have found : span? (tick :: (text ++ [tick])) = some text :=
    firstAt?_of_eq_some (spanAtStart?_append isContent.noTick [])
  have applies : spanRule.applies (tick :: (text ++ [tick])) = true := by
    change ((span? (tick :: (text ++ [tick]))).isSome &&
      !hasMarker (tick :: (text ++ [tick]))) = true
    rw [found, hasMarker_eq_false unopened]
    rfl
  have form : spanRule.form (tick :: (text ++ [tick])) =
      formOfContent ((span? (tick :: (text ++ [tick]))).getD
        (tick :: (text ++ [tick]))) := rfl
  rw [normalForm_of_isSpanned trimmed spanned,
    pieceForm_of_unmarked (unmarked _) (unmarked _) (unmarked _),
    firstRule_of_fails _ noBracket, firstRule_of_applies _ applies, form,
    found, Option.getD_some]

/-- However a content is wrapped, it has the same form. -/
theorem normalForm_wrap {wrapping : Wrapping}
    (isContent : IsWrappable wrapping text) :
    normalForm (wrapping.wrap text) = formOfContent text := by
  cases wrapping with
  | bare => exact normalForm_bare isContent
  | bracket => exact normalForm_bracket isContent
  | span => exact normalForm_span isContent

end Piece

/-! ## Unions -/

/-- A member that can be written in a wrapping: trimmed, and without the
character that stands for its pipes while the union is split. -/
structure IsUnionMember (wrapping : Wrapping) (member : Text) : Prop
    extends IsWrappable wrapping member where
  trimmed : Text.trim member = member
  fresh : pipeStand ∉ member

instance (wrapping : Wrapping) (member : Text) :
    Decidable (IsUnionMember wrapping member) :=
  decidable_of_iff
    (IsWrappable wrapping member ∧ Text.trim member = member ∧
      pipeStand ∉ member)
    ⟨fun ⟨isWrappable, trimmed, fresh⟩ => ⟨isWrappable, trimmed, fresh⟩,
      fun isMember =>
        ⟨isMember.toIsWrappable, isMember.trimmed, isMember.fresh⟩⟩

theorem isWrappable_unionText {wrapping : Wrapping} {members : List Text}
    (each : ∀ member ∈ members, IsWrappable wrapping member) :
    IsWrappable wrapping (unionText members) := by
  have absent {character : Char} (notSign : character ∉ '\\' :: Text.spacedPipe)
      (notMember : ∀ member ∈ members, character ∉ member) :
      character ∉ unionText members := by
    obtain ⟨notBackslash, notPipe⟩ := not_or.mp (mt List.mem_cons.mpr notSign)
    intro inUnion
    rcases Text.mem_join inUnion with isPipe | ⟨text, isText, inText⟩
    · exact notPipe isPipe
    · obtain ⟨member, isMember, rfl⟩ := List.mem_map.mp isText
      exact notMember member isMember
        (Text.mem_escapePipes notBackslash inText)
  constructor
  · apply absent (by decide)
    intro member isMember
    exact (each member isMember).noTick
  · intro occurs
    obtain ⟨text, isText, inText⟩ :=
      Text.isInfix_join_spacedPipe (by decide) (by decide) (by decide) occurs
    obtain ⟨member, isMember, rfl⟩ := List.mem_map.mp isText
    exact (each member isMember).unopened
      (Text.isInfix_of_escapePipes (by decide) (by decide) inText)
  · intro notSpan
    apply absent (by decide)
    intro member isMember
    exact (each member isMember).unslashed notSpan
  · intro isBracket
    apply absent (by decide)
    intro member isMember
    exact (each member isMember).unclosed isBracket

/-- A union written with escaped pipes, in any of the wrappings, is brought to
its members in order, and a single member to its name. -/
theorem normalForm_unionText {wrapping : Wrapping} {members : List Text}
    (nonempty : members ≠ [])
    (each : ∀ member ∈ members, IsUnionMember wrapping member) :
    normalForm (wrapping.wrap (unionText members)) =
      formOfMembers members := by
  have isContent : IsWrappable wrapping (unionText members) :=
    isWrappable_unionText fun member isMember =>
      (each member isMember).toIsWrappable
  have trimmed : ∀ member ∈ members, Text.trim member = member :=
    fun member isMember => (each member isMember).trimmed
  have fresh : ∀ member ∈ members, pipeStand ∉ member :=
    fun member isMember => (each member isMember).fresh
  rw [normalForm_wrap isContent,
    formOfContent_unionText trimmed nonempty fresh]

/-- A member without text, one with a pipe and one that ends in a backslash. -/
def choiceMembers : List Text :=
  [[], "a|b".toList, "c\\".toList]

/-- In a code span a member may have slashes and square brackets. -/
def pathMembers : List Text :=
  ["'a/b'".toList, "c[]|d".toList]

theorem choice_normalForm :
    normalForm " | a\\|b | c\\".toList = .union choiceMembers ∧
      normalForm "^[ | a\\|b | c\\]".toList = .union choiceMembers ∧
      normalForm "\x60'a/b' | c[]\\|d\x60".toList = .union pathMembers ∧
      normalForm "a\\|b".toList = .simple "a|b".toList := by
  have bare : " | a\\|b | c\\".toList =
      Wrapping.bare.wrap (unionText choiceMembers) := by
    decide
  have bracket : "^[ | a\\|b | c\\]".toList =
      Wrapping.bracket.wrap (unionText choiceMembers) := by
    decide
  have span : "\x60'a/b' | c[]\\|d\x60".toList =
      Wrapping.span.wrap (unionText pathMembers) := by
    decide
  have single : "a\\|b".toList =
      Wrapping.bare.wrap (unionText ["a|b".toList]) := by
    decide
  rw [bare, bracket, span, single,
    normalForm_unionText (by decide) (by decide),
    normalForm_unionText (by decide) (by decide),
    normalForm_unionText (by decide) (by decide),
    normalForm_unionText (by decide) (by decide)]
  exact ⟨rfl, rfl, rfl, rfl⟩

end TypeExpression

end ComponentDocs
