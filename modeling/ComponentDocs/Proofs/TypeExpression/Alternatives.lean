import ComponentDocs.Proofs.Text.Pieces
import ComponentDocs.Proofs.TypeExpression.Span

/-!
Alternatives between slashes: the form of the whole has the members of the forms
of its parts, in order. A union has several members, and only an expression of
slashes around nothing gives one without any.
-/

namespace ComponentDocs

namespace Text

theorem trim_join {separator : Text} {texts : List Text} (nonempty : texts ≠ [])
    (each : ∀ text ∈ texts, text ≠ [] ∧ trim text = text) :
    trim (join separator texts) = join separator texts := by
  apply trim_eq_self
  · intro character starts
    obtain ⟨first, rest, rfl⟩ := List.exists_cons_of_ne_nil nonempty
    obtain ⟨firstNonempty, trimmed⟩ := each first List.mem_cons_self
    obtain ⟨head, tail, rfl⟩ := List.exists_cons_of_ne_nil firstNonempty
    have startsWhole :
        (join separator ((head :: tail) :: rest)).head? = some head :=
      head?_join rfl
    obtain rfl : head = character :=
      Option.some.inj (startsWhole.symm.trans starts)
    exact (trim_eq_self_iff.mp trimmed).1 head rfl
  · intro character ends
    obtain ⟨before, last, rfl⟩ :=
      (List.eq_nil_or_concat' texts).resolve_left nonempty
    obtain ⟨lastNonempty, trimmed⟩ := each last (by simp)
    obtain ⟨inside, final, rfl⟩ :=
      (List.eq_nil_or_concat' last).resolve_left lastNonempty
    have endsWhole :
        (join separator (before ++ [inside ++ [final]])).getLast? =
          some final :=
      getLast?_join List.getLast?_concat
    obtain rfl : final = character :=
      Option.some.inj (endsWhole.symm.trans ends)
    exact (trim_eq_self_iff.mp trimmed).2 final List.getLast?_concat

/-- Joining lists of texts one after another joins what each of them gives. -/
theorem join_flatMap (separator : Text) {parts : List Text}
    {members : Text → List Text}
    (nonempty : ∀ part ∈ parts, members part ≠ []) :
    join separator (parts.flatMap members) =
      join separator (parts.map fun part => join separator (members part)) := by
  induction parts with
  | nil =>
      rfl
  | cons first rest inductionHypothesis =>
      obtain ⟨firstNonempty, others⟩ := List.forall_mem_cons.mp nonempty
      have later := inductionHypothesis others
      cases rest with
      | nil =>
          rw [List.flatMap_singleton]
          rfl
      | cons second further =>
          have laterNonempty : (second :: further).flatMap members ≠ [] := by
            intro empty
            exact others second List.mem_cons_self
              (List.flatMap_eq_nil_iff.mp empty second List.mem_cons_self)
          rw [List.flatMap_cons, join_append separator firstNonempty
            laterNonempty, later]
          rfl

end Text

namespace TypeExpression

/-! ## Parts between slashes -/

/-- A part of a choice: visible at both ends, with its ticks in pairs, and with
slashes only behind an odd number of ticks. -/
structure IsAlternative (text : Text) : Prop where
  nonempty : text ≠ []
  trimmed : Text.trim text = text
  even : Even (text.count tick)
  spanned : ∀ before, before ++ ['/'] <+: text → Odd (before.count tick)

instance (text : Text) : Decidable (IsAlternative text) :=
  decidable_of_iff
    (text ≠ [] ∧ Text.trim text = text ∧ Even (text.count tick) ∧
      ∀ before ∈ text.inits,
        before ++ ['/'] <+: text → Odd (before.count tick))
    ⟨fun ⟨nonempty, trimmed, even, spanned⟩ =>
        ⟨nonempty, trimmed, even, fun before starts =>
          spanned before ((List.mem_inits before text).mpr
            ((List.prefix_append before _).trans starts)) starts⟩,
      fun alternative =>
        ⟨alternative.nonempty, alternative.trimmed, alternative.even,
          fun before _ => alternative.spanned before⟩⟩

def spacedSlash : Text :=
  " / ".toList

namespace IsAlternative

variable {text : Text} (alternative : IsAlternative text)

include alternative

theorem isSpanned : IsSpanned '/' false text := by
  intro before starts
  exact endsInSpan_eq_true_iff.mpr (alternative.spanned before starts)

theorem pieceForm_eq : pieceForm text = normalForm text :=
  (normalForm_of_isSpanned alternative.trimmed alternative.isSpanned).symm

/-- Behind a part the scan is outside of code spans again, so that the slash
splits. -/
theorem slashPieces_append (rest : Text) :
    slashPieces (text ++ spacedSlash ++ rest) =
      (text ++ [' ']) :: extendFirst ' ' (slashPieces rest) := by
  have outside : endsInSpan false text = false :=
    endsInSpan_eq_false_iff.mpr alternative.even
  have separator :
      splitOutsideSpans '/' false (spacedSlash ++ rest) =
        [' '] :: extendFirst ' ' (splitOutsideSpans '/' false rest) := rfl
  rw [slashPieces, List.append_assoc,
    splitOutsideSpans_append alternative.isSpanned, outside, separator,
    foldr_extendFirst, slashPieces]

end IsAlternative

theorem map_trim_extendFirst {pieces : List Text} (nonempty : pieces ≠ []) :
    (extendFirst ' ' pieces).map Text.trim = pieces.map Text.trim := by
  obtain ⟨piece, others, rfl⟩ := List.exists_cons_of_ne_nil nonempty
  rw [extendFirst, List.map_cons, Text.trim_cons_space, List.map_cons]

section Parts

variable {parts : List Text} (each : ∀ part ∈ parts, IsAlternative part)

include each

theorem map_trim_slashPieces_join (nonempty : parts ≠ []) :
    (slashPieces (Text.join spacedSlash parts)).map Text.trim = parts := by
  induction parts with
  | nil =>
      exact absurd rfl nonempty
  | cons first rest inductionHypothesis =>
      obtain ⟨alternative, others⟩ := List.forall_mem_cons.mp each
      cases rest with
      | nil =>
          rw [Text.join, slashPieces_eq_singleton alternative.isSpanned,
            List.map_singleton, alternative.trimmed]
      | cons second further =>
          have later := inductionHypothesis others (List.cons_ne_nil _ _)
          have laterPieces :
              slashPieces (Text.join spacedSlash (second :: further)) ≠ [] :=
            splitOutsideSpans_ne_nil _ _ _
          have blankBehind : Text.trim (first ++ [' ']) = Text.trim first := by
            simpa using Text.trim_append_append [] (by simp) first
              fun _ => Text.isBlank_of_mem_space
          have firstTrimmed : Text.trim (first ++ [' ']) = first :=
            blankBehind.trans alternative.trimmed
          rw [Text.join_cons_cons, alternative.slashPieces_append,
            List.map_cons, firstTrimmed, map_trim_extendFirst laterPieces,
            later]

theorem slashAlternatives_join (nonempty : parts ≠ []) :
    slashAlternatives (Text.join spacedSlash parts) = parts := by
  rw [slashAlternatives, map_trim_slashPieces_join each nonempty]
  apply List.filter_eq_self.mpr
  intro part member
  simpa using (each part member).nonempty

theorem trim_join_spacedSlash (nonempty : parts ≠ []) :
    Text.trim (Text.join spacedSlash parts) = Text.join spacedSlash parts := by
  apply Text.trim_join nonempty
  intro part member
  exact ⟨(each part member).nonempty, (each part member).trimmed⟩

/-- The members of all parts, which are resolved on their own. -/
theorem flatMap_members :
    (parts.flatMap fun part => (pieceForm part).members) =
      parts.flatMap fun part => (normalForm part).members := by
  apply List.flatMap_congr
  intro part member
  rw [(each part member).pieceForm_eq]

theorem members_normalForm_ne_nil :
    ∀ part ∈ parts, (normalForm part).members ≠ [] := by
  intro part member
  rw [← (each part member).pieceForm_eq]
  exact members_pieceForm_ne_nil part

end Parts

theorem length_le_length_flatMap {parts : List Text}
    {members : Text → List Text}
    (nonempty : ∀ part ∈ parts, members part ≠ []) :
    parts.length ≤ (parts.flatMap members).length := by
  induction parts with
  | nil =>
      exact Nat.le_refl 0
  | cons first rest inductionHypothesis =>
      obtain ⟨firstNonempty, others⟩ := List.forall_mem_cons.mp nonempty
      have here := List.length_pos_of_ne_nil firstNonempty
      have later := inductionHypothesis others
      rw [List.flatMap_cons, List.length_append, List.length_cons]
      omega

theorem slashForm_of_several {text : Text}
    (several : 2 ≤ ((slashAlternatives text).flatMap
      fun piece => (pieceForm piece).members).length) :
    slashForm text = .union ((slashAlternatives text).flatMap
      fun piece => (pieceForm piece).members) := by
  unfold slashForm
  generalize (slashAlternatives text).flatMap
    (fun piece => (pieceForm piece).members) = members at several ⊢
  rcases members with _ | ⟨first, _ | ⟨second, others⟩⟩
  · exact absurd several (by decide)
  · exact absurd several (Nat.not_succ_le_self 1)
  · rfl

theorem display_eq_join (expression : TypeExpression) :
    expression.display =
      Text.join " | ".toList expression.normalized.members := by
  obtain ⟨raw, form⟩ := expression
  cases form with
  | simple name => rfl
  | union members => rfl
  | literal content => rfl

/-- Parts between slashes give the union of their members, in order, and its
display is the displays of the parts between pipes. -/
theorem normalForm_slashJoin {parts : List Text} (several : 2 ≤ parts.length)
    (each : ∀ part ∈ parts, IsAlternative part) :
    normalForm (Text.join spacedSlash parts) =
        .union (parts.flatMap fun part => (normalForm part).members) ∧
      (ofText (Text.join spacedSlash parts)).display =
        Text.join " | ".toList
          (parts.map fun part => (ofText part).display) := by
  have nonempty : parts ≠ [] := by
    rintro rfl
    exact absurd several (by decide)
  have trimmed := trim_join_spacedSlash each nonempty
  have alternatives := slashAlternatives_join each nonempty
  have memberful := members_normalForm_ne_nil each
  have slashes :
      1 < (slashPieces (Text.trim (Text.join spacedSlash parts))).length := by
    have lengths := congrArg List.length
      (map_trim_slashPieces_join each nonempty)
    rw [List.length_map] at lengths
    rw [trimmed, lengths]
    exact several
  have severalMembers :
      2 ≤ (parts.flatMap fun part => (normalForm part).members).length :=
    several.trans (length_le_length_flatMap memberful)
  have form :
      normalForm (Text.join spacedSlash parts) =
        .union (parts.flatMap fun part => (normalForm part).members) := by
    rw [normalForm_of_slashes slashes, trimmed, slashForm_of_several,
      alternatives, flatMap_members each]
    rw [alternatives, flatMap_members each]
    exact severalMembers
  constructor
  · exact form
  · have displays :
        (parts.map fun part => (ofText part).display) =
          parts.map fun part =>
            Text.join " | ".toList (normalForm part).members := by
      apply List.map_congr_left
      intro part _
      exact display_eq_join (ofText part)
    rw [display_eq_join, displays, ← Text.join_flatMap _ memberful, ofText,
      form]
    rfl

/-- A name, two names with a slash in a code span, and a signature. -/
theorem alternatives_slashJoin :
    normalForm "^[a] / \x60'b/c' | d\x60 / ^[Function]\x60(() => e)\x60".toList =
        .union ["a".toList, "'b/c'".toList, "d".toList, "() => e".toList] ∧
      (ofText
        "^[a] / \x60'b/c' | d\x60 / ^[Function]\x60(() => e)\x60".toList).display =
          "a | 'b/c' | d | () => e".toList := by
  have whole :
      "^[a] / \x60'b/c' | d\x60 / ^[Function]\x60(() => e)\x60".toList =
        Text.join spacedSlash ["^[a]".toList, "\x60'b/c' | d\x60".toList,
          "^[Function]\x60(() => e)\x60".toList] := by
    decide
  have several :
      2 ≤ ["^[a]".toList, "\x60'b/c' | d\x60".toList,
        "^[Function]\x60(() => e)\x60".toList].length := by
    decide
  have joined := normalForm_slashJoin several (by decide)
  rw [whole, joined.1, joined.2]
  constructor
  · decide
  · decide

/-! ## Unions without members -/

theorem normalForm_of_isBlankChoice {raw : Text} (blank : IsBlankChoice raw) :
    normalForm raw = .union [] := by
  obtain ⟨slashes, empty⟩ := isBlankChoice_iff.mp blank
  rw [normalForm_of_slashes slashes, slashForm, empty]
  rfl

theorem isBlankChoice_of_normalForm {raw : Text}
    (empty : normalForm raw = .union []) : IsBlankChoice raw := by
  rcases normalForm_cases raw with ⟨named, -⟩ | ⟨-, isVoid⟩ | ⟨content, form, -⟩
  · rw [empty] at named
    exact absurd rfl named.members_ne_nil
  · rcases isVoid with blank | ⟨piece, nothing⟩
    · exact blank
    · rw [normalForm_of_piece piece, nothing.pieceForm_eq] at empty
      cases empty
  · rw [empty] at form
    cases form

/-- A union is a real choice: it has at least two members unless the expression
is slashes around nothing, and exactly those expressions give the union without
members. -/
theorem union_isChoice (raw : Text) :
    (∀ members, normalForm raw = .union members → ¬ IsBlankChoice raw →
        2 ≤ members.length) ∧
      (normalForm raw = .union [] ↔ IsBlankChoice raw) := by
  constructor
  · intro members isUnion notBlank
    rcases normalForm_cases raw with ⟨named, -⟩ | ⟨empty, -⟩ | ⟨content, form, -⟩
    · rw [isUnion] at named
      cases named with
      | union several => exact several
    · exact absurd (isBlankChoice_of_normalForm empty) notBlank
    · rw [isUnion] at form
      cases form
  · exact ⟨isBlankChoice_of_normalForm, normalForm_of_isBlankChoice⟩

/-- Two names are a choice of both, and slashes around nothing are none. -/
theorem choices_union :
    normalForm "a|b".toList = .union ["a".toList, "b".toList] ∧
      2 ≤ ["a".toList, "b".toList].length ∧
      normalForm " // ".toList = .union [] := by
  have isUnion : normalForm "a|b".toList = .union ["a".toList, "b".toList] := by
    decide
  refine ⟨isUnion, ?_, ?_⟩
  · exact (union_isChoice _).1 _ isUnion (by unfold IsBlankChoice; decide)
  · exact (union_isChoice _).2.mpr (by unfold IsBlankChoice; decide)

/-- One slash is brought to a union without members. -/
theorem lone_slash_union :
    ∃ members, normalForm "/".toList = .union members ∧
      ¬ 2 ≤ members.length :=
  ⟨[], normalForm_of_isBlankChoice (by unfold IsBlankChoice; decide), by decide⟩

end TypeExpression

end ComponentDocs
