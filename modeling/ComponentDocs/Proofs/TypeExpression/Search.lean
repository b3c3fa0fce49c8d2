import ComponentDocs.Proofs.Text.Case
import ComponentDocs.Proofs.Text.Pieces
import ComponentDocs.TypeExpression.Rule
import Mathlib.Data.List.Count

/-!
The search for brackets and code spans: which texts have none, and what is found
first. A bracket starts with `^[`, and a code span needs two ticks.
-/

namespace ComponentDocs.TypeExpression

/-- What every bracket starts with. -/
def opening : Text :=
  ['^', '[']

/-! ## Places -/

section Place

variable {find? : Text → Option Text} {text : Text}

theorem firstAt?_of_eq_some {found : Text} (here : find? text = some found) :
    firstAt? find? text = some found := by
  cases text with
  | nil => exact here
  | cons first rest =>
      rw [firstAt?, here]
      rfl

/-- Nothing is found when no place has anything. -/
theorem firstAt?_eq_none
    (nowhere : ∀ place, place <:+ text → find? place = none) :
    firstAt? find? text = none := by
  induction text with
  | nil =>
      exact nowhere [] List.suffix_rfl
  | cons first rest inductionHypothesis =>
      have here := nowhere (first :: rest) List.suffix_rfl
      have later := inductionHypothesis fun place isLater =>
        nowhere place (isLater.trans (List.suffix_cons first rest))
      rw [firstAt?, here, later]
      rfl

/-- The search passes over a text none of whose characters starts anything. -/
theorem firstAt?_append {before rest : Text}
    (nowhere : ∀ first ∈ before, ∀ others, find? (first :: others) = none) :
    firstAt? find? (before ++ rest) = firstAt? find? rest := by
  induction before with
  | nil =>
      rfl
  | cons first before inductionHypothesis =>
      obtain ⟨here, later⟩ := List.forall_mem_cons.mp nowhere
      rw [List.cons_append, firstAt?, here, Option.none_or]
      exact inductionHypothesis later

/-- What is found stands at some place. -/
theorem exists_place_of_firstAt? {found : Text}
    (isFound : firstAt? find? text = some found) :
    ∃ front place, text = front ++ place ∧ find? place = some found := by
  induction text with
  | nil =>
      exact ⟨[], [], rfl, isFound⟩
  | cons first rest inductionHypothesis =>
      rw [firstAt?] at isFound
      cases here : find? (first :: rest) with
      | some result =>
          rw [here, Option.some_or] at isFound
          exact ⟨[], first :: rest, rfl, here.trans isFound⟩
      | none =>
          rw [here, Option.none_or] at isFound
          obtain ⟨front, place, rfl, later⟩ := inductionHypothesis isFound
          exact ⟨first :: front, place, rfl, later⟩

end Place

/-! ## Brackets -/

/-- A character whose small letter is not a letter is that character. -/
theorem eq_of_toLower_eq {character other : Char} (ascii : other.toNat < 128)
    (notLower : other.isLower = false)
    (same : character.toLower = other) : character = other := by
  by_cases isUpper : character.isUpper = true
  · have small := Text.isSmall_toLower isUpper
    exact absurd same (small.ne_of_not_isLower ascii notLower)
  · have kept : character.toLower = character := by
      apply dif_neg
      intro capital
      exact isUpper (decide_eq_true capital)
    rw [← kept, same]

/-- Signs have one spelling only. -/
theorem eq_of_map_toLower_eq {text signs : Text}
    (areSigns : ∀ sign ∈ signs, sign.toNat < 128 ∧ sign.isLower = false)
    (same : text.map Char.toLower = signs) : text = signs := by
  induction signs generalizing text with
  | nil =>
      exact List.map_eq_nil_iff.mp same
  | cons sign signs inductionHypothesis =>
      obtain ⟨⟨ascii, notLower⟩, others⟩ := List.forall_mem_cons.mp areSigns
      obtain ⟨first, rest, rfl, isSign, areOthers⟩ :=
        List.map_eq_cons_iff.mp same
      rw [eq_of_toLower_eq ascii notLower isSign,
        inductionHypothesis others areOthers]

/-- A bracket is its opening, its name in any case, and its end. -/
theorem afterMarker?_eq_some_iff {name text after : Text} :
    afterMarker? name text = some after ↔
      ∃ spelled : Text, spelled.map Char.toLower = name ∧
        text = opening ++ (spelled ++ ']' :: after) := by
  constructor
  · intro found
    unfold afterMarker? at found
    dsimp only at found
    split at found
    · rename_i same
      have marker := eq_of_beq same
      rw [List.append_assoc] at marker found
      obtain ⟨first, second, parts, isOpening, isName⟩ :=
        List.map_eq_append_iff.mp marker
      obtain ⟨spelled, last, rfl, isName, isEnd⟩ :=
        List.map_eq_append_iff.mp isName
      have opens : first = opening :=
        eq_of_map_toLower_eq (by decide) isOpening
      have closes : last = [']'] := eq_of_map_toLower_eq (by decide) isEnd
      refine ⟨spelled, isName, ?_⟩
      rw [← List.take_append_drop (['^', '['] ++ (name ++ [']'])).length text,
        parts, Option.some.inj found, opens, closes]
      simp
    · cases found
  · rintro ⟨spelled, rfl, rfl⟩
    have whole :
        opening ++ (spelled ++ ']' :: after) =
          (opening ++ spelled ++ [']']) ++ after := by
      simp
    have size :
        (['^', '['] ++ spelled.map Char.toLower ++ [']']).length =
          (opening ++ spelled ++ [']']).length := by
      simp [opening]
    have lower :
        (opening ++ spelled ++ [']']).map Char.toLower =
          ['^', '['] ++ spelled.map Char.toLower ++ [']'] := by
      rw [List.map_append, List.map_append]
      rfl
    unfold afterMarker?
    dsimp only
    rw [whole, size, List.take_left, List.drop_left, lower,
      if_pos (beq_self_eq_true _)]

theorem afterMarker?_eq_none {name text : Text}
    (unopened : ¬ opening <+: text) : afterMarker? name text = none := by
  apply Option.eq_none_iff_forall_ne_some.mpr
  intro after found
  obtain ⟨spelled, -, rfl⟩ := afterMarker?_eq_some_iff.mp found
  exact unopened (List.prefix_append opening _)

theorem bracketAtStart?_eq_none {text : Text} (unopened : ¬ opening <+: text) :
    bracketAtStart? text = none := by
  fun_cases bracketAtStart? text with
  | case1 rest closed =>
      exact absurd (List.prefix_append opening rest) unopened
  | case2 rest notClosed =>
      rfl
  | case3 other =>
      rfl

/-- A bracket holds what stands before the first `]`. -/
theorem bracketAtStart?_append {content : Text} (unclosed : ']' ∉ content)
    (rest : Text) :
    bracketAtStart? (opening ++ (content ++ ']' :: rest)) = some content := by
  have closed : (content ++ ']' :: rest).contains ']' = true := by
    simp
  rw [opening, List.cons_append, List.cons_append, List.nil_append,
    bracketAtStart?, if_pos closed, Text.takeWhile_append_stop unclosed]

/-! ## Code spans -/

theorem spanAtStart?_eq_none {text : Text} (few : text.count tick ≤ 1) :
    spanAtStart? text = none := by
  cases text with
  | nil =>
      rfl
  | cons first rest =>
      rw [spanAtStart?, if_neg]
      intro closed
      obtain ⟨rfl, inRest⟩ : first = tick ∧ tick ∈ rest := by
        simpa using closed
      have another := List.count_pos_iff.mpr inRest
      rw [List.count_cons_self] at few
      omega

/-- A code span holds what stands before the next tick. -/
theorem spanAtStart?_append {content : Text} (noTick : tick ∉ content)
    (rest : Text) :
    spanAtStart? (tick :: (content ++ tick :: rest)) = some content := by
  have closed :
      (tick == tick && (content ++ tick :: rest).contains tick) = true := by
    simp
  rw [spanAtStart?, if_pos closed, Text.takeWhile_append_stop noTick]

/-! ## What is found -/

section Found

variable {text content : Text}

/-- What a bracket holds stands behind its opening. -/
theorem exists_front_of_bracket? (found : bracket? text = some content) :
    ∃ front back : Text,
      text = front ++ content ++ back ∧ front.getLast? = some '[' := by
  obtain ⟨front, place, rfl, here⟩ := exists_place_of_firstAt? found
  unfold bracketAtStart? at here
  split at here
  · rename_i rest
    split at here
    · obtain rfl := Option.some.inj here
      refine ⟨front ++ ['^', '['], rest.dropWhile (· != ']'), ?_, ?_⟩
      · rw [List.append_assoc _ (rest.takeWhile _) _,
          List.takeWhile_append_dropWhile]
        simp
      · simp
    · cases here
  · cases here

/-- What a code span holds stands behind its first tick. -/
theorem exists_front_of_span? (found : span? text = some content) :
    ∃ front back : Text,
      text = front ++ content ++ back ∧ front.getLast? = some tick := by
  obtain ⟨front, place, rfl, here⟩ := exists_place_of_firstAt? found
  unfold spanAtStart? at here
  split at here
  · cases here
  · rename_i first rest
    split at here
    · rename_i isSpan
      obtain ⟨rfl, -⟩ : first = tick ∧ tick ∈ rest := by
        simpa using isSpan
      obtain rfl := Option.some.inj here
      refine ⟨front ++ [tick], rest.dropWhile (· != tick), ?_, ?_⟩
      · rw [List.append_assoc _ (rest.takeWhile _) _,
          List.takeWhile_append_dropWhile]
        simp
      · simp
    · cases here

end Found

/-! ## Texts without brackets or code spans -/

section Absent

variable {text : Text}

theorem not_isPrefix_of_isSuffix (unopened : ¬ opening <:+: text)
    {place : Text} (isPlace : place <:+ text) : ¬ opening <+: place := by
  intro starts
  exact unopened (starts.isInfix.trans isPlace.isInfix)

theorem bracket?_eq_none (unopened : ¬ opening <:+: text) :
    bracket? text = none := by
  apply firstAt?_eq_none
  intro place isPlace
  exact bracketAtStart?_eq_none (not_isPrefix_of_isSuffix unopened isPlace)

theorem hasMarker_eq_false (unopened : ¬ opening <:+: text) :
    hasMarker text = false := by
  rw [hasMarker, firstAt?_eq_none]
  · rfl
  · intro place isPlace
    have noBracket := not_isPrefix_of_isSuffix unopened isPlace
    rw [afterMarker?_eq_none noBracket, afterMarker?_eq_none noBracket,
      afterMarker?_eq_none noBracket]
    rfl

theorem markedSpan?_of_unopened (name : Text)
    (unopened : ¬ opening <:+: text) : markedSpan? name text = none := by
  apply firstAt?_eq_none
  intro place isPlace
  rw [afterMarker?_eq_none (not_isPrefix_of_isSuffix unopened isPlace)]
  rfl

/-- A marked code span needs two ticks. -/
theorem markedSpan?_of_few (name : Text) (few : text.count tick ≤ 1) :
    markedSpan? name text = none := by
  apply firstAt?_eq_none
  intro place isPlace
  rcases found : afterMarker? name place with _ | after
  · rfl
  · obtain ⟨spelled, -, rfl⟩ := afterMarker?_eq_some_iff.mp found
    have isLater : Text.trimStart after <:+ text := by
      apply List.IsSuffix.trans (List.dropWhile_suffix Text.isBlank)
      apply List.IsSuffix.trans _ isPlace
      exact ⟨opening ++ spelled ++ [']'], by simp⟩
    exact spanAtStart?_eq_none <|
      (isLater.sublist.count_le tick).trans few

theorem span?_eq_none (noTick : tick ∉ text) : span? text = none := by
  apply firstAt?_eq_none
  intro place isPlace
  apply spanAtStart?_eq_none
  rw [List.count_eq_zero.mpr fun inPlace => noTick (isPlace.subset inPlace)]
  exact Nat.zero_le 1

end Absent

/-- The search for a marked code span passes over a text without `^`. -/
theorem markedSpan?_append (name : Text) {before : Text}
    (unopened : '^' ∉ before) (rest : Text) :
    markedSpan? name (before ++ rest) = markedSpan? name rest := by
  apply firstAt?_append
  intro first member others
  rw [afterMarker?_eq_none]
  · rfl
  · intro starts
    have isCaret := (List.cons_prefix_cons.mp starts).1
    exact unopened (isCaret ▸ member)

end ComponentDocs.TypeExpression
