import ComponentDocs.TypeExpression.Signature
import ComponentDocs.Proofs.TypeExpression.Split
import Mathlib.Data.List.Infix

/-!
Brackets in the text of a type: splitting at a delimiter outside of them, and
finding the parenthesis that closes another.
-/

namespace ComponentDocs.Signature

open TypeExpression (extendFirst extendFirst_ne_nil foldr_extendFirst
  join_extendFirst)

/-! ## Depth -/

def isOpening (character : Char) : Bool :=
  "(<\x7b[".toList.contains character

def isClosing (character : Char) : Bool :=
  ")>\x7d]".toList.contains character

/-- What a character alone does to the number of open brackets. -/
def bracketStep (character : Char) : Int :=
  if isOpening character then 1 else if isClosing character then -1 else 0

/-- The brackets that are open behind a text. The `>` of an arrow `=>` closes
nothing. -/
def bracketDepth : Text → Int
  | [] => 0
  | '=' :: '>' :: rest => bracketDepth rest
  | character :: rest => bracketStep character + bracketDepth rest

theorem depthChange_eq_bracketStep {previous character : Char}
    (notArrow : character = '>' → previous ≠ '=') :
    depthChange previous character = bracketStep character := by
  unfold depthChange bracketStep isOpening isClosing
  split
  · rfl
  · rw [if_neg]
    simpa using notArrow

/-- The last character of a text; an empty text ends in the character that
scans start with. -/
def lastOf (text : Text) : Char :=
  text.getLast?.getD '\x00'

theorem lastOf_cons_cons (first second : Char) (rest : Text) :
    lastOf (first :: second :: rest) = lastOf (second :: rest) := by
  simp [lastOf]

theorem lastOf_concat (text : Text) (last : Char) :
    lastOf (text ++ [last]) = last := by
  simp [lastOf]

theorem bracketDepth_singleton (character : Char) :
    bracketDepth [character] = bracketStep character := by
  rw [bracketDepth.eq_3 character [] (by simp), bracketDepth, Int.add_zero]

theorem bracketDepth_pair (first second : Char) :
    bracketDepth [first, second] =
      bracketStep first + depthChange first second := by
  by_cases arrow : first = '=' ∧ second = '>'
  · obtain ⟨rfl, rfl⟩ := arrow
    decide
  · have unfolded :
        bracketDepth [first, second] =
          bracketStep first + bracketDepth [second] := by
      apply bracketDepth.eq_3
      rintro others isEqual shape
      exact arrow ⟨isEqual, (List.cons.inj shape).1⟩
    have plain : depthChange first second = bracketStep second :=
      depthChange_eq_bracketStep fun isArrow isEqual =>
        arrow ⟨isEqual, isArrow⟩
    rw [unfolded, bracketDepth_singleton, plain]

theorem bracketDepth_concat (before : Text) (character : Char) :
    bracketDepth (before ++ [character]) =
      bracketDepth before + depthChange (lastOf before) character := by
  fun_induction bracketDepth before with
  | case1 =>
      have plain : depthChange (lastOf []) character = bracketStep character :=
        depthChange_eq_bracketStep fun _ => by decide
      rw [List.nil_append, bracketDepth_singleton, plain, Int.zero_add]
  | case2 rest inductionHypothesis =>
      have unfolded :
          bracketDepth ('=' :: '>' :: rest ++ [character]) =
            bracketDepth (rest ++ [character]) :=
        bracketDepth.eq_2 (rest ++ [character])
      rw [unfolded, inductionHypothesis]
      cases rest with
      | nil =>
          have start : depthChange (lastOf []) character = bracketStep character :=
            depthChange_eq_bracketStep fun _ => by decide
          have arrow : depthChange '>' character = bracketStep character :=
            depthChange_eq_bracketStep fun _ => by decide
          change _ = bracketDepth [] + depthChange '>' character
          rw [start, arrow]
      | cons next others =>
          rw [lastOf_cons_cons, lastOf_cons_cons]
  | case3 first rest notArrow inductionHypothesis =>
      cases rest with
      | nil =>
          rw [List.singleton_append, bracketDepth_pair, bracketDepth,
            Int.add_zero]
          rfl
      | cons next others =>
          have unfolded :
              bracketDepth (first :: next :: others ++ [character]) =
                bracketStep first +
                  bracketDepth (next :: others ++ [character]) := by
            apply bracketDepth.eq_3
            rintro further isEqual shape
            obtain ⟨isArrow, -⟩ := List.cons.inj shape
            exact notArrow others isEqual (by rw [isArrow])
          rw [unfolded, inductionHypothesis, lastOf_cons_cons, Int.add_assoc]

/-- Behind a space no arrow is continued, so that depths add up. -/
theorem bracketDepth_append_space (first second : Text) :
    bracketDepth (first ++ ' ' :: second) =
      bracketDepth first + bracketDepth second := by
  induction second using List.reverseRecOn with
  | nil =>
      have step : depthChange (lastOf first) ' ' = 0 := by
        rw [depthChange_eq_bracketStep fun isArrow => absurd isArrow (by decide)]
        rfl
      rw [bracketDepth_concat, step]
      rfl
  | append_singleton second last inductionHypothesis =>
      have sameStep :
          depthChange (lastOf (first ++ ' ' :: second)) last =
            depthChange (lastOf second) last := by
        rcases List.eq_nil_or_concat' second with rfl | ⟨before, final, rfl⟩
        · rw [lastOf_concat, depthChange_eq_bracketStep fun _ => by decide,
            depthChange_eq_bracketStep fun _ => by decide]
        · rw [← List.cons_append, ← List.append_assoc, lastOf_concat,
            lastOf_concat]
      rw [← List.cons_append, ← List.append_assoc, bracketDepth_concat,
        inductionHypothesis, bracketDepth_concat, sameStep, Int.add_assoc]

/-! ## Splitting outside of brackets -/

/-- A text that a delimiter does not split, and that leaves no bracket open. -/
structure IsItem (delimiter : Char) (text : Text) : Prop where
  single : ∀ before, before ++ [delimiter] <+: text → bracketDepth before ≠ 0
  closed : bracketDepth text = 0

instance (delimiter : Char) (text : Text) :
    Decidable (IsItem delimiter text) :=
  decidable_of_iff
    ((∀ before ∈ text.inits,
        before ++ [delimiter] <+: text → bracketDepth before ≠ 0) ∧
      bracketDepth text = 0)
    ⟨fun ⟨single, closed⟩ =>
        ⟨fun before isPrefix =>
          single before ((List.mem_inits before text).mpr
            ((List.prefix_append before _).trans isPrefix)) isPrefix, closed⟩,
      fun isItem => ⟨fun before _ => isItem.single before, isItem.closed⟩⟩

theorem splitTopLevel_append {delimiter : Char} {text : Text} (before rest : Text)
    (single : ∀ first, first ++ [delimiter] <+: text →
      bracketDepth (before ++ first) ≠ 0) :
    splitTopLevel delimiter (bracketDepth before) (lastOf before)
        (text ++ rest) =
      text.foldr extendFirst
        (splitTopLevel delimiter (bracketDepth (before ++ text))
          (lastOf (before ++ text)) rest) := by
  induction text generalizing before with
  | nil =>
      simp
  | cons character text inductionHypothesis =>
      have notSplit :
          ¬ (decide (character = delimiter) && decide (bracketDepth before = 0)) =
            true := by
        intro splits
        obtain ⟨isDelimiter, isOutside⟩ := by simpa using splits
        apply single []
        · simp [isDelimiter]
        · simpa using isOutside
      have singleLater :
          ∀ first, first ++ [delimiter] <+: text →
            bracketDepth (before ++ [character] ++ first) ≠ 0 := by
        intro first isPrefix
        have later := single (character :: first) (by simpa using isPrefix)
        simpa using later
      have moved := inductionHypothesis (before ++ [character]) singleLater
      rw [bracketDepth_concat, lastOf_concat] at moved
      rw [List.cons_append, splitTopLevel, if_neg notSplit, moved]
      simp

/-- What stands before a text matters only when it is the start of an arrow. -/
theorem splitTopLevel_eq_pieces {delimiter previous : Char}
    (notArrow : previous ≠ '=') (text : Text) :
    splitTopLevel delimiter 0 previous text = pieces delimiter text := by
  cases text with
  | nil =>
      rfl
  | cons character rest =>
      have sameStep :
          depthChange previous character = depthChange '\x00' character := by
        rw [depthChange_eq_bracketStep fun _ => notArrow,
          depthChange_eq_bracketStep fun _ => by decide]
      rw [pieces, splitTopLevel, splitTopLevel, sameStep]

theorem splitTopLevel_ne_nil (delimiter : Char) (depth : Int)
    (previous : Char) (text : Text) :
    splitTopLevel delimiter depth previous text ≠ [] := by
  fun_cases splitTopLevel delimiter depth previous text with
  | case1 =>
      exact List.cons_ne_nil _ _
  | case2 character rest isSplit =>
      exact List.cons_ne_nil _ _
  | case3 character rest notSplit =>
      exact extendFirst_ne_nil character _

section Delimiter

variable {delimiter : Char}

theorem IsItem.splitTopLevel_append {text : Text}
    (isItem : IsItem delimiter text) (rest : Text) :
    pieces delimiter (text ++ rest) =
      text.foldr extendFirst
        (splitTopLevel delimiter 0 (lastOf text) rest) := by
  have moved := Signature.splitTopLevel_append [] rest isItem.single
  rw [List.nil_append, isItem.closed] at moved
  exact moved

theorem IsItem.pieces_eq {text : Text} (isItem : IsItem delimiter text) :
    pieces delimiter text = [text] := by
  have whole := isItem.splitTopLevel_append []
  rw [List.append_nil, splitTopLevel, foldr_extendFirst, List.append_nil]
    at whole
  exact whole

theorem IsItem.pieces_append_cons {text : Text} (isItem : IsItem delimiter text)
    (notArrow : delimiter ≠ '=') (rest : Text) :
    pieces delimiter (text ++ delimiter :: rest) =
      text :: pieces delimiter rest := by
  have outside :
      (decide (delimiter = delimiter) && decide ((0 : Int) = 0)) = true := by
    simp
  rw [isItem.splitTopLevel_append, splitTopLevel, if_pos outside,
    foldr_extendFirst, List.append_nil, splitTopLevel_eq_pieces notArrow]

/-- Items with the delimiter between them are split into the items. -/
theorem pieces_join {items : List Text} (notArrow : delimiter ≠ '=')
    (nonempty : items ≠ []) (each : ∀ item ∈ items, IsItem delimiter item) :
    pieces delimiter (Text.join [delimiter] items) = items := by
  induction items with
  | nil =>
      exact absurd rfl nonempty
  | cons first rest inductionHypothesis =>
      obtain ⟨firstIsItem, others⟩ := List.forall_mem_cons.mp each
      cases rest with
      | nil =>
          exact firstIsItem.pieces_eq
      | cons second further =>
          have later := inductionHypothesis (List.cons_ne_nil _ _) others
          rw [Text.join_cons_cons, List.append_assoc, List.singleton_append,
            firstIsItem.pieces_append_cons notArrow, later]

/-- Splitting loses nothing but the delimiters. -/
theorem join_splitTopLevel (depth : Int) (previous : Char) (text : Text) :
    Text.join [delimiter] (splitTopLevel delimiter depth previous text) =
      text := by
  fun_induction splitTopLevel delimiter depth previous text with
  | case1 =>
      rfl
  | case2 depth previous character rest isSplit inductionHypothesis =>
      obtain ⟨isDelimiter, -⟩ : character = delimiter ∧ depth = 0 := by
        simpa using isSplit
      obtain ⟨first, others, shape⟩ := List.exists_cons_of_ne_nil
        (splitTopLevel_ne_nil delimiter depth character rest)
      rw [shape] at inductionHypothesis
      rw [shape, Text.join_cons_cons, inductionHypothesis, isDelimiter]
      rfl
  | case3 depth previous character rest notSplit inductionHypothesis =>
      rw [join_extendFirst _ _ (splitTopLevel_ne_nil _ _ _ _),
        inductionHypothesis]

end Delimiter

/-- Two items with a space between them are an item. -/
theorem IsItem.append_space {delimiter : Char} {first second : Text}
    (notSpace : delimiter ≠ ' ') (firstIsItem : IsItem delimiter first)
    (secondIsItem : IsItem delimiter second) :
    IsItem delimiter (first ++ ' ' :: second) where
  single := by
    intro before isPrefix
    rcases List.prefix_or_prefix_of_prefix isPrefix
        (List.prefix_append first (' ' :: second)) with inFirst | inSecond
    · exact firstIsItem.single before inFirst
    · obtain ⟨rest, whole⟩ := inSecond
      rw [← whole, List.prefix_append_right_inj] at isPrefix
      rcases rest with _ | ⟨space, rest⟩
      · rw [List.append_nil] at whole
        exact firstIsItem.single before (whole ▸ List.prefix_rfl)
      · obtain ⟨rfl, inSecond⟩ := List.cons_prefix_cons.mp isPrefix
        rcases List.eq_nil_or_concat' rest with rfl | ⟨later, last, rfl⟩
        · have ends := congrArg List.getLast? whole
          simp only [List.getLast?_concat, Option.some.injEq] at ends
          exact absurd ends.symm notSpace
        · rw [← List.cons_append, ← List.append_assoc] at whole
          obtain ⟨shape, isDelimiter⟩ := List.append_inj' whole rfl
          obtain rfl := List.singleton_inj.mp isDelimiter
          rw [← shape, bracketDepth_append_space, firstIsItem.closed,
            Int.zero_add]
          exact secondIsItem.single later inSecond
  closed := by
    rw [bracketDepth_append_space, firstIsItem.closed, secondIsItem.closed]
    rfl

theorem isItem_of_unbracketed {delimiter : Char} {text : Text}
    (absent : delimiter ∉ text)
    (unbracketed : ∀ character ∈ text,
      isOpening character = false ∧ isClosing character = false) :
    IsItem delimiter text where
  single := by
    intro before isPrefix
    exact absurd (isPrefix.subset (by simp)) absent
  closed := by
    fun_induction bracketDepth text with
    | case1 =>
        rfl
    | case2 rest inductionHypothesis =>
        have closing := (unbracketed '>' (by simp)).2
        exact absurd closing (by decide)
    | case3 character rest notArrow inductionHypothesis =>
        obtain ⟨plain, others⟩ := List.forall_mem_cons.mp unbracketed
        have restClosed := inductionHypothesis
          (fun member => absent (List.mem_cons_of_mem _ member)) others
        rw [restClosed, bracketStep, plain.1, plain.2]
        rfl

/-! ## Parentheses -/

/-- The parentheses that are open behind a text. -/
def parenDepth (text : Text) : Int :=
  text.count '(' - text.count ')'

/-- A text in which every parenthesis that is closed was opened before, and
every one that is opened is closed. -/
structure IsClosed (text : Text) : Prop where
  nonneg : ∀ before, before <+: text → 0 ≤ parenDepth before
  closed : parenDepth text = 0

instance (text : Text) : Decidable (IsClosed text) :=
  decidable_of_iff
    ((∀ before ∈ text.inits, 0 ≤ parenDepth before) ∧ parenDepth text = 0)
    ⟨fun ⟨nonneg, closed⟩ =>
        ⟨fun before isPrefix =>
          nonneg before ((List.mem_inits before text).mpr isPrefix), closed⟩,
      fun isClosed =>
        ⟨fun before member =>
          isClosed.nonneg before ((List.mem_inits before text).mp member),
          isClosed.closed⟩⟩

theorem parenDepth_append (first second : Text) :
    parenDepth (first ++ second) = parenDepth first + parenDepth second := by
  simp only [parenDepth, List.count_append]
  omega

theorem IsClosed.append {first second : Text} (firstClosed : IsClosed first)
    (secondClosed : IsClosed second) : IsClosed (first ++ second) where
  nonneg := by
    intro before isPrefix
    rcases List.prefix_or_prefix_of_prefix isPrefix
        (List.prefix_append first second) with inFirst | ⟨rest, rfl⟩
    · exact firstClosed.nonneg before inFirst
    · have inSecond : rest <+: second :=
        (List.prefix_append_right_inj first).mp isPrefix
      rw [parenDepth_append, firstClosed.closed, Int.zero_add]
      exact secondClosed.nonneg rest inSecond
  closed := by
    rw [parenDepth_append, firstClosed.closed, secondClosed.closed]
    rfl

theorem isClosed_of_not_mem {text : Text} (noOpening : '(' ∉ text)
    (noClosing : ')' ∉ text) : IsClosed text := by
  have depth_eq {part : Text} (isPart : part ⊆ text) : parenDepth part = 0 := by
    rw [parenDepth, List.count_eq_zero_of_not_mem fun member =>
        noOpening (isPart member),
      List.count_eq_zero_of_not_mem fun member => noClosing (isPart member)]
    rfl
  constructor
  · intro before isPrefix
    exact Int.le_of_eq (depth_eq isPrefix.subset).symm
  · exact depth_eq (List.Subset.refl text)

theorem isClosed_join {separator : Text} {texts : List Text}
    (separatorClosed : IsClosed separator)
    (each : ∀ text ∈ texts, IsClosed text) :
    IsClosed (Text.join separator texts) := by
  induction texts with
  | nil =>
      exact isClosed_of_not_mem List.not_mem_nil List.not_mem_nil
  | cons first rest inductionHypothesis =>
      obtain ⟨firstClosed, others⟩ := List.forall_mem_cons.mp each
      cases rest with
      | nil =>
          exact firstClosed
      | cons second further =>
          exact (firstClosed.append separatorClosed).append
            (inductionHypothesis others)

/-- One step of the scan for a closing parenthesis, which goes on unless the
last parenthesis is closed. -/
theorem closing?_cons {count next : Nat} (character : Char) (rest : Text)
    (step : (next : Int) = count + parenDepth [character]) :
    closing? (count + 1) (character :: rest) =
      (closing? (next + 1) rest).map fun (inside, after) =>
        (character :: inside, after) := by
  by_cases isClosing : character = ')'
  · subst isClosing
    have change : parenDepth [')'] = -1 := by decide
    obtain rfl : count = next + 1 := by omega
    rw [closing?, if_neg (by omega), Nat.add_sub_cancel]
  · rw [closing?.eq_3 _ _ _ isClosing]
    by_cases isOpening : character = '('
    · subst isOpening
      have change : parenDepth ['('] = 1 := by decide
      obtain rfl : next = count + 1 := by omega
      rw [if_pos rfl]
    · have change : parenDepth [character] = 0 := by
        simp [parenDepth, isClosing, isOpening]
      obtain rfl : next = count := by omega
      rw [if_neg isOpening]

/-- The scan for a closing parenthesis passes over a text that closes all but
the parentheses that are open before it. -/
theorem closing?_append {inside : Text} (count : Nat) (after : Text)
    (nonneg : ∀ before, before <+: inside → 0 ≤ count + parenDepth before)
    (closed : count + parenDepth inside = 0) :
    closing? (count + 1) (inside ++ ')' :: after) = some (inside, after) := by
  induction inside generalizing count with
  | nil =>
      have none : count = 0 := by
        simpa [parenDepth] using closed
      rw [none]
      rfl
  | cons character inside inductionHypothesis =>
      have split (part : Text) :
          parenDepth (character :: part) =
            parenDepth [character] + parenDepth part :=
        parenDepth_append [character] part
      obtain ⟨next, step⟩ :=
        Int.eq_ofNat_of_zero_le (nonneg [character] (by simp))
      rw [split] at closed
      have found := inductionHypothesis next
        (fun before isPrefix => by
          have bound := nonneg (character :: before) (by simpa using isPrefix)
          rw [split] at bound
          omega)
        (by omega)
      rw [List.cons_append, closing?_cons character _ step.symm, found]
      rfl

/-- What the scan finds stands before the parenthesis that closes the last open
one. -/
theorem eq_append_of_closing? {count : Nat} {text inside after : Text}
    (found : closing? (count + 1) text = some (inside, after)) :
    text = inside ++ ')' :: after ∧
      (∀ before, before <+: inside → 0 ≤ count + parenDepth before) ∧
        count + parenDepth inside = 0 := by
  induction text generalizing count inside with
  | nil =>
      cases found
  | cons character rest inductionHypothesis =>
      have split (part : Text) :
          parenDepth (character :: part) =
            parenDepth [character] + parenDepth part :=
        parenDepth_append [character] part
      by_cases ends : character = ')' ∧ count = 0
      · obtain ⟨rfl, rfl⟩ := ends
        rw [closing?, if_pos rfl, Option.some.injEq, Prod.mk.injEq] at found
        obtain ⟨rfl, rfl⟩ := found
        refine ⟨rfl, ?_, rfl⟩
        intro before isPrefix
        rw [List.prefix_nil.mp isPrefix]
        decide
      · have goesOn : 0 ≤ (count : Int) + parenDepth [character] := by
          by_cases isClosing : character = ')'
          · have change : parenDepth [character] = -1 := by
              rw [isClosing]
              decide
            have positive : count ≠ 0 := fun none => ends ⟨isClosing, none⟩
            omega
          · have change : 0 ≤ parenDepth [character] := by
              simp [parenDepth, isClosing]
            omega
        obtain ⟨next, step⟩ := Int.eq_ofNat_of_zero_le goesOn
        rw [closing?_cons character rest step.symm] at found
        obtain ⟨⟨insideRest, afterRest⟩, later, parts⟩ :=
          Option.map_eq_some_iff.mp found
        obtain ⟨rfl, rfl⟩ := Prod.mk.inj parts
        obtain ⟨rfl, nonneg, closed⟩ := inductionHypothesis later
        refine ⟨rfl, ?_, ?_⟩
        · intro before isPrefix
          rcases before with _ | ⟨first, before⟩
          · exact Int.natCast_nonneg count
          · obtain ⟨rfl, inRest⟩ := List.cons_prefix_cons.mp isPrefix
            have bound := nonneg before inRest
            rw [split]
            omega
        · rw [split]
          omega

end ComponentDocs.Signature
