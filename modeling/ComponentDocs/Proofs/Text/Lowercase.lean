import ComponentDocs.Text.Case
import Mathlib.Data.List.Infix
import Mathlib.Data.List.TakeWhile

/-!
The lowercase form of a piece in a longer text. Only a capital sigma depends on
what stands around the piece, and only where it stands at an end of the piece or
is parted from it by ignored characters. A piece without such a sigma has its
lowercase form in the lowercase form of every text that it stands in, and any
other piece is lost in some text.
-/

namespace ComponentDocs.Text

/-! ## Forms of a sigma -/

/-- The lowercase form of a capital sigma between two texts, the one before it
with its last character first. -/
def sigmaForm (before after : Text) : Char :=
  if meetsCased before && !meetsCased after then 'ς' else 'σ'

/-- The lowercase form of a piece between two texts, the one before it with its
last character first. -/
def lowercaseBetween (before after : Text) : Text → Text
  | [] => []
  | character :: rest =>
      (if character == 'Σ' then [sigmaForm before (rest ++ after)]
        else lowercaseChar character) ++
        lowercaseBetween (character :: before) after rest

theorem sigmaForm_eq_final_iff {before after : Text} :
    sigmaForm before after = 'ς' ↔
      meetsCased before = true ∧ meetsCased after = false := by
  rw [sigmaForm, ite_eq_left_iff, Bool.and_eq_true, Bool.not_eq_true']
  simp

theorem sigmaForm_eq_inner_iff {before after : Text} :
    sigmaForm before after = 'σ' ↔
      ¬ (meetsCased before = true ∧ meetsCased after = false) := by
  rw [sigmaForm, ite_eq_right_iff, Bool.and_eq_true, Bool.not_eq_true']
  simp

theorem lowercaseBetween_append (before after first last : Text) :
    lowercaseBetween before after (first ++ last) =
      lowercaseBetween before (last ++ after) first ++
        lowercaseBetween (first.reverse ++ before) after last := by
  induction first generalizing before with
  | nil => rfl
  | cons character rest inductionHypothesis =>
      rw [List.cons_append, lowercaseBetween, lowercaseBetween,
        inductionHypothesis, List.append_assoc, List.append_assoc]
      simp

/-- Reading a text meets the lowercase forms of its pieces in their places. -/
theorem lowercaseAfter_append (before piece after : Text) :
    lowercaseAfter before (piece ++ after) =
      lowercaseBetween before after piece ++
        lowercaseAfter (piece.reverse ++ before) after := by
  induction piece generalizing before with
  | nil => rfl
  | cons character rest inductionHypothesis =>
      have form_eq :
          (if meetsCased before && !meetsCased (rest ++ after) then ['ς']
            else ['σ']) = [sigmaForm before (rest ++ after)] := by
        rw [sigmaForm]
        split <;> rfl
      rw [List.cons_append, lowercaseAfter, inductionHypothesis, form_eq,
        lowercaseBetween, List.append_assoc]
      simp

theorem lowercaseAfter_eq (before piece : Text) :
    lowercaseAfter before piece = lowercaseBetween before [] piece := by
  have whole := lowercaseAfter_append before piece []
  rwa [List.append_nil, lowercaseAfter, List.append_nil] at whole

theorem lowercase_eq_between (piece : Text) :
    lowercase piece = lowercaseBetween [] [] piece :=
  lowercaseAfter_eq [] piece

/-- Two places give a piece the same lowercase form when they do so for each of
its capital sigmas. -/
theorem lowercaseBetween_congr {before after other behind piece : Text}
    (same : ∀ first last, piece = first ++ 'Σ' :: last →
      sigmaForm (first.reverse ++ before) (last ++ after) =
        sigmaForm (first.reverse ++ other) (last ++ behind)) :
    lowercaseBetween before after piece =
      lowercaseBetween other behind piece := by
  induction piece generalizing before other with
  | nil => rfl
  | cons character rest inductionHypothesis =>
      have tail_eq :
          lowercaseBetween (character :: before) after rest =
            lowercaseBetween (character :: other) behind rest :=
        inductionHypothesis fun first last parts => by
          simpa using same (character :: first) last (by simp [parts])
      rw [lowercaseBetween, lowercaseBetween, tail_eq]
      by_cases isSigma : character = 'Σ'
      · subst isSigma
        have own := same [] rest rfl
        rw [List.reverse_nil, List.nil_append, List.nil_append] at own
        rw [own]
      · simp [isSigma]

/-! ## Neighbours of a sigma -/

/-- A text of which every character is skipped beside a sigma. -/
def IsIgnored (text : Text) : Prop :=
  ∀ character ∈ text, isCaseIgnorable character = true

theorem isIgnored_reverse {text : Text} :
    IsIgnored text.reverse ↔ IsIgnored text := by
  simp [IsIgnored]

theorem meetsCased_append_of_isIgnored {text : Text} (ignored : IsIgnored text)
    (rest : Text) : meetsCased (text ++ rest) = meetsCased rest := by
  rw [meetsCased, List.dropWhile_append_of_pos ignored, meetsCased]

theorem meetsCased_append_of_not_isIgnored {text : Text}
    (counts : ¬ IsIgnored text) (rest : Text) :
    meetsCased (text ++ rest) = meetsCased text := by
  have stops : text.dropWhile isCaseIgnorable ≠ [] := fun empty =>
    counts (List.dropWhile_eq_nil_iff.mp empty)
  obtain ⟨first, others, shape⟩ := List.exists_cons_of_ne_nil stops
  rw [meetsCased, meetsCased, List.dropWhile_append, shape]
  rfl

theorem meetsCased_of_isIgnored {text : Text} (ignored : IsIgnored text) :
    meetsCased text = false := by
  rw [← List.append_nil text, meetsCased_append_of_isIgnored ignored]
  rfl

theorem meetsCased_append_of_meetsCased {text : Text}
    (meets : meetsCased text = true) (rest : Text) :
    meetsCased (text ++ rest) = true := by
  rw [meetsCased_append_of_not_isIgnored, meets]
  intro ignored
  rw [meetsCased_of_isIgnored ignored] at meets
  cases meets

/-! ## Steady pieces -/

/-- A capital sigma between two parts of a piece whose form depends on what
stands around the piece: nothing but ignored characters stands before it and no
cased one follows, or nothing but ignored characters stands behind it and a
cased one before it. -/
def IsOpenSigma (first last : Text) : Prop :=
  (IsIgnored first ∧ meetsCased last = false) ∨
    (meetsCased first.reverse = true ∧ IsIgnored last)

/-- No capital sigma of the piece depends on what stands around it. -/
def HasSteadySigmas (piece : Text) : Prop :=
  ∀ first last, piece = first ++ 'Σ' :: last → ¬ IsOpenSigma first last

theorem hasSteadySigmas_of_not_mem {piece : Text} (absent : 'Σ' ∉ piece) :
    HasSteadySigmas piece := by
  rintro first last rfl
  simp at absent

theorem sigmaForm_of_not_isOpenSigma {first last : Text}
    (closed : ¬ IsOpenSigma first last) (before after : Text) :
    sigmaForm (first.reverse ++ before) (last ++ after) =
      sigmaForm first.reverse last := by
  rw [IsOpenSigma, not_or, not_and, not_and, Bool.not_eq_false] at closed
  obtain ⟨follows, precedes⟩ := closed
  by_cases ignored : IsIgnored first
  · have meets := follows ignored
    rw [sigmaForm, sigmaForm, meetsCased_append_of_meetsCased meets, meets]
    simp
  · have counts : ¬ IsIgnored first.reverse := mt isIgnored_reverse.mp ignored
    rw [sigmaForm, sigmaForm, meetsCased_append_of_not_isIgnored counts]
    cases meets : meetsCased first.reverse with
    | false => rfl
    | true =>
        rw [meetsCased_append_of_not_isIgnored (precedes meets)]

/-- A steady piece has one lowercase form wherever it stands. -/
theorem lowercaseBetween_of_hasSteadySigmas {piece : Text}
    (steady : HasSteadySigmas piece) (before after : Text) :
    lowercaseBetween before after piece = lowercase piece := by
  rw [lowercase_eq_between]
  apply lowercaseBetween_congr
  intro first last parts
  rw [sigmaForm_of_not_isOpenSigma (steady first last parts),
    List.append_nil, List.append_nil]

theorem lowercase_isInfix {piece text : Text} (steady : HasSteadySigmas piece)
    (inside : piece <:+: text) : lowercase piece <:+: lowercase text := by
  obtain ⟨before, after, rfl⟩ := inside
  rw [List.append_assoc, lowercase.eq_def (before ++ _),
    lowercaseAfter_append, lowercaseAfter_append,
    lowercaseBetween_of_hasSteadySigmas steady, ← List.append_assoc]
  exact List.infix_append _ _ _

/-! ## Lost pieces -/

section Count

variable {before after other behind piece : Text} {form : Char}

/-- A form occurs at most as often as in another place where all capital sigmas
have it that have it here. -/
theorem count_lowercaseBetween_le
    (keeps : ∀ first last, piece = first ++ 'Σ' :: last →
      sigmaForm (first.reverse ++ before) (last ++ after) = form →
        sigmaForm (first.reverse ++ other) (last ++ behind) = form) :
    (lowercaseBetween before after piece).count form ≤
      (lowercaseBetween other behind piece).count form := by
  induction piece generalizing before other with
  | nil => exact Nat.le_refl _
  | cons character rest inductionHypothesis =>
      have tail_le :
          (lowercaseBetween (character :: before) after rest).count form ≤
            (lowercaseBetween (character :: other) behind rest).count form :=
        inductionHypothesis fun first last parts => by
          simpa using keeps (character :: first) last (by simp [parts])
      rw [lowercaseBetween, lowercaseBetween, List.count_append,
        List.count_append]
      refine Nat.add_le_add ?_ tail_le
      by_cases isSigma : character = 'Σ'
      · subst isSigma
        have own := keeps [] rest rfl
        rw [List.reverse_nil, List.nil_append, List.nil_append] at own
        simp only [beq_self_eq_true, if_true, List.count_singleton, beq_iff_eq]
        split <;> simp_all
      · simp [isSigma]

/-- A form occurs more often in another place that gives it to one more capital
sigma. -/
theorem count_lowercaseBetween_lt {first last : Text}
    (keeps : ∀ front back, first ++ 'Σ' :: last = front ++ 'Σ' :: back →
      sigmaForm (front.reverse ++ before) (back ++ after) = form →
        sigmaForm (front.reverse ++ other) (back ++ behind) = form)
    (lacks : sigmaForm (first.reverse ++ before) (last ++ after) ≠ form)
    (has : sigmaForm (first.reverse ++ other) (last ++ behind) = form) :
    (lowercaseBetween before after (first ++ 'Σ' :: last)).count form <
      (lowercaseBetween other behind (first ++ 'Σ' :: last)).count form := by
  have first_le :
      (lowercaseBetween before ('Σ' :: last ++ after) first).count form ≤
        (lowercaseBetween other ('Σ' :: last ++ behind) first).count form :=
    count_lowercaseBetween_le fun front back parts => by
      simpa using keeps front (back ++ 'Σ' :: last) (by simp [parts])
  have last_le :
      (lowercaseBetween ('Σ' :: (first.reverse ++ before)) after last).count
          form ≤
        (lowercaseBetween ('Σ' :: (first.reverse ++ other)) behind last).count
          form :=
    count_lowercaseBetween_le fun front back parts => by
      simpa using keeps (first ++ 'Σ' :: front) back (by simp [parts])
  rw [lowercaseBetween_append, lowercaseBetween_append, lowercaseBetween,
    lowercaseBetween]
  simp only [beq_self_eq_true, if_true, List.count_append, has,
    List.count_singleton, beq_iff_eq, lacks, if_false]
  omega

end Count

theorem meetsCased_letter : meetsCased ['A'] = true := by
  decide +kernel

/-- A letter before a piece gives the final form to a sigma with ignored
characters alone before it and no cased one behind it. -/
theorem not_isInfix_lowercase_cons {first last : Text}
    (ignored : IsIgnored first) (follows : meetsCased last = false) :
    ¬ lowercase (first ++ 'Σ' :: last) <:+:
      lowercase ('A' :: (first ++ 'Σ' :: last)) := by
  intro inside
  have behindLetter :
      lowercase ('A' :: (first ++ 'Σ' :: last)) =
        'a' :: lowercaseBetween ['A'] [] (first ++ 'Σ' :: last) := by
    rw [← lowercaseAfter_eq]
    rfl
  have rarer :
      (lowercaseBetween ['A'] [] (first ++ 'Σ' :: last)).count 'σ' <
        (lowercaseBetween [] [] (first ++ 'Σ' :: last)).count 'σ' := by
    apply count_lowercaseBetween_lt
    · intro front back _
      rw [sigmaForm_eq_inner_iff, sigmaForm_eq_inner_iff, List.append_nil,
        List.append_nil]
      exact mt <| And.imp_left fun meets =>
        meetsCased_append_of_meetsCased meets _
    · rw [ne_eq, sigmaForm_eq_inner_iff, not_not, List.append_nil,
        meetsCased_append_of_isIgnored (isIgnored_reverse.mpr ignored)]
      exact ⟨meetsCased_letter, follows⟩
    · rw [sigmaForm_eq_inner_iff, List.append_nil,
        meetsCased_of_isIgnored (isIgnored_reverse.mpr ignored)]
      simp
  have atMost := inside.sublist.count_le 'σ'
  rw [behindLetter, lowercase_eq_between,
    List.count_cons_of_ne (by decide)] at atMost
  omega

/-- A letter behind a piece gives the inner form to a sigma with a cased
character before it and ignored ones alone behind it. -/
theorem not_isInfix_lowercase_concat {first last : Text}
    (precedes : meetsCased first.reverse = true) (ignored : IsIgnored last) :
    ¬ lowercase (first ++ 'Σ' :: last) <:+:
      lowercase ((first ++ 'Σ' :: last) ++ ['A']) := by
  intro inside
  have beforeLetter :
      lowercase ((first ++ 'Σ' :: last) ++ ['A']) =
        lowercaseBetween [] ['A'] (first ++ 'Σ' :: last) ++ ['a'] := by
    rw [lowercase, lowercaseAfter_append]
    rfl
  have rarer :
      (lowercaseBetween [] ['A'] (first ++ 'Σ' :: last)).count 'ς' <
        (lowercaseBetween [] [] (first ++ 'Σ' :: last)).count 'ς' := by
    apply count_lowercaseBetween_lt
    · intro front back _
      rw [sigmaForm_eq_final_iff, sigmaForm_eq_final_iff, List.append_nil,
        List.append_nil]
      refine And.imp_right fun stops => ?_
      by_contra meets
      rw [Bool.not_eq_false] at meets
      rw [meetsCased_append_of_meetsCased meets] at stops
      cases stops
    · rw [ne_eq, sigmaForm_eq_final_iff,
        meetsCased_append_of_isIgnored ignored, meetsCased_letter]
      simp
    · rw [sigmaForm_eq_final_iff, List.append_nil, List.append_nil]
      exact ⟨precedes, meetsCased_of_isIgnored ignored⟩
  have atMost := inside.sublist.count_le 'ς'
  rw [beforeLetter, lowercase_eq_between, List.count_append] at atMost
  simp at atMost
  omega

/-- A piece with an open sigma is lost beside a letter. -/
theorem exists_not_isInfix_lowercase {first last : Text}
    (opens : IsOpenSigma first last) :
    ∃ text : Text, first ++ 'Σ' :: last <:+: text ∧
      ¬ lowercase (first ++ 'Σ' :: last) <:+: lowercase text := by
  rcases opens with ⟨ignored, follows⟩ | ⟨precedes, ignored⟩
  · exact ⟨_, (List.suffix_cons 'A' _).isInfix,
      not_isInfix_lowercase_cons ignored follows⟩
  · exact ⟨_, (List.prefix_append _ ['A']).isInfix,
      not_isInfix_lowercase_concat precedes ignored⟩

/-- The pieces whose lowercase form stands in that of every text that they stand
in are the steady ones. -/
theorem forall_lowercase_isInfix_iff {piece : Text} :
    (∀ text : Text, piece <:+: text → lowercase piece <:+: lowercase text) ↔
      HasSteadySigmas piece := by
  constructor
  · rintro kept first last rfl opens
    obtain ⟨text, inside, lost⟩ := exists_not_isInfix_lowercase opens
    exact lost (kept text inside)
  · exact fun steady text inside => lowercase_isInfix steady inside

end ComponentDocs.Text
