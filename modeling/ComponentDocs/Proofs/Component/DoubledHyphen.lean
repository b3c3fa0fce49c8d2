import ComponentDocs.Proofs.Component.Hyphenation
import ComponentDocs.Proofs.Text.Pieces

/-!
Where the hyphenated form of a name has two hyphens side by side. A hyphen of
the name is written even behind one that a separator has written, so that two
come together where the name has a hyphen behind a separator, as well as where
it has two of its own.
-/

namespace ComponentDocs.Name

open Text (isUppercase lowercaseChar)

/-! ## Two hyphens in a text -/

theorem doubled_cons_iff {first : Char} {rest : Text} :
    ['-', '-'] <:+: first :: rest ↔
      (first = '-' ∧ rest.head? = some '-') ∨ ['-', '-'] <:+: rest := by
  rw [List.infix_cons_iff, List.cons_prefix_cons, eq_comm]
  cases rest with
  | nil => simp
  | cons second others =>
      rw [List.cons_prefix_cons, List.head?_cons, Option.some.injEq]
      simp [eq_comm]

/-- Other characters in front add no pair. -/
theorem doubled_append_iff {first : Text} (absent : '-' ∉ first)
    (second : Text) :
    ['-', '-'] <:+: first ++ second ↔ ['-', '-'] <:+: second := by
  induction first with
  | nil =>
      rfl
  | cons head tail inductionHypothesis =>
      rw [List.mem_cons, not_or] at absent
      rw [List.cons_append, doubled_cons_iff,
        inductionHypothesis absent.2]
      simp [Ne.symm absent.1]

theorem doubled_writeHyphen_iff {written : Text} :
    ['-', '-'] <:+: writeHyphen written ↔ ['-', '-'] <:+: written := by
  rw [writeHyphen]
  split
  · rfl
  · rename_i notHyphen
    rw [beq_iff_eq] at notHyphen
    rw [doubled_cons_iff]
    simp [notHyphen]

theorem hyphen_not_mem_lowercaseChar {capital : Char}
    (isCapital : isUppercase capital = true) :
    '-' ∉ (lowercaseChar capital).reverse := by
  intro member
  have small := Text.isSmall_of_mem_lowercaseChar isCapital
    (List.mem_reverse.mp member)
  exact small.ne_of_not_isLower (by decide) (by decide) rfl

/-! ## Hyphens that meet a hyphen -/

/-- A hyphen of a name stands behind another one, or behind a separator that is
written as a hyphen: one with something else before it, in the name or, when
it is `started`, in what has been written already. -/
def MeetsHyphen (started : Prop) (name : Text) : Prop :=
  ∃ before previous after,
    name = before ++ previous :: '-' :: after ∧
      (previous = '-' ∨ isSeparator previous = true ∧
        (started ∨ ∃ character ∈ before, isSeparator character = false))

theorem meetsHyphen_cons_iff {started : Prop} {first : Char} {rest : Text} :
    MeetsHyphen started (first :: rest) ↔
      (rest.head? = some '-' ∧
        (first = '-' ∨ isSeparator first = true ∧ started)) ∨
        MeetsHyphen (started ∨ isSeparator first = false) rest := by
  constructor
  · rintro ⟨before, previous, after, parts, meets⟩
    cases before with
    | nil =>
        obtain ⟨rfl, rfl⟩ := List.cons.inj parts
        exact .inl ⟨rfl, by simpa using meets⟩
    | cons head tail =>
        obtain ⟨rfl, rfl⟩ := List.cons.inj parts
        refine .inr ⟨tail, previous, after, rfl, meets.imp_right ?_⟩
        simp [or_assoc]
  · rintro (⟨starts, meets⟩ | ⟨before, previous, after, rfl, meets⟩)
    · obtain ⟨after, rfl⟩ := List.head?_eq_some_iff.mp starts
      exact ⟨[], first, after, rfl, by simpa using meets⟩
    · refine ⟨first :: before, previous, after, rfl, meets.imp_right ?_⟩
      simp [or_assoc]

theorem not_meetsHyphen_nil (started : Prop) : ¬ MeetsHyphen started [] := by
  rintro ⟨before, previous, after, parts, -⟩
  simp at parts

/-- A pair of hyphens has been written before, or is written where a hyphen of
the name meets a hyphen. -/
theorem doubled_writeKebab_iff (written : Text) (previous : Option Char)
    (text : Text) :
    ['-', '-'] <:+: writeKebab written previous text ↔
      ['-', '-'] <:+: written ∨
        (written.head? = some '-' ∧ text.head? = some '-') ∨
          MeetsHyphen (written ≠ []) text := by
  induction text generalizing written previous with
  | nil =>
      simp [writeKebab, not_meetsHyphen_nil]
  | cons first rest inductionHypothesis =>
      rw [meetsHyphen_cons_iff, List.head?_cons, Option.some.injEq, writeKebab]
      cases separates : isSeparator first with
      | true =>
          have notHyphen : first ≠ '-' := by
            rintro rfl
            exact absurd separates (by decide)
          by_cases nothing : written = []
          · rw [if_pos rfl, if_pos (by simp [nothing]), inductionHypothesis]
            simp [nothing, notHyphen]
          · have nonempty : written.isEmpty = false := by
              simp [nothing]
            rw [if_pos rfl, nonempty, if_neg Bool.false_ne_true,
              inductionHypothesis, doubled_writeHyphen_iff,
              head?_writeHyphen]
            simp [nothing, notHyphen, writeHyphen_ne_nil]
      | false =>
          rw [if_neg Bool.false_ne_true]
          cases isCapital : isUppercase first with
          | true =>
              have notHyphen : first ≠ '-' := by
                rintro rfl
                rw [isLetterless_hyphen.notCapital] at isCapital
                cases isCapital
              have lowered := Text.lowercaseChar_ne_nil first
              have absent := hyphen_not_mem_lowercaseChar isCapital
              have noHyphen (started : Text) :
                  ((lowercaseChar first).reverse ++ started).head? ≠
                    some '-' := by
                rw [List.head?_append_of_ne_nil _ (by simp [lowered])]
                exact fun starts => absent (List.mem_of_mem_head? starts)
              have nonempty (started : Text) :
                  (lowercaseChar first).reverse ++ started ≠ [] := by
                simp [lowered]
              rw [if_pos rfl, inductionHypothesis,
                eq_false (noHyphen _), eq_true (nonempty _),
                doubled_append_iff absent]
              split
              · rw [doubled_writeHyphen_iff]
                simp [notHyphen]
              · simp [notHyphen]
          | false =>
              rw [if_neg Bool.false_ne_true, inductionHypothesis,
                doubled_cons_iff, List.head?_cons, Option.some.injEq]
              simp only [ne_eq, reduceCtorEq, not_false_eq_true,
                Bool.false_eq_true, false_and, or_false, or_true]
              tauto

/-! ## Hyphenated names -/

theorem doubled_reverse_iff {text : Text} :
    ['-', '-'] <:+: text.reverse ↔ ['-', '-'] <:+: text := by
  have reversed : ['-', '-'] = ['-', '-'].reverse := rfl
  conv_lhs => rw [reversed]
  exact List.reverse_infix

/-- Where nothing is dropped at the end, the pairs are those that are
written. -/
theorem doubled_kebab_iff_meetsHyphen {text : Text}
    (ends : ∀ last, text.getLast? = some last → isJoint last = false) :
    ['-', '-'] <:+: kebab text ↔ MeetsHyphen False text := by
  rw [kebab_eq_reverse ends, doubled_reverse_iff, doubled_writeKebab_iff]
  simp

/-- The hyphenated form of a name has two hyphens side by side exactly when
the name has, before a character that is neither a separator nor a hyphen, a
hyphen behind another one, or a hyphen behind a separator that does not stand
at the start. -/
theorem doubled_kebab_iff (name : Text) :
    ['-', '-'] <:+: kebab name ↔
      ∃ before previous after,
        name = before ++ previous :: '-' :: after ∧
          (previous = '-' ∨ isSeparator previous = true ∧
            ∃ character ∈ before, isSeparator character = false) ∧
          ∃ character ∈ after,
            isSeparator character = false ∧ character ≠ '-' := by
  -- What follows the last such character is dropped.
  obtain ⟨ends, parts, joints⟩ :=
    Text.exists_dropEndWhile_append isJoint name
  have visibleEnd (last : Char)
      (isLast : (Text.dropEndWhile isJoint name).getLast? = some last) :
      isJoint last = false :=
    Text.getLast?_dropEndWhile isLast
  generalize Text.dropEndWhile isJoint name = core at parts visibleEnd
  subst parts
  rw [kebab_append_joints joints, doubled_kebab_iff_meetsHyphen visibleEnd]
  constructor
  · rintro ⟨before, previous, after, rfl, meets⟩
    refine ⟨before, previous, after ++ ends, by simp, by simpa using meets, ?_⟩
    cases isLast : ('-' :: after).getLast? with
    | none => simp at isLast
    | some last =>
        have visible : isJoint last = false := by
          apply visibleEnd
          rw [List.getLast?_append, List.getLast?_cons, isLast]
          rfl
        simp only [isJoint, Bool.or_eq_false_iff, beq_eq_false_iff_ne]
          at visible
        have member := List.mem_of_getLast? isLast
        rw [List.mem_cons] at member
        exact ⟨last, List.mem_append_left _ (member.resolve_left visible.2),
          visible⟩
  · rintro ⟨before, previous, after, split, meets, last, member, visible⟩
    -- The visible character stands in the part that is kept.
    have notJoint : last ∉ ends := fun inEnds => by
      have joint := joints last inEnds
      simp [isJoint, visible] at joint
    have whole :
        core ++ ends = (before ++ [previous, '-']) ++ after := by
      simpa using split
    rcases List.append_eq_append_iff.mp whole with
      ⟨rest, inner, rfl⟩ | ⟨rest, rfl, outer⟩
    · exact absurd (List.mem_append_right rest member) notJoint
    · exact ⟨before, previous, rest, by simp, by simpa using meets⟩

/-- A separator in front of a hyphen is written beside it, and one behind a
hyphen is not. -/
theorem kebab_spaced_hyphen :
    ¬ ['-', '-'] <:+: "a -b".toList ∧
      kebab "a -b".toList = "a--b".toList ∧
        ['-', '-'] <:+: kebab "a -b".toList ∧
          kebab "a- b".toList = "a-b".toList := by
  decide +kernel

end ComponentDocs.Name
