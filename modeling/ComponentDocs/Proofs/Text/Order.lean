import ComponentDocs.Text.Basic
import Mathlib.Data.Char
import Mathlib.Data.List.Lex
import Mathlib.Data.List.Nodup
import Mathlib.Data.List.Sort

/-!
The order of texts is the lexicographic order of their characters. Items that
are sorted by a text stand in ascending order, and when the texts are distinct
the order that they had before does not matter.
-/

namespace ComponentDocs.Text

theorem atMost_iff_le (left right : Text) :
    atMost left right = true ↔ left ≤ right := by
  induction left generalizing right with
  | nil =>
      cases right with
      | nil => simp [atMost]
      | cons second rest =>
          simp only [atMost, true_iff]
          exact (List.nil_lt_cons second rest).le
  | cons first rest inductionHypothesis =>
      cases right with
      | nil =>
          simp only [atMost, Bool.false_eq_true, false_iff, not_le]
          exact List.nil_lt_cons first rest
      | cons second others =>
          have byCode : first.toNat < second.toNat ↔ first < second :=
            Iff.rfl
          simp only [atMost, Bool.or_eq_true, decide_eq_true_eq, byCode,
            Bool.and_eq_true, beq_iff_eq, inductionHypothesis,
            le_iff_lt_or_eq, List.cons_lt_cons_iff, List.cons.injEq]
          tauto

/-! ## Sorting by a text -/

section Sorting

variable {α : Type} (key : α → Text)

theorem pairwise_mergeSort (items : List α) :
    (items.mergeSort fun left right => atMost (key left) (key right)).Pairwise
      fun left right => key left ≤ key right := by
  refine (List.pairwise_mergeSort ?_ ?_ items).imp fun sorted =>
    (atMost_iff_le _ _).mp sorted
  · intro first second third
    simp only [atMost_iff_le]
    exact le_trans
  · intro first second
    simp only [Bool.or_eq_true, atMost_iff_le]
    exact le_total (key first) (key second)

theorem mergeSort_eq_of_perm {first second : List α}
    (perm : first.Perm second) (distinct : (first.map key).Nodup) :
    first.mergeSort (fun left right => atMost (key left) (key right)) =
      second.mergeSort fun left right => atMost (key left) (key right) := by
  refine List.Perm.eq_of_pairwise ?_ (pairwise_mergeSort key first)
    (pairwise_mergeSort key second)
    ((List.mergeSort_perm first _).trans
      (perm.trans (List.mergeSort_perm second _).symm))
  intro left right inFirst inSecond atMost atLeast
  have rightInFirst : right ∈ first :=
    perm.mem_iff.mpr (List.mem_mergeSort.mp inSecond)
  exact List.inj_on_of_nodup_map distinct (List.mem_mergeSort.mp inFirst)
    rightInFirst (le_antisymm atMost atLeast)

/-- What is sorted is cut in two by a text. -/
theorem filter_append_filter (text : Text) {items : List α}
    (ascending : items.Pairwise fun left right => key left ≤ key right) :
    items.filter (fun item => !atMost text (key item)) ++
        items.filter (fun item => atMost text (key item)) = items := by
  induction items with
  | nil => rfl
  | cons first rest inductionHypothesis =>
      rw [List.pairwise_cons] at ascending
      by_cases above : text ≤ key first
      · have allAbove : ∀ item ∈ first :: rest, text ≤ key item := by
          rw [List.forall_mem_cons]
          exact ⟨above, fun item member =>
            above.trans (ascending.1 item member)⟩
        have noneBelow :
            (first :: rest).filter (fun item => !atMost text (key item)) =
              [] := by
          rw [List.filter_eq_nil_iff]
          intro item member
          simpa [atMost_iff_le] using allAbove item member
        have all :
            (first :: rest).filter (fun item => atMost text (key item)) =
              first :: rest := by
          rw [List.filter_eq_self]
          intro item member
          exact (atMost_iff_le _ _).mpr (allAbove item member)
        rw [noneBelow, all, List.nil_append]
      · have below : atMost text (key first) = false := by
          rw [Bool.eq_false_iff, ne_eq, atMost_iff_le]
          exact above
        simp [below, inductionHypothesis ascending.2]

/-- An item is sorted in behind those with a smaller text and before all
others. -/
theorem mergeSort_cons (first : α) (rest : List α) :
    let sorted :=
      rest.mergeSort fun left right => atMost (key left) (key right)
    ((first :: rest).mergeSort
        fun left right => atMost (key left) (key right)) =
      sorted.filter (fun item => !atMost (key first) (key item)) ++
        first :: sorted.filter fun item => atMost (key first) (key item) := by
  intro sorted
  have transitive (left middle right : α) :
      atMost (key left) (key middle) = true →
        atMost (key middle) (key right) = true →
          atMost (key left) (key right) = true := by
    simpa only [atMost_iff_le] using le_trans
  have total (left right : α) :
      (atMost (key left) (key right) || atMost (key right) (key left)) =
        true := by
    simpa only [Bool.or_eq_true, atMost_iff_le] using le_total _ _
  obtain ⟨before, after, whole, others, below⟩ :=
    List.mergeSort_cons transitive total first rest
  have ascending := pairwise_mergeSort key (first :: rest)
  rw [whole] at ascending
  have above : ∀ item ∈ after, atMost (key first) (key item) = true := by
    intro item member
    have behind := (List.pairwise_append.mp ascending).2.1
    exact (atMost_iff_le _ _).mpr ((List.pairwise_cons.mp behind).1 item member)
  have noneBelow :
      after.filter (fun item => !atMost (key first) (key item)) = [] := by
    rw [List.filter_eq_nil_iff]
    intro item member
    simp [above item member]
  have noneAbove :
      before.filter (fun item => atMost (key first) (key item)) = [] := by
    rw [List.filter_eq_nil_iff]
    intro item member
    simpa using below item member
  simp only [sorted, whole, others, List.filter_append, noneBelow, noneAbove,
    List.filter_eq_self.mpr below, List.filter_eq_self.mpr above,
    List.append_nil, List.nil_append]

/-- Those that pass a test stand in the same order whether they are picked
before the sorting or after it. -/
theorem filter_mergeSort (test : α → Bool) (items : List α) :
    (items.mergeSort fun left right =>
        atMost (key left) (key right)).filter test =
      (items.filter test).mergeSort fun left right =>
        atMost (key left) (key right) := by
  induction items with
  | nil => simp
  | cons first rest inductionHypothesis =>
      rw [mergeSort_cons]
      by_cases passes : test first = true
      · rw [List.filter_cons_of_pos passes, mergeSort_cons,
          ← inductionHypothesis, List.filter_append,
          List.filter_cons_of_pos passes]
        simp only [List.filter_filter, Bool.and_comm]
      · rw [List.filter_cons_of_neg passes, List.filter_append,
          List.filter_cons_of_neg passes, ← List.filter_append,
          filter_append_filter key (key first) (pairwise_mergeSort key rest),
          inductionHypothesis]

/-- Items of one text keep their order. -/
theorem filter_key_mergeSort (text : Text) (items : List α) :
    (items.mergeSort fun left right =>
        atMost (key left) (key right)).filter (fun item => key item == text) =
      items.filter fun item => key item == text := by
  rw [filter_mergeSort]
  refine List.mergeSort_of_pairwise ?_
  rw [List.pairwise_filter]
  refine List.pairwise_of_forall fun left right sameLeft sameRight => ?_
  rw [beq_iff_eq.mp sameLeft, beq_iff_eq.mp sameRight, atMost_iff_le]

end Sorting

end ComponentDocs.Text
