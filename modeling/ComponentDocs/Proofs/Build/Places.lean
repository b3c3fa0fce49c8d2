import ComponentDocs.Build.Page
import ComponentDocs.Proofs.Files.Walk
import ComponentDocs.Proofs.Text.Order
import Mathlib.Data.List.Sort

/-!
The pages of a tree in the order of their places.

A list of pages is settled by what is in the tree: it is ascending and holds
every file with the name of a page. The order of the listings has no part in
it.
-/

namespace ComponentDocs.Build

open Files (Content)

/-! ## Names of pages -/

/-- A file name that is a stem, a point and `md` in letters of any case. -/
def IsPageNamed (name stem : Text) : Prop :=
  stem ≠ [] ∧
    ∃ extension, name = stem ++ '.' :: extension ∧
      extension.map Char.toLower = "md".toList

theorem splitName_append {stem extension : Text} (nonempty : stem ≠ [])
    (pointless : '.' ∉ extension) :
    Files.Path.splitName (stem ++ '.' :: extension) =
      (stem, some extension) := by
  have passes : ∀ character ∈ extension.reverse,
      (character != '.') = true := by
    intro character member
    have different : character ≠ '.' := fun equality =>
      pointless (equality ▸ List.mem_reverse.mp member)
    simpa using different
  obtain ⟨first, rest, shape⟩ :=
    List.exists_cons_of_ne_nil (List.reverse_ne_nil_iff.mpr nonempty)
  have restored : (first :: rest).reverse = stem := by
    rw [← shape, List.reverse_reverse]
  simp [Files.Path.splitName, List.takeWhile_append_of_pos passes,
    List.dropWhile_append_of_pos passes, ← restored]

/-- What a name is when an extension is split off. -/
theorem eq_append_of_splitName {name stem extension : Text}
    (split : Files.Path.splitName name = (stem, some extension)) :
    stem ≠ [] ∧ name = stem ++ '.' :: extension := by
  have parts := List.takeWhile_append_dropWhile (p := (· != '.'))
    (l := name.reverse)
  dsimp only [Files.Path.splitName] at split
  split at split
  · rename_i first rest shape
    obtain ⟨rfl, isExtension⟩ := Prod.mk.inj split
    refine ⟨by simp, ?_⟩
    rw [shape] at parts
    rw [← Option.some.inj isExtension, ← List.reverse_inj]
    simpa using parts.symm
  · cases split

theorem pointless_of_map_toLower {extension : Text}
    (letters : extension.map Char.toLower = "md".toList) :
    '.' ∉ extension := by
  intro member
  have point : '.' ∈ extension.map Char.toLower :=
    List.mem_map.mpr ⟨'.', member, rfl⟩
  rw [letters] at point
  exact absurd point (by decide)

theorem isPageName_iff {name : Text} :
    isPageName name = true ↔ ∃ stem, IsPageNamed name stem := by
  rw [isPageName, Option.any_eq_true]
  constructor
  · rintro ⟨extension, split, same⟩
    obtain ⟨nonempty, parts⟩ := eq_append_of_splitName (Prod.ext rfl split)
    exact ⟨_, nonempty, extension, parts, eq_of_beq same⟩
  · rintro ⟨stem, nonempty, extension, rfl, letters⟩
    refine ⟨extension, ?_, ?_⟩
    · rw [Files.Path.extension?,
        splitName_append nonempty (pointless_of_map_toLower letters)]
    · exact beq_iff_eq.mpr letters

/-! ## The order of places -/

theorem placeAtMost_iff_le (left right : List Text) :
    placeAtMost left right = true ↔ left ≤ right := by
  induction left generalizing right with
  | nil =>
      cases right with
      | nil => simp [placeAtMost]
      | cons second rest =>
          simp only [placeAtMost, true_iff]
          exact (List.nil_lt_cons second rest).le
  | cons first rest inductionHypothesis =>
      cases right with
      | nil =>
          simp only [placeAtMost, Bool.false_eq_true, false_iff, not_le]
          exact List.nil_lt_cons first rest
      | cons second others =>
          by_cases same : first = second
          · simp [placeAtMost, same, inductionHypothesis, le_iff_lt_or_eq]
          · simp [placeAtMost, same, Text.atMost_iff_le, le_iff_lt_or_eq,
              List.cons_lt_cons_iff]

theorem pairwise_le_mergeSort (places : List (List Text)) :
    (places.mergeSort placeAtMost).Pairwise (· ≤ ·) := by
  refine (List.pairwise_mergeSort ?_ ?_ places).imp
    fun atMost => (placeAtMost_iff_le _ _).mp atMost
  · intro first second third
    simp only [placeAtMost_iff_le]
    exact le_trans
  · intro first second
    simp only [Bool.or_eq_true, placeAtMost_iff_le]
    exact le_total first second

/-- The order of places does not depend on the order that they come in. -/
theorem mergeSort_eq_of_perm {places others : List (List Text)}
    (perm : places.Perm others) :
    places.mergeSort placeAtMost = others.mergeSort placeAtMost := by
  have sorted : (places.mergeSort placeAtMost).Perm
      (others.mergeSort placeAtMost) :=
    (List.mergeSort_perm _ _).trans
      (perm.trans (List.mergeSort_perm _ _).symm)
  exact List.Perm.eq_of_pairwise (fun _ _ _ _ => le_antisymm)
    (pairwise_le_mergeSort places) (pairwise_le_mergeSort others) sorted

/-! ## Pages of a tree -/

/-- A page as it stands in a tree: its place and what the file holds. -/
abbrev Document := List Text × Content

/-- A page of a tree is a file of it with the name of a page. -/
def IsPage (tree : FileTree Content) (document : Document) : Prop :=
  tree.at? document.1 = some (.file document.2) ∧
    ∃ stem, IsPageNamed (fileName document.1) stem

/-- The pages of a tree in ascending order of their places. -/
structure ListsPages (tree : FileTree Content) (documents : List Document) :
    Prop where
  ascending : documents.Pairwise fun first second => first.1 < second.1
  mem_iff : ∀ document, document ∈ documents ↔ IsPage tree document

/-- The pages are settled by the files of a tree. -/
theorem ListsPages.unique {tree other : FileTree Content}
    {documents others : List Document} (lists : ListsPages tree documents)
    (listsOther : ListsPages other others)
    (same : ∀ place content,
      tree.at? place = some (.file content) ↔
        other.at? place = some (.file content)) :
    documents = others := by
  have distinct {pages : List Document}
      (ascending : pages.Pairwise fun first second => first.1 < second.1) :
      pages.Nodup :=
    ascending.imp fun less equality => absurd less (by simp [equality])
  have members (document : Document) :
      document ∈ documents ↔ document ∈ others := by
    rw [lists.mem_iff, listsOther.mem_iff, IsPage, IsPage, same]
  refine List.Perm.eq_of_pairwise ?_ lists.ascending listsOther.ascending
    ((List.perm_ext_iff_of_nodup (distinct lists.ascending)
      (distinct listsOther.ascending)).mpr members)
  intro first second _ _ less greater
  exact absurd less (lt_asymm greater)

/-- What the file at a place holds. -/
def contentAt (tree : FileTree Content) (place : List Text) : Content :=
  match tree.at? place with
  | some (.file content) => content
  | _ => .binary

theorem contentAt_eq {tree : FileTree Content} {place : List Text}
    {content : Content} (isFile : tree.at? place = some (.file content)) :
    contentAt tree place = content := by
  rw [contentAt, isFile]

/-- The places of the pages in a tree, in ascending order. -/
def orderedPages (tree : FileTree Content) : List (List Text) :=
  (tree.files.filter fun place => isPageName (fileName place)).mergeSort
    placeAtMost

/-- The places that are read, with what the files there hold, are the pages of
a proper tree. -/
theorem listsPages_orderedPages {tree : FileTree Content}
    (proper : tree.IsProper) :
    ListsPages tree
      ((orderedPages tree).map fun place =>
        (place, contentAt tree place)) where
  ascending := by
    rw [List.pairwise_map]
    have distinct : (orderedPages tree).Nodup := by
      rw [orderedPages, (List.mergeSort_perm _ _).nodup_iff]
      exact proper.nodup_files.filter _
    exact (pairwise_le_mergeSort _).imp₂ (fun _ _ => lt_of_le_of_ne) distinct
  mem_iff := by
    rintro ⟨place, content⟩
    simp only [IsPage, List.mem_map, Prod.mk.injEq, orderedPages,
      List.mem_mergeSort, List.mem_filter, proper.mem_files_iff,
      isPageName_iff]
    constructor
    · rintro ⟨_, ⟨⟨found, isFile⟩, named⟩, rfl, rfl⟩
      rw [contentAt_eq isFile]
      exact ⟨isFile, named⟩
    · rintro ⟨isFile, named⟩
      exact ⟨place, ⟨⟨content, isFile⟩, named⟩, rfl, contentAt_eq isFile⟩

end ComponentDocs.Build
