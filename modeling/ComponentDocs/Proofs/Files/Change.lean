import ComponentDocs.Proofs.Files.Walk

/-!
Changing a tree at one place: what was put there is found there, and every
other place is what it was, so that paths lead where they led.
-/

namespace ComponentDocs

namespace FileTree

variable {α : Type}

/-! ## Entries -/

theorem child?_cons (wanted : Text) (entry : Text × FileTree α)
    (rest : List (Text × FileTree α)) :
    child? wanted (entry :: rest) =
      if entry.1 = wanted then some entry.2 else child? wanted rest := by
  by_cases found : entry.1 = wanted <;> simp [child?, found]

theorem child?_putEntry (wanted name : Text) (tree : FileTree α)
    (entries : List (Text × FileTree α)) :
    child? wanted (putEntry name tree entries) =
      if name = wanted then some tree else child? wanted entries := by
  induction entries with
  | nil =>
      rw [putEntry, child?_cons]
  | cons entry rest inductionHypothesis =>
      rw [putEntry]
      split
      · rename_i replaced
        rw [child?_cons, child?_cons, replaced]
        split <;> rfl
      · rename_i kept
        rw [child?_cons, child?_cons, inductionHypothesis]
        by_cases found : entry.1 = wanted
        · rw [if_pos found, if_pos found, if_neg (found ▸ Ne.symm kept)]
        · rw [if_neg found, if_neg found]

theorem child?_dropEntry (wanted name : Text)
    (entries : List (Text × FileTree α)) :
    child? wanted (dropEntry name entries) =
      if name = wanted then none else child? wanted entries := by
  induction entries with
  | nil =>
      split <;> rfl
  | cons entry rest inductionHypothesis =>
      by_cases dropped : entry.1 = name
      · have unchanged : dropEntry name (entry :: rest) = dropEntry name rest :=
          List.filter_cons_of_neg (by simp [dropped])
        rw [unchanged, inductionHypothesis, child?_cons, dropped]
        split <;> rfl
      · have kept : dropEntry name (entry :: rest) =
            entry :: dropEntry name rest :=
          List.filter_cons_of_pos (by simp [dropped])
        rw [kept, child?_cons, child?_cons, inductionHypothesis]
        by_cases found : entry.1 = wanted
        · rw [if_pos found, if_pos found, if_neg (found ▸ Ne.symm dropped)]
        · rw [if_neg found, if_neg found]

/-! ## One place -/

/-- What is put into a directory is found there. -/
theorem at?_put {tree : FileTree α} {parent : List Text}
    {entries : List (Text × FileTree α)}
    (isDirectory : tree.at? parent = some (directory entries)) (name : Text)
    (new : FileTree α) :
    (tree.put (parent ++ [name]) new).at? (parent ++ [name]) = some new := by
  induction parent generalizing tree with
  | nil =>
      rw [at?_nil] at isDirectory
      obtain rfl := Option.some.inj isDirectory
      rw [List.nil_append, put, at?_directory_cons, child?_putEntry,
        if_pos rfl, Option.bind_some, at?_nil]
  | cons step rest inductionHypothesis =>
      cases tree with
      | file content =>
          cases isDirectory
      | directory others =>
          rw [at?_directory_cons, Option.bind_eq_some_iff] at isDirectory
          obtain ⟨inner, isChild, isDirectory⟩ := isDirectory
          rw [List.cons_append, put, isChild]
          · simp only [at?_directory_cons, child?_putEntry, if_pos,
              Option.bind_some]
            exact inductionHypothesis isDirectory
          · simp

/-- What is removed from a directory is gone, also when entries share a name. -/
theorem at?_remove {tree : FileTree α} {parent : List Text}
    {entries : List (Text × FileTree α)}
    (isDirectory : tree.at? parent = some (directory entries)) (name : Text) :
    (tree.remove (parent ++ [name])).at? (parent ++ [name]) = none := by
  induction parent generalizing tree with
  | nil =>
      rw [at?_nil] at isDirectory
      obtain rfl := Option.some.inj isDirectory
      rw [List.nil_append, remove, at?_directory_cons, child?_dropEntry,
        if_pos rfl, Option.bind_none]
  | cons step rest inductionHypothesis =>
      cases tree with
      | file content =>
          cases isDirectory
      | directory others =>
          rw [at?_directory_cons, Option.bind_eq_some_iff] at isDirectory
          obtain ⟨inner, isChild, isDirectory⟩ := isDirectory
          rw [List.cons_append, remove, isChild]
          · simp only [at?_directory_cons, child?_putEntry, if_pos,
              Option.bind_some]
            exact inductionHypothesis isDirectory
          · simp

/-! ## Other places -/

/-- What is neither on the way to the changed place nor below it stays, with
all that is below it. -/
theorem at?_put_of_apart {tree : FileTree α} {target place : List Text}
    (notBelow : ¬ target <+: place) (notAbove : ¬ place <+: target)
    (new : FileTree α) : (tree.put target new).at? place = tree.at? place := by
  fun_induction put tree target new generalizing place with
  | case1 tree new =>
      exact absurd List.nil_prefix notBelow
  | case2 entries name new =>
      cases place with
      | nil =>
          exact absurd List.nil_prefix notAbove
      | cons step place =>
          have different : name ≠ step := by
            rintro rfl
            exact notBelow (List.cons_prefix_cons.mpr ⟨rfl, List.nil_prefix⟩)
          rw [at?_directory_cons, at?_directory_cons, child?_putEntry,
            if_neg different]
  | case3 entries name rest new notLast inner isChild inductionHypothesis =>
      cases place with
      | nil =>
          exact absurd List.nil_prefix notAbove
      | cons step place =>
          rw [at?_directory_cons, at?_directory_cons, child?_putEntry]
          split
          · rename_i same
            subst same
            rw [isChild, Option.bind_some, Option.bind_some]
            simp only [List.cons_prefix_cons, true_and] at notBelow notAbove
            exact inductionHypothesis notBelow notAbove
          · rfl
  | case4 entries name rest new notLast noChild =>
      rfl
  | case5 content name rest new =>
      rfl

/-- A tree without what is below its top. -/
def cut : FileTree α → FileTree α
  | file content => file content
  | directory _ => directory []

theorem not_prefix_of_cons {name : Text} {target place : List Text}
    (elsewhere : ¬ name :: target <+: name :: place) : ¬ target <+: place :=
  fun isPrefix => elsewhere (List.cons_prefix_cons.mpr ⟨rfl, isPrefix⟩)

/-- Outside of the changed place everything is the file or the directory that
it was. -/
theorem map_cut_at?_put {tree : FileTree α} {target place : List Text}
    (elsewhere : ¬ target <+: place) (new : FileTree α) :
    ((tree.put target new).at? place).map cut = (tree.at? place).map cut := by
  fun_induction put tree target new generalizing place with
  | case1 tree new =>
      exact absurd List.nil_prefix elsewhere
  | case2 entries name new =>
      cases place with
      | nil =>
          rfl
      | cons step place =>
          have different : name ≠ step := by
            rintro rfl
            exact not_prefix_of_cons elsewhere List.nil_prefix
          rw [at?_directory_cons, at?_directory_cons, child?_putEntry,
            if_neg different]
  | case3 entries name rest new notLast inner isChild inductionHypothesis =>
      cases place with
      | nil =>
          rfl
      | cons step place =>
          rw [at?_directory_cons, at?_directory_cons, child?_putEntry]
          split
          · rename_i same
            subst same
            rw [isChild, Option.bind_some, Option.bind_some]
            exact inductionHypothesis (not_prefix_of_cons elsewhere)
          · rfl
  | case4 entries name rest new notLast noChild =>
      rfl
  | case5 content name rest new =>
      rfl

theorem map_cut_at?_remove {tree : FileTree α} {target place : List Text}
    (elsewhere : ¬ target <+: place) :
    ((tree.remove target).at? place).map cut = (tree.at? place).map cut := by
  fun_induction remove tree target generalizing place with
  | case1 entries name =>
      cases place with
      | nil =>
          rfl
      | cons step place =>
          have different : name ≠ step := by
            rintro rfl
            exact not_prefix_of_cons elsewhere List.nil_prefix
          rw [at?_directory_cons, at?_directory_cons, child?_dropEntry,
            if_neg different]
  | case2 entries name rest notLast inner isChild inductionHypothesis =>
      cases place with
      | nil =>
          rfl
      | cons step place =>
          rw [at?_directory_cons, at?_directory_cons, child?_putEntry]
          split
          · rename_i same
            subst same
            rw [isChild, Option.bind_some, Option.bind_some]
            exact inductionHypothesis (not_prefix_of_cons elsewhere)
          · rfl
  | case3 entries name rest notLast noChild =>
      rfl
  | case4 tree target notSingle notBelow =>
      rfl

/-! ## Directories -/

def IsDirectoryAt (tree : FileTree α) (place : List Text) : Prop :=
  ∃ entries, tree.at? place = some (directory entries)

theorem isDirectoryAt_iff {tree : FileTree α} {place : List Text} :
    tree.IsDirectoryAt place ↔
      (tree.at? place).map cut = some (directory []) := by
  constructor
  · rintro ⟨entries, isDirectory⟩
    rw [isDirectory]
    rfl
  · intro isCut
    obtain ⟨found, isFound, sameCut⟩ := Option.map_eq_some_iff.mp isCut
    cases found with
    | file content => cases sameCut
    | directory entries => exact ⟨entries, isFound⟩

theorem eq_file_of_map_cut {found : Option (FileTree α)} {content : α}
    (isCut : found.map cut = some (file content)) :
    found = some (file content) := by
  obtain ⟨tree, rfl, sameCut⟩ := Option.map_eq_some_iff.mp isCut
  cases tree with
  | file other => rw [← sameCut, cut]
  | directory entries => cases sameCut

/-- What is no directory has nothing below it. -/
theorem at?_below {tree : FileTree α} {target place : List Text}
    (noDirectory : ¬ tree.IsDirectoryAt target) (below : target <+: place)
    (different : place ≠ target) : tree.at? place = none := by
  obtain ⟨rest, rfl⟩ := below
  rw [at?_append, Option.bind_eq_none_iff]
  intro inner isInner
  cases inner with
  | directory entries =>
      exact absurd ⟨entries, isInner⟩ noDirectory
  | file content =>
      cases rest with
      | nil => exact absurd (List.append_nil target) different
      | cons step rest => rfl

theorem IsDirectoryAt.not_prefix {tree : FileTree α} {target place : List Text}
    (isDirectory : tree.IsDirectoryAt place)
    (noDirectory : ¬ tree.IsDirectoryAt target) : ¬ target <+: place := by
  intro below
  by_cases same : place = target
  · exact noDirectory (same ▸ isDirectory)
  · obtain ⟨entries, found⟩ := isDirectory
    rw [at?_below noDirectory below same] at found
    cases found

theorem IsDirectoryAt.put {tree : FileTree α} {target place : List Text}
    (isDirectory : tree.IsDirectoryAt place)
    (noDirectory : ¬ tree.IsDirectoryAt target) (new : FileTree α) :
    (tree.put target new).IsDirectoryAt place := by
  rw [isDirectoryAt_iff,
    map_cut_at?_put (isDirectory.not_prefix noDirectory)]
  exact isDirectoryAt_iff.mp isDirectory

theorem IsDirectoryAt.remove {tree : FileTree α} {target place : List Text}
    (isDirectory : tree.IsDirectoryAt place)
    (noDirectory : ¬ tree.IsDirectoryAt target) :
    (tree.remove target).IsDirectoryAt place := by
  rw [isDirectoryAt_iff,
    map_cut_at?_remove (isDirectory.not_prefix noDirectory)]
  exact isDirectoryAt_iff.mp isDirectory

/-! ## Files -/

section Files

variable {tree : FileTree α} {parent place : List Text} {name : Text}
variable (isDirectory : tree.IsDirectoryAt parent)
variable (noDirectory : ¬ tree.IsDirectoryAt (parent ++ [name]))
variable (different : place ≠ parent ++ [name])

include isDirectory noDirectory different

/-- A file that is put into a directory, in the place of no directory, changes
no other place. -/
theorem map_cut_at?_put_file (content : α) :
    ((tree.put (parent ++ [name]) (file content)).at? place).map cut =
      (tree.at? place).map cut := by
  by_cases below : parent ++ [name] <+: place
  · obtain ⟨entries, isParent⟩ := isDirectory
    have isFile := at?_put isParent name (file content)
    have stillNoDirectory :
        ¬ (tree.put (parent ++ [name]) (file content)).IsDirectoryAt
          (parent ++ [name]) := by
      rintro ⟨others, found⟩
      cases isFile.symm.trans found
    rw [at?_below noDirectory below different,
      at?_below stillNoDirectory below different]
  · exact map_cut_at?_put below _

/-- Removing what is no directory changes no other place. -/
theorem map_cut_at?_remove_file :
    ((tree.remove (parent ++ [name])).at? place).map cut =
      (tree.at? place).map cut := by
  by_cases below : parent ++ [name] <+: place
  · obtain ⟨entries, isParent⟩ := isDirectory
    have gone := at?_remove isParent name
    have stillNoDirectory :
        ¬ (tree.remove (parent ++ [name])).IsDirectoryAt
          (parent ++ [name]) := by
      rintro ⟨others, found⟩
      cases gone.symm.trans found
    rw [at?_below noDirectory below different,
      at?_below stillNoDirectory below different]
  · exact map_cut_at?_remove below

end Files

end FileTree

end ComponentDocs
