import ComponentDocs.Build.Walk
import ComponentDocs.Proofs.Build.Places
import ComponentDocs.Proofs.Files.Change
import ComponentDocs.Proofs.Files.Task

/-!
The walk through a directory finds the pages of its tree. The pages that have
been met and those in the directories that are pending are at all times the
pages of the whole tree, and each listing leaves one directory less.
-/

namespace ComponentDocs.Build

open Files (Content Disk)

/-! ## What is below a place -/

/-- The places of the pages that are at a place of a tree or below it. -/
def pagesBelow (tree : FileTree Content) (place : List Text) :
    List (List Text) :=
  ((tree.at? place).elim [] (FileTree.filesFrom place)).filter fun file =>
    isPageName (fileName file)

/-- The number of directories that are at a place of a tree or below it. -/
def directoriesBelow (tree : FileTree Content) (place : List Text) : Nat :=
  (tree.at? place).elim 0 FileTree.directoryCount

/-- The number of directories that are at places of a tree or below them. -/
def directoriesAmong (tree : FileTree Content) : List (List Text) → Nat
  | [] => 0
  | place :: rest => directoriesBelow tree place + directoriesAmong tree rest

theorem directoriesAmong_append (tree : FileTree Content)
    (places others : List (List Text)) :
    directoriesAmong tree (places ++ others) =
      directoriesAmong tree places + directoriesAmong tree others := by
  induction places with
  | nil => exact (Nat.zero_add _).symm
  | cons place rest inductionHypothesis =>
      rw [List.cons_append, directoriesAmong, directoriesAmong,
        inductionHypothesis, Nat.add_assoc]

section Below

variable {tree : FileTree Content} {place : List Text}

theorem pagesBelow_of_file {content : Content}
    (inside : tree.at? place = some (.file content)) :
    pagesBelow tree place =
      if isPageName (fileName place) then [place] else [] := by
  rw [pagesBelow, inside, Option.elim_some, FileTree.filesFrom,
    List.filter_cons, List.filter_nil]

theorem directoriesBelow_of_file {content : Content}
    (inside : tree.at? place = some (.file content)) :
    directoriesBelow tree place = 0 := by
  rw [directoriesBelow, inside]
  rfl

variable {entries : List (Text × FileTree Content)} (proper : tree.IsProper)
  (inside : tree.at? place = some (.directory entries))

include proper inside

theorem pagesBelow_of_directory :
    pagesBelow tree place =
      (entries.map fun entry => place ++ [entry.1]).flatMap
        (pagesBelow tree) := by
  have listed :
      FileTree.filesFrom place (.directory entries) =
        entries.flatMap fun entry =>
          FileTree.filesFrom (place ++ [entry.1]) entry.2 :=
    FileTree.entryFilesFrom_eq_flatMap place entries
  rw [pagesBelow, inside, Option.elim_some, listed, List.filter_flatMap,
    List.flatMap_map]
  apply List.flatMap_congr
  intro entry member
  rw [pagesBelow, proper.at?_concat inside member, Option.elim_some]

theorem directoriesBelow_of_directory :
    directoriesBelow tree place =
      directoriesAmong tree (entries.map fun entry => place ++ [entry.1]) +
        1 := by
  have among (listed : List (Text × FileTree Content))
      (areEntries : listed ⊆ entries) :
      directoriesAmong tree (listed.map fun entry => place ++ [entry.1]) =
        FileTree.entryDirectoryCount listed := by
    induction listed with
    | nil => rfl
    | cons entry rest inductionHypothesis =>
        obtain ⟨member, areLater⟩ := List.cons_subset.mp areEntries
        rw [List.map_cons, directoriesAmong, inductionHypothesis areLater,
          directoriesBelow, proper.at?_concat inside member, Option.elim_some,
          FileTree.entryDirectoryCount]
  rw [directoriesBelow, inside, Option.elim_some, FileTree.directoryCount,
    among entries (List.Subset.refl _)]

end Below

namespace Walk

/-! ## Steps of a walk -/

/-- A walk, with places that it meets before the next listing, covers the pages
of a tree: those that it has met, and those below the other places. No more than
`fuel` directories are left to be listed. -/
structure Covers (tree : FileTree Content) (fuel : Nat)
    (coming : List (List Text)) (walk : Walk) : Prop where
  isDirectory : ∀ place ∈ walk.pending, tree.IsDirectoryAt place
  perm : (walk.pages ++ (walk.pending ++ coming).flatMap
    (pagesBelow tree)).Perm (pagesBelow tree [])
  bounded : directoriesAmong tree (walk.pending ++ coming) ≤ fuel

namespace Covers

variable {tree : FileTree Content} {fuel : Nat} {place : List Text}

/-- At first only the directory at the top is pending. -/
theorem initial {entries : List (Text × FileTree Content)}
    (enough : (FileTree.directory entries).directoryCount ≤ fuel) :
    Walk.initial.Covers (.directory entries) fuel [] where
  isDirectory := by
    rintro place member
    obtain rfl := List.mem_singleton.mp member
    exact ⟨entries, rfl⟩
  perm := by
    simp [Walk.initial]
  bounded := by
    simpa [Walk.initial, directoriesAmong, directoriesBelow, FileTree.at?_nil]
      using enough

theorem meet {coming : List (List Text)} {walk : Walk}
    {inner : FileTree Content}
    (covers : walk.Covers tree fuel (place :: coming))
    (inside : tree.at? place = some inner) :
    (walk.meet place (Disk.kindOf inner == .directory)).Covers tree fuel
      coming := by
  obtain ⟨pending, pages⟩ := walk
  obtain ⟨areDirectories, perm, bounded⟩ := covers
  have moved : (pending ++ place :: coming).Perm
      (place :: (pending ++ coming)) :=
    List.perm_middle
  have samePages := moved.flatMap_right (pagesBelow tree)
  replace perm := (samePages.append_left pages).symm.trans perm
  dsimp only at bounded areDirectories
  rw [directoriesAmong_append, directoriesAmong, Nat.add_left_comm,
    ← directoriesAmong_append] at bounded
  cases inner with
  | directory entries =>
      exact ⟨List.forall_mem_cons.mpr ⟨⟨entries, inside⟩, areDirectories⟩,
        perm, bounded⟩
  | file content =>
      rw [List.flatMap_cons, pagesBelow_of_file inside] at perm
      rw [directoriesBelow_of_file inside, Nat.zero_add] at bounded
      have notDirectory :
          (Disk.kindOf (.file content) == .directory) = false :=
        rfl
      rw [Walk.meet, notDirectory, if_neg Bool.false_ne_true]
      split at perm
      · rename_i isPage
        rw [if_pos isPage]
        exact ⟨areDirectories, List.perm_middle.symm.trans perm, bounded⟩
      · rename_i noPage
        rw [if_neg noPage]
        exact ⟨areDirectories, perm, bounded⟩

/-- A listing puts the entries of a directory in its place. -/
theorem list {pending pages : List (List Text)}
    {entries : List (Text × FileTree Content)} (proper : tree.IsProper)
    (covers : Covers tree (fuel + 1) [] ⟨place :: pending, pages⟩)
    (inside : tree.at? place = some (.directory entries)) :
    Covers tree fuel (entries.map fun entry => place ++ [entry.1])
      ⟨pending, pages⟩ := by
  obtain ⟨areDirectories, perm, bounded⟩ := covers
  refine ⟨fun other member =>
    areDirectories other (List.mem_cons_of_mem _ member), ?_, ?_⟩
  · rw [List.append_nil, List.flatMap_cons,
      pagesBelow_of_directory proper inside] at perm
    rw [List.flatMap_append]
    exact (List.perm_append_comm.append_left pages).trans perm
  · rw [List.append_nil, directoriesAmong,
      directoriesBelow_of_directory proper inside] at bounded
    rw [directoriesAmong_append]
    dsimp only
    omega

end Covers

/-! ## The walk on a disk -/

section Disk

variable {disk : Disk} {root : Text} {tree : FileTree Content}
variable (found : disk.find? root = some tree) (proper : tree.IsProper)

include found proper

theorem find?_pathOf {place : List Text} {inner : FileTree Content}
    (inside : tree.at? place = some inner) :
    disk.find? (pathOf root place) = some inner := by
  obtain ⟨here, leads, isTree⟩ := Disk.locate_of_find? found
  exact Disk.find?_foldl_join leads isTree proper inside

theorem run_isDirectory {place : List Text} {inner : FileTree Content}
    (inside : tree.at? place = some inner) :
    (FileTask.isDirectory (pathOf root place)).run disk =
      (Disk.kindOf inner == .directory, disk) := by
  change ((disk.find? (pathOf root place)).map Disk.kindOf ==
    some .directory, disk) = _
  rw [find?_pathOf found proper inside]
  rfl

theorem run_list {place : List Text}
    {entries : List (Text × FileTree Content)}
    (inside : tree.at? place = some (.directory entries)) :
    (FileTask.list (pathOf root place)).run disk =
      (.ok (entries.map Prod.fst), disk) := by
  obtain ⟨here, leads, isDirectory⟩ :=
    Disk.locate_of_find? (find?_pathOf found proper inside)
  change ((disk.list (pathOf root place)).mapError _, disk) = _
  rw [Disk.list, leads]
  simp only [isDirectory]
  rfl

/-- A walk meets all entries of a directory. -/
theorem exists_run_meetAll {fuel : Nat} {here names : List Text} {walk : Walk}
    (covers : walk.Covers tree fuel (names.map fun name => here ++ [name]))
    (inside : ∀ name ∈ names, ∃ inner,
      tree.at? (here ++ [name]) = some inner) :
    ∃ next, (meetAll root here walk names).run disk = (next, disk) ∧
      next.Covers tree fuel [] := by
  induction names generalizing walk with
  | nil =>
      exact ⟨walk, rfl, covers⟩
  | cons name rest inductionHypothesis =>
      obtain ⟨⟨inner, isInner⟩, insideRest⟩ := List.forall_mem_cons.mp inside
      obtain ⟨next, meets, nextCovers⟩ :=
        inductionHypothesis (covers.meet isInner) insideRest
      refine ⟨next, ?_, nextCovers⟩
      rw [meetAll, FileTask.run_bind, run_isDirectory found proper isInner]
      exact meets

/-- A walk with enough fuel ends with the pages of the tree. -/
theorem exists_run_finish {fuel : Nat} {walk : Walk}
    (covers : walk.Covers tree fuel []) :
    ∃ pages, (finish root fuel walk).run disk = (.ok pages, disk) ∧
      pages.Perm (pagesBelow tree []) := by
  induction fuel generalizing walk with
  | zero =>
      obtain ⟨pending, pages⟩ := walk
      cases pending with
      | nil =>
          exact ⟨pages, rfl, by simpa using covers.perm⟩
      | cons here pending =>
          -- A pending directory is at least one directory.
          obtain ⟨entries, inside⟩ :=
            covers.isDirectory here List.mem_cons_self
          have bounded := covers.bounded
          rw [List.append_nil, directoriesAmong,
            directoriesBelow_of_directory proper inside] at bounded
          omega
  | succ fuel inductionHypothesis =>
      obtain ⟨pending, pages⟩ := walk
      cases pending with
      | nil =>
          exact ⟨pages, rfl, by simpa using covers.perm⟩
      | cons here pending =>
          obtain ⟨entries, inside⟩ :=
            covers.isDirectory here List.mem_cons_self
          have listed : Covers tree fuel
              ((entries.map Prod.fst).map fun name => here ++ [name])
              ⟨pending, pages⟩ := by
            rw [List.map_map]
            exact covers.list proper inside
          obtain ⟨next, meets, nextCovers⟩ :=
            exists_run_meetAll found proper listed fun name member => by
              obtain ⟨entry, isEntry, rfl⟩ := List.mem_map.mp member
              exact ⟨_, proper.at?_concat inside isEntry⟩
          obtain ⟨all, ends, isAll⟩ := inductionHypothesis nextCovers
          refine ⟨all, ?_, isAll⟩
          rw [finish]
          simp only [FileTask.run_bind, run_list found proper inside, meets]
          exact ends

end Disk

end Walk

/-- The pages that are found below a directory are those of its tree. -/
theorem run_pagePlaces {disk : Disk} {root : Text}
    {entries : List (Text × FileTree Content)}
    (found : disk.find? root = some (.directory entries))
    (proper : (FileTree.directory entries).IsProper) :
    (pagePlaces root).run disk =
      (.ok (orderedPages (.directory entries)), disk) := by
  obtain ⟨here, -, isTree⟩ := Disk.locate_of_find? found
  have enough : (FileTree.directory entries).directoryCount ≤
      disk.root.directoryCount :=
    FileTree.directoryCount_le_of_at? isTree
  obtain ⟨pages, ends, isAll⟩ :=
    Walk.exists_run_finish found proper (Walk.Covers.initial enough)
  have runBound : FileTask.directoryBound.run disk =
      (disk.root.directoryCount, disk) :=
    rfl
  rw [pagePlaces, FileTask.run_bind, runBound]
  simp only [FileTask.run_bind, ends]
  rw [mergeSort_eq_of_perm isAll]
  rfl

end ComponentDocs.Build
