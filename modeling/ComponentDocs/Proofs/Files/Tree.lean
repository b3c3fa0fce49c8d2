import ComponentDocs.Files.Tree
import Mathlib.Data.List.Nodup
import Mathlib.Data.List.Perm.Basic

/-!
Trees as the files in them.

In a tree whose directories name each entry once, the files that are listed are
those that are found at their places, and the order of the listings changes
none of them.
-/

namespace ComponentDocs.FileTree

variable {α : Type}

/-! ## Proper trees -/

/-- What a name of an entry must be: steps of a path that stay or lead up, and
slashes, are no part of it. -/
structure IsEntryName (name : Text) : Prop where
  nonempty : name ≠ []
  unslashed : '/' ∉ name
  notHere : name ≠ ['.']
  notUp : name ≠ ['.', '.']

instance (name : Text) : Decidable (IsEntryName name) :=
  decidable_of_iff
    (name ≠ [] ∧ '/' ∉ name ∧ name ≠ ['.'] ∧ name ≠ ['.', '.'])
    ⟨fun ⟨nonempty, unslashed, notHere, notUp⟩ =>
      ⟨nonempty, unslashed, notHere, notUp⟩,
      fun proper =>
        ⟨proper.nonempty, proper.unslashed, proper.notHere, proper.notUp⟩⟩

/-- Every directory names its entries properly and each only once. -/
inductive IsProper : FileTree α → Prop
  | file (content : α) : IsProper (file content)
  | directory {entries : List (Text × FileTree α)} :
      (entries.map Prod.fst).Nodup →
      (∀ entry ∈ entries, IsEntryName entry.1) →
      (∀ entry ∈ entries, IsProper entry.2) →
      IsProper (directory entries)

/-- Two trees that differ only in the order of their listings. -/
inductive Relisted : FileTree α → FileTree α → Prop
  | refl (tree : FileTree α) : Relisted tree tree
  | trans {first second third : FileTree α} :
      Relisted first second → Relisted second third → Relisted first third
  | permute {entries others : List (Text × FileTree α)} :
      entries.Perm others → Relisted (directory entries) (directory others)
  | inside (before after : List (Text × FileTree α)) (name : Text)
      {tree other : FileTree α} :
      Relisted tree other →
      Relisted (directory (before ++ (name, tree) :: after))
        (directory (before ++ (name, other) :: after))

/-! ## Places -/

theorem at?_directory_cons (entries : List (Text × FileTree α)) (name : Text)
    (rest : List Text) :
    (directory entries).at? (name :: rest) =
      (child? name entries).bind (at? · rest) := by
  rw [at?]
  cases child? name entries <;> rfl

theorem at?_nil (tree : FileTree α) : tree.at? [] = some tree := by
  cases tree <;> rfl

theorem at?_append (tree : FileTree α) (first second : List Text) :
    tree.at? (first ++ second) = (tree.at? first).bind (at? · second) := by
  induction first generalizing tree with
  | nil =>
      rw [at?_nil]
      rfl
  | cons name rest inductionHypothesis =>
      cases tree with
      | file content =>
          rfl
      | directory entries =>
          rw [List.cons_append, at?_directory_cons, at?_directory_cons]
          cases child? name entries with
          | none => rfl
          | some inner => exact inductionHypothesis inner

/-- Of entries with distinct names each is the child of its name. -/
theorem child?_eq_some_iff {entries : List (Text × FileTree α)} {name : Text}
    {tree : FileTree α} (distinct : (entries.map Prod.fst).Nodup) :
    child? name entries = some tree ↔ (name, tree) ∈ entries := by
  induction entries with
  | nil =>
      simp [child?]
  | cons entry rest inductionHypothesis =>
      obtain ⟨absent, distinctRest⟩ := List.nodup_cons.mp distinct
      have ofRest := inductionHypothesis distinctRest
      by_cases same : entry.1 = name
      · have notInRest : (name, tree) ∉ rest := fun member =>
          absent (same ▸ List.mem_map_of_mem member)
        simp [child?, same, notInRest, Prod.ext_iff, eq_comm]
      · have different : (name, tree) ≠ entry := fun equality =>
          same (congrArg Prod.fst equality).symm
        simpa [child?, same, different] using ofRest

theorem child?_append_cons (before after : List (Text × FileTree α))
    (name wanted : Text) (tree : FileTree α) :
    child? wanted (before ++ (name, tree) :: after) =
      (child? wanted before).or
        (if name = wanted then some tree else child? wanted after) := by
  simp only [child?, List.find?_append, List.find?_cons, Option.map_or]
  by_cases same : name = wanted
  · simp [same]
  · simp [same, beq_eq_false_iff_ne.mpr same]

/-- A file stands below a directory in exactly one of its entries. -/
theorem at?_directory_eq_file_iff {entries : List (Text × FileTree α)}
    {place : List Text} {content : α}
    (distinct : (entries.map Prod.fst).Nodup) :
    (directory entries).at? place = some (file content) ↔
      ∃ name inner rest, place = name :: rest ∧ (name, inner) ∈ entries ∧
        inner.at? rest = some (file content) := by
  cases place with
  | nil =>
      simp [at?]
  | cons name rest =>
      rw [at?_directory_cons, Option.bind_eq_some_iff]
      constructor
      · rintro ⟨inner, isChild, isFile⟩
        exact ⟨name, inner, rest, rfl,
          (child?_eq_some_iff distinct).mp isChild, isFile⟩
      · rintro ⟨_, inner, _, split, member, isFile⟩
        obtain ⟨rfl, rfl⟩ := List.cons.inj split
        exact ⟨inner, (child?_eq_some_iff distinct).mpr member, isFile⟩

theorem IsProper.of_at? {tree inner : FileTree α} (proper : tree.IsProper)
    {place : List Text} (inside : tree.at? place = some inner) :
    inner.IsProper := by
  induction place generalizing tree with
  | nil =>
      rw [at?_nil] at inside
      exact Option.some.inj inside ▸ proper
  | cons name rest inductionHypothesis =>
      cases proper with
      | file content => cases inside
      | directory distinct _ properEntries =>
          rw [at?_directory_cons, Option.bind_eq_some_iff] at inside
          obtain ⟨child, isChild, inside⟩ := inside
          have member := (child?_eq_some_iff distinct).mp isChild
          exact inductionHypothesis (properEntries _ member) inside

/-- The entries of a directory of a proper tree stand below it. -/
theorem IsProper.at?_concat {tree : FileTree α} (proper : tree.IsProper)
    {place : List Text} {entries : List (Text × FileTree α)}
    (inside : tree.at? place = some (FileTree.directory entries))
    {entry : Text × FileTree α} (member : entry ∈ entries) :
    tree.at? (place ++ [entry.1]) = some entry.2 := by
  cases proper.of_at? inside with
  | directory distinct =>
      rw [at?_append, inside, Option.bind_some, at?_directory_cons,
        (child?_eq_some_iff distinct).mpr member, Option.bind_some, at?_nil]

/-! ## The order of listings -/

theorem Relisted.isProper {tree other : FileTree α}
    (relisted : Relisted tree other) (proper : tree.IsProper) :
    other.IsProper := by
  induction relisted with
  | refl tree =>
      exact proper
  | trans _ _ first second =>
      exact second (first proper)
  | permute permutation =>
      cases proper with
      | directory distinct named properEntries =>
          exact .directory ((permutation.map Prod.fst).nodup_iff.mp distinct)
            (fun entry member => named entry (permutation.mem_iff.mpr member))
            fun entry member =>
              properEntries entry (permutation.mem_iff.mpr member)
  | inside before after name _ inductionHypothesis =>
      cases proper with
      | directory distinct named properEntries =>
          simp only [List.forall_mem_append, List.forall_mem_cons]
            at named properEntries
          obtain ⟨properBefore, properTree, properAfter⟩ := properEntries
          refine .directory (by simpa using distinct) ?_ ?_
          · simpa only [List.forall_mem_append, List.forall_mem_cons]
              using named
          · simpa only [List.forall_mem_append, List.forall_mem_cons]
              using ⟨properBefore, inductionHypothesis properTree, properAfter⟩

/-- The order of the listings of a proper tree changes no file. -/
theorem Relisted.at?_eq_file_iff {tree other : FileTree α}
    (relisted : Relisted tree other) (proper : tree.IsProper)
    (place : List Text) (content : α) :
    tree.at? place = some (file content) ↔
      other.at? place = some (file content) := by
  induction relisted generalizing place with
  | refl tree =>
      exact Iff.rfl
  | trans first _ firstHypothesis secondHypothesis =>
      exact (firstHypothesis proper place).trans
        (secondHypothesis (first.isProper proper) place)
  | permute permutation =>
      cases proper with
      | directory distinct =>
          have distinctOthers :=
            (permutation.map Prod.fst).nodup_iff.mp distinct
          simp only [at?_directory_eq_file_iff distinct,
            at?_directory_eq_file_iff distinctOthers, permutation.mem_iff]
  | inside before after name _ inductionHypothesis =>
      cases proper with
      | directory _ _ properEntries =>
          have sameInner :=
            inductionHypothesis (properEntries (name, _) (by simp))
          cases place with
          | nil =>
              simp [at?]
          | cons step rest =>
              rw [at?_directory_cons, at?_directory_cons, child?_append_cons,
                child?_append_cons]
              cases child? step before with
              | some inner =>
                  exact Iff.rfl
              | none =>
                  by_cases same : name = step
                  · simpa [same] using sameInner rest
                  · simp [same]

/-! ## Listed files -/

mutual

theorem filesFrom_eq_map (here : List Text) (tree : FileTree α) :
    filesFrom here tree = (files tree).map (here ++ ·) := by
  cases tree with
  | file content =>
      simp [files, filesFrom]
  | directory entries =>
      exact entryFilesFrom_eq_map here entries

theorem entryFilesFrom_eq_map (here : List Text)
    (entries : List (Text × FileTree α)) :
    entryFilesFrom here entries =
      (entryFilesFrom [] entries).map (here ++ ·) := by
  cases entries with
  | nil =>
      rfl
  | cons entry rest =>
      obtain ⟨name, tree⟩ := entry
      rw [entryFilesFrom, entryFilesFrom, filesFrom_eq_map,
        filesFrom_eq_map ([] ++ [name]), entryFilesFrom_eq_map here rest]
      simp

end

theorem entryFilesFrom_eq_flatMap (here : List Text)
    (entries : List (Text × FileTree α)) :
    entryFilesFrom here entries =
      entries.flatMap fun entry => filesFrom (here ++ [entry.1]) entry.2 := by
  induction entries with
  | nil =>
      rfl
  | cons entry rest inductionHypothesis =>
      rw [entryFilesFrom, inductionHypothesis, List.flatMap_cons]

theorem files_directory (entries : List (Text × FileTree α)) :
    files (directory entries) =
      entries.flatMap fun entry => (files entry.2).map (entry.1 :: ·) := by
  change entryFilesFrom [] entries = _
  rw [entryFilesFrom_eq_flatMap]
  apply List.flatMap_congr
  intro entry _
  exact filesFrom_eq_map [entry.1] entry.2

/-- The files that are listed are those that are found at their places. -/
theorem IsProper.mem_files_iff {tree : FileTree α} (proper : tree.IsProper)
    (place : List Text) :
    place ∈ tree.files ↔ ∃ content, tree.at? place = some (.file content) := by
  induction proper generalizing place with
  | file content =>
      cases place <;> simp [files, filesFrom, at?]
  | directory distinct _ _ inductionHypothesis =>
      simp only [files_directory, List.mem_flatMap, List.mem_map,
        at?_directory_eq_file_iff distinct]
      constructor
      · rintro ⟨⟨name, inner⟩, member, rest, listed, rfl⟩
        obtain ⟨content, isFile⟩ :=
          (inductionHypothesis _ member rest).mp listed
        exact ⟨content, name, inner, rest, rfl, member, isFile⟩
      · rintro ⟨content, name, inner, rest, rfl, member, isFile⟩
        exact ⟨(name, inner), member, rest,
          (inductionHypothesis _ member rest).mpr ⟨content, isFile⟩, rfl⟩

/-- No file is listed twice. -/
theorem IsProper.nodup_files {tree : FileTree α} (proper : tree.IsProper) :
    tree.files.Nodup := by
  induction proper with
  | file content =>
      exact List.nodup_singleton []
  | @directory entries distinct _ _ inductionHypothesis =>
      rw [files_directory, List.nodup_flatMap]
      refine ⟨fun entry member => ?_, ?_⟩
      · exact (inductionHypothesis entry member).map List.cons_injective
      · refine (List.pairwise_map.mp distinct).imp ?_
        intro first second different place ofFirst ofSecond
        obtain ⟨_, _, rfl⟩ := List.mem_map.mp ofFirst
        obtain ⟨_, _, equality⟩ := List.mem_map.mp ofSecond
        exact different (List.cons.inj equality).1.symm

/-! ## Numbers of directories -/

theorem directoryCount_le_of_mem {entry : Text × FileTree α}
    {entries : List (Text × FileTree α)} (member : entry ∈ entries) :
    entry.2.directoryCount ≤ entryDirectoryCount entries := by
  induction entries with
  | nil => cases member
  | cons first rest inductionHypothesis =>
      rw [entryDirectoryCount]
      rcases List.mem_cons.mp member with rfl | isLater
      · exact Nat.le_add_right _ _
      · exact Nat.le_add_left_of_le (inductionHypothesis isLater)

/-- A part of a tree has no more directories than the tree. -/
theorem directoryCount_le_of_at? {tree inner : FileTree α}
    {place : List Text} (inside : tree.at? place = some inner) :
    inner.directoryCount ≤ tree.directoryCount := by
  induction place generalizing tree with
  | nil =>
      rw [at?_nil] at inside
      exact Option.some.inj inside ▸ Nat.le_refl _
  | cons name rest inductionHypothesis =>
      cases tree with
      | file content => cases inside
      | directory entries =>
          rw [at?_directory_cons, Option.bind_eq_some_iff] at inside
          obtain ⟨child, isChild, inside⟩ := inside
          obtain ⟨entry, isEntry, rfl⟩ := Option.map_eq_some_iff.mp isChild
          have member := List.mem_of_find?_eq_some isEntry
          calc
            inner.directoryCount ≤ entry.2.directoryCount :=
              inductionHypothesis inside
            _ ≤ entryDirectoryCount entries := directoryCount_le_of_mem member
            _ ≤ (directory entries).directoryCount := Nat.le_succ _

end ComponentDocs.FileTree
