import ComponentDocs.Build.Basic
import ComponentDocs.Proofs.Files.Task
import ComponentDocs.Proofs.Files.Write
import ComponentDocs.Proofs.Store.Stem
import ComponentDocs.Store.Basic

/-!
The files that are read for a tag: at most one, whose name is the stem of the
tag with one of the ends. Two tags share such a file on some disk only when
their stems do not tell them apart.
-/

namespace ComponentDocs.Store

open Files

/-! ## The first file -/

/-- Whether a path leads to a file. -/
def leadsToFile (disk : Disk) (path : Text) : Bool :=
  (disk.find? path).map Disk.kindOf == some .file

theorem run_isFile (disk : Disk) (path : Text) :
    (FileTask.isFile path).run disk = (leadsToFile disk path, disk) :=
  rfl

/-- Of several paths the first that leads to a file is read. -/
theorem readPlaces_readFirst (disk : Disk) (paths : List Text) :
    (readFirst paths).readPlaces disk =
      (paths.find? (leadsToFile disk)).toList.flatMap fun path =>
        (disk.locate path).toOption.toList := by
  induction paths with
  | nil =>
      rfl
  | cons path rest inductionHypothesis =>
      rw [readFirst, FileTask.readPlaces_bind, FileTask.readPlaces_isFile,
        run_isFile, List.nil_append]
      cases isFile : leadsToFile disk path with
      | true =>
          rw [if_pos rfl, FileTask.readPlaces_bind, FileTask.readPlaces_read,
            List.find?_cons_of_pos isFile]
          -- Nothing more is read, whatever the outcome is.
          cases ((FileTask.read path).run disk).1 <;> simp
      | false =>
          rw [List.find?_cons_of_neg (by simp [isFile])]
          exact inductionHypothesis

theorem mem_readPlaces_textOf {disk : Disk} {directory tag : Text}
    {ends : List Text} {place : List Text} :
    place ∈ (textOf directory ends tag).readPlaces disk ↔
      stemOf tag ≠ [] ∧
        ∃ path,
          (candidates directory (stemOf tag) ends).find? (leadsToFile disk) =
              some path ∧
            disk.locate path = .ok place := by
  rw [textOf]
  split
  case isTrue blank =>
    have stemless : stemOf tag = [] := List.isEmpty_iff.mp blank
    simp [stemless]
  case isFalse visible =>
    have stemmed : stemOf tag ≠ [] := fun empty => visible (by simp [empty])
    rw [readPlaces_readFirst]
    simp only [List.mem_flatMap, Option.mem_toList, stemmed, ne_eq,
      not_false_eq_true, true_and]
    apply exists_congr
    intro path
    cases disk.locate path <;> simp [Except.toOption]

/-! ## Shared files -/

section Shared

variable {disk : Disk} {directory tag other : Text} {ends : List Text}
variable {place : List Text}

/-- A file is read for a tag by a name of the tag. -/
theorem exists_end_of_mem_readPlaces
    (reads : place ∈ (textOf directory ends tag).readPlaces disk) :
    ∃ last ∈ ends,
      disk.locate (Path.join directory (stemOf tag ++ last)) = .ok place := by
  obtain ⟨-, path, found, leads⟩ := mem_readPlaces_textOf.mp reads
  obtain ⟨last, member, rfl⟩ :=
    List.mem_map.mp (List.mem_of_find?_eq_some found)
  exact ⟨last, member, leads⟩

/-- A file that is read for two tags has a name of both. -/
theorem exists_ends_of_shared (areEnds : ∀ last ∈ ends, IsEnd last)
    (reads : place ∈ (textOf directory ends tag).readPlaces disk)
    (readsOther : place ∈ (textOf directory ends other).readPlaces disk) :
    ∃ first ∈ ends, ∃ second ∈ ends,
      stemOf tag ++ first = stemOf other ++ second := by
  obtain ⟨first, isFirst, leads⟩ := exists_end_of_mem_readPlaces reads
  obtain ⟨second, isSecond, leadsOther⟩ :=
    exists_end_of_mem_readPlaces readsOther
  exact ⟨first, isFirst, second, isSecond,
    Disk.eq_of_locate_join
      (isEntryName_stemOf_append tag (areEnds first isFirst))
      (isEntryName_stemOf_append other (areEnds second isSecond))
      leads leadsOther⟩

end Shared

/-! ## A data directory with one file -/

/-- A disk with one file, in a directory of the data directory. -/
def oneFileDisk (folder name : Text) : Disk where
  root := .directory
    [("data".toList, .directory
      [(folder, .directory [(name, .file (.text []))])])]
  workingDirectory := []

def dataStore : Store := ⟨"data".toList⟩

/-- The directories of the files of tags. -/
def IsFolder (folder : Text) : Prop :=
  folder = "types".toList ∨ folder = "examples".toList

section OneFile

variable {folder name : Text} (isFolder : IsFolder folder)

include isFolder

theorem leadsTo_oneFileDisk :
    (oneFileDisk folder name).LeadsTo (Path.join dataStore.root folder)
      ["data".toList, folder] := by
  rcases isFolder with rfl | rfl <;> exact ⟨rfl, _, rfl⟩

theorem leadsToFile_oneFileDisk {other : Text}
    (proper : FileTree.IsEntryName other) :
    leadsToFile (oneFileDisk folder name)
        (Path.join (Path.join dataStore.root folder) other) =
      decide (other = name) := by
  rw [leadsToFile, (leadsTo_oneFileDisk isFolder).find?_join proper]
  rcases isFolder with rfl | rfl
  all_goals
    by_cases same : other = name
    · subst same
      simp [oneFileDisk, Disk.at?, FileTree.at?, FileTree.child?, Disk.kindOf]
    · have differs : name ≠ other := fun equal => same equal.symm
      simp [oneFileDisk, Disk.at?, FileTree.at?, FileTree.child?, same,
        differs]

/-- The one file is read for every tag that gives its name. -/
theorem mem_readPlaces_oneFileDisk {tag last : Text} {ends : List Text}
    (areEnds : ∀ last ∈ ends, IsEnd last) (visible : stemOf tag ≠ [])
    (member : last ∈ ends) (isName : name = stemOf tag ++ last) :
    ["data".toList, folder, name] ∈
      (textOf (Path.join dataStore.root folder) ends tag).readPlaces
        (oneFileDisk folder name) := by
  have proper {other : Text} (isOther : other ∈ ends) :=
    isEntryName_stemOf_append tag (areEnds other isOther)
  have exists_file :
      ((candidates (Path.join dataStore.root folder) (stemOf tag) ends).find?
        (leadsToFile (oneFileDisk folder name))).isSome := by
    rw [List.find?_isSome]
    refine ⟨_, List.mem_map_of_mem member, ?_⟩
    rw [leadsToFile_oneFileDisk isFolder (proper member), decide_eq_true_eq,
      isName]
  obtain ⟨path, found⟩ := Option.isSome_iff_exists.mp exists_file
  obtain ⟨other, isOther, rfl⟩ :=
    List.mem_map.mp (List.mem_of_find?_eq_some found)
  have isFile := List.find?_some found
  rw [leadsToFile_oneFileDisk isFolder (proper isOther),
    decide_eq_true_eq] at isFile
  refine mem_readPlaces_textOf.mpr ⟨visible, _, found, ?_⟩
  have holds :
      (oneFileDisk folder name).at? ["data".toList, folder, name] =
        some (.file (.text [])) := by
    rcases isFolder with rfl | rfl <;>
      simp [oneFileDisk, Disk.at?, FileTree.at?, FileTree.child?]
  rw [isFile]
  exact (leadsTo_oneFileDisk isFolder).locate_join (isFile ▸ proper isOther)
    holds

end OneFile

/-! ## Tags that share a file -/

/-- Some data directory has an example file that is read for both tags. -/
def ShareExamples (tag other : Text) : Prop :=
  ∃ (store : Store) (disk : Disk) (place : List Text),
    place ∈ (store.examples tag).readPlaces disk ∧
      place ∈ (store.examples other).readPlaces disk

/-- Some data directory has a type definition that is read for both tags. -/
def ShareTypes (tag other : Text) : Prop :=
  ∃ (store : Store) (disk : Disk) (place : List Text),
    place ∈ (store.typeDefinition tag).readPlaces disk ∧
      place ∈ (store.typeDefinition other).readPlaces disk

theorem shareExamples_iff {tag other : Text} :
    ShareExamples tag other ↔
      stemOf tag ≠ [] ∧ stemOf tag = stemOf other := by
  constructor
  · rintro ⟨store, disk, place, reads, readsOther⟩
    obtain ⟨first, isFirst, second, isSecond, same⟩ :=
      exists_ends_of_shared isEnd_of_mem_exampleEnds reads readsOther
    exact ⟨(mem_readPlaces_textOf.mp reads).1,
      eq_of_append_exampleEnd isFirst isSecond same⟩
  · rintro ⟨visible, same⟩
    have isFolder : IsFolder "examples".toList := .inr rfl
    have member : ".md".toList ∈ exampleEnds := List.mem_cons_self
    exact ⟨dataStore, oneFileDisk _ (stemOf tag ++ ".md".toList), _,
      mem_readPlaces_oneFileDisk isFolder isEnd_of_mem_exampleEnds visible
        member rfl,
      mem_readPlaces_oneFileDisk isFolder isEnd_of_mem_exampleEnds
        (same ▸ visible) member (by rw [same])⟩

theorem shareTypes_iff {tag other : Text} :
    ShareTypes tag other ↔
      stemOf tag ≠ [] ∧ stemOf other ≠ [] ∧
        Overlap (stemOf tag) (stemOf other) := by
  constructor
  · rintro ⟨store, disk, place, reads, readsOther⟩
    obtain ⟨first, isFirst, second, isSecond, same⟩ :=
      exists_ends_of_shared isEnd_of_mem_typeEnds reads readsOther
    exact ⟨(mem_readPlaces_textOf.mp reads).1,
      (mem_readPlaces_textOf.mp readsOther).1,
      overlap_of_append_typeEnd isFirst isSecond same⟩
  · rintro ⟨visible, visibleOther, overlap⟩
    have isFolder : IsFolder "types".toList := .inl rfl
    have shared {first second : Text} (isFirst : first ∈ typeEnds)
        (isSecond : second ∈ typeEnds)
        (same : stemOf tag ++ first = stemOf other ++ second) :
        ShareTypes tag other :=
      ⟨dataStore, oneFileDisk _ (stemOf tag ++ first), _,
        mem_readPlaces_oneFileDisk isFolder isEnd_of_mem_typeEnds visible
          isFirst rfl,
        mem_readPlaces_oneFileDisk isFolder isEnd_of_mem_typeEnds visibleOther
          isSecond same⟩
    have inTwoParts : ".d.ts".toList ∈ typeEnds := by decide
    have inOnePart : ".ts".toList ∈ typeEnds := by decide
    rcases overlap with same | longer | longer
    · exact shared inOnePart inOnePart (by rw [same])
    · exact shared inOnePart inTwoParts
        (by rw [longer, List.append_assoc]; rfl)
    · exact shared inTwoParts inOnePart
        (by rw [longer, List.append_assoc]; rfl)

/-- Two tags share a file on no disk unless their stems are one: then they
share all of them, whatever the tags are. A type definition is also shared by a
stem and its continuation with a point and a small d. A stem tells all of a tag
when the tag can be a file name as it is, and only then. -/
theorem share_iff_stems (tag other : Text) :
    (ShareExamples tag other ↔
        stemOf tag ≠ [] ∧ stemOf tag = stemOf other) ∧
      (ShareTypes tag other ↔
        stemOf tag ≠ [] ∧ stemOf other ≠ [] ∧
          Overlap (stemOf tag) (stemOf other)) ∧
      (stemOf tag = tag ↔ IsPlainTag tag) :=
  ⟨shareExamples_iff, shareTypes_iff, stemOf_eq_self_iff⟩

/-- A page of which only the title is known. -/
def namedPage (slug title : String) : Build.Page :=
  (slug.toList,
    Build.assemble .default slug.toList
      (.ok ("---\ntitle: " ++ title ++ "\n---\n").toList))

/-- A data directory with two type definitions and an example. -/
def threeFilesDisk : Disk where
  root := .directory
    [("data".toList, .directory
      [("types".toList, .directory
          [("y-__.d.ts".toList, .file (.text [])),
            ("y-form.d.ts".toList, .file (.text []))]),
        ("examples".toList, .directory
          [("y-__.md".toList, .file (.text []))])])]
  workingDirectory := []

/-- Different tags of one corpus share files: two titles without a letter that
may stand in a file name share all, and a title shares the type definition of
its continuation. -/
theorem titles_share :
    (Build.ofPages .default
        [namedPage "a" "按钮", namedPage "b" "表单", namedPage "c" "Form",
          namedPage "d" "Form.d"]).components.map Component.tag =
        ["y-按钮", "y-表单", "y-form", "y-form.d"].map String.toList ∧
      (∀ tag ∈ ["y-按钮", "y-表单"].map String.toList,
        (dataStore.typeDefinition tag).readPlaces threeFilesDisk =
            [["data", "types", "y-__.d.ts"].map String.toList] ∧
          (dataStore.examples tag).readPlaces threeFilesDisk =
            [["data", "examples", "y-__.md"].map String.toList]) ∧
      ∀ tag ∈ ["y-form", "y-form.d"].map String.toList,
        (dataStore.typeDefinition tag).readPlaces threeFilesDisk =
          [["data", "types", "y-form.d.ts"].map String.toList] := by
  refine ⟨?_, ?_, ?_⟩ <;> decide +kernel

end ComponentDocs.Store
