import ComponentDocs.Build.Basic
import ComponentDocs.Proofs.Assembly.Collect
import ComponentDocs.Proofs.Build.Walk
import Mathlib.Algebra.BigOperators.Group.List.Basic
import Mathlib.Algebra.Order.Ring.Nat

/-!
What a build makes of the pages below a directory: the components, the counts,
and which of two pages with one tag is kept.
-/

namespace ComponentDocs.Build

open Files (Content Disk Trouble)

/-! ## Progress -/

theorem ofPages_concat (options : ParseOptions) (pages : List Page)
    (page : Page) :
    ofPages options (pages ++ [page]) =
      add options (ofPages options pages) page :=
  List.foldl_concat ..

/-- The components are the last ones of their tags, in the order of the first
ones. -/
theorem components_ofPages (options : ParseOptions) (pages : List Page) :
    (ofPages options pages).components =
      Assembly.latest Component.tag (pages.map (componentOf options)) := by
  induction pages using List.reverseRecOn with
  | nil =>
      rfl
  | append_singleton pages page inductionHypothesis =>
      rw [ofPages_concat, List.map_append, List.map_singleton,
        Assembly.latest_concat, ← inductionHypothesis]
      rfl

theorem documents_ofPages (options : ParseOptions) (pages : List Page) :
    (ofPages options pages).report.documents = pages.length := by
  induction pages using List.reverseRecOn with
  | nil =>
      rfl
  | append_singleton pages page inductionHypothesis =>
      simp [ofPages_concat, add, inductionHypothesis]

theorem failures_ofPages (options : ParseOptions) (pages : List Page) :
    (ofPages options pages).report.failures =
      (pages.map failureCount).sum := by
  induction pages using List.reverseRecOn with
  | nil =>
      rfl
  | append_singleton pages page inductionHypothesis =>
      simp [ofPages_concat, add, inductionHypothesis]

theorem hasTag_iff {tag : Text} {components : List Component} :
    hasTag tag components = true ↔ tag ∈ components.map Component.tag := by
  simp [hasTag]

/-- Every page is a component or has taken the place of one. -/
theorem documents_eq_components_add_duplicates (options : ParseOptions)
    (pages : List Page) :
    (ofPages options pages).report.documents =
      (ofPages options pages).components.length +
        (ofPages options pages).report.duplicates := by
  induction pages using List.reverseRecOn with
  | nil =>
      rfl
  | append_singleton pages page inductionHypothesis =>
      simp only [ofPages_concat, add, Assembly.length_upsert, hasTag_iff,
        inductionHypothesis]
      split <;> omega

/-! ## Documents -/

/-- The component that a page gives, if it is text and can be assembled. -/
def described? (options : ParseOptions) : Document → Option Component
  | (place, .text content) =>
      (Assembly.component (slug place) content options).toOption
  | (_, .binary) => none

/-- The component of which only the tag is known, named for the file. -/
def fallback (options : ParseOptions) (document : Document) : Component :=
  Component.ofTag (Name.tag (slug document.1) options.componentPrefix)

/-- The component that a page puts into the corpus. -/
def contribution (options : ParseOptions) (document : Document) : Component :=
  (described? options document).getD (fallback options document)

/-- A page as it is read. -/
def pageOf (options : ParseOptions) (document : Document) : Page :=
  (slug document.1,
    assemble options (slug document.1)
      ((Disk.contentRead document.2).mapError Trouble.failure))

theorem componentOf_pageOf (options : ParseOptions) (document : Document) :
    componentOf options (pageOf options document) =
      contribution options document := by
  obtain ⟨place, content | _⟩ := document
  · change componentOf options
      (slug place, Assembly.component (slug place) content options) = _
    cases assembled : Assembly.component (slug place) content options <;>
      simp [componentOf, contribution, described?, fallback, assembled,
        Except.toOption]
  · rfl

theorem failureCount_pageOf (options : ParseOptions) (document : Document) :
    failureCount (pageOf options document) =
      if (described? options document).isNone then 1 else 0 := by
  obtain ⟨place, content | _⟩ := document
  · change failureCount
      (slug place, Assembly.component (slug place) content options) = _
    cases assembled : Assembly.component (slug place) content options <;>
      simp [failureCount, described?, assembled, Except.toOption]
  · rfl

/-- The failures are the pages that give no component. -/
theorem failures_ofDocuments (options : ParseOptions)
    (documents : List Document) :
    (ofPages options (documents.map (pageOf options))).report.failures =
      (documents.filter fun document =>
        (described? options document).isNone).length := by
  rw [failures_ofPages, List.map_map]
  induction documents with
  | nil =>
      rfl
  | cons document rest inductionHypothesis =>
      rw [List.map_cons, List.sum_cons, inductionHypothesis,
        Function.comp_apply, failureCount_pageOf, List.filter_cons]
      split
      · rw [List.length_cons, Nat.add_comm]
      · rw [Nat.zero_add]

theorem components_ofDocuments (options : ParseOptions)
    (documents : List Document) :
    (ofPages options (documents.map (pageOf options))).components =
      Assembly.latest Component.tag
        (documents.map (contribution options)) := by
  rw [components_ofPages, List.map_map]
  congr 2
  funext document
  exact componentOf_pageOf options document

/-! ## Running a build -/

theorem readPages_run (options : ParseOptions) (root : Text)
    (places : List (List Text)) (disk : Disk) :
    (readPages options root places).run disk =
      (places.map fun place =>
        (slug place, assemble options (slug place)
          ((disk.read (pathOf root place)).mapError Trouble.failure)),
        disk) := by
  induction places with
  | nil =>
      rfl
  | cons place rest inductionHypothesis =>
      rw [readPages, FileTask.run_bind]
      change (readPages options root rest >>= _).run disk = _
      rw [FileTask.run_bind, inductionHypothesis]
      rfl

section Build

variable {disk : Disk} {root : Text}
variable {entries : List (Text × FileTree Content)}
variable (options : ParseOptions) (source : ReleaseSource) (now : Instant)
variable (found : disk.find? root = some (.directory entries))
variable (proper : (FileTree.directory entries).IsProper)

include found proper

/-- The pages of a directory as they are read from the disk. -/
theorem readPages_eq_map_pageOf :
    (readPages options root (orderedPages (.directory entries))).run disk =
      ((orderedPages (.directory entries)).map fun place =>
        pageOf options (place, contentAt (.directory entries) place), disk) := by
  rw [readPages_run]
  congr 1
  apply List.map_congr_left
  intro place member
  have listed : place ∈ (FileTree.directory entries).files := by
    rw [orderedPages, List.mem_mergeSort] at member
    exact (List.mem_filter.mp member).1
  obtain ⟨content, isFile⟩ := (proper.mem_files_iff place).mp listed
  rw [pageOf, contentAt_eq isFile,
    Disk.read_of_find? (Walk.find?_pathOf found proper isFile), Disk.treeRead]

/-- A build gives the corpus of the pages of the directory. -/
theorem exists_corpus_run :
    ∃ documents, ListsPages (.directory entries) documents ∧
      ((corpus options root source now).run disk).1 =
        .ok (⟨(source.current.run disk).1, now,
            (ofPages options (documents.map (pageOf options))).components⟩,
          (ofPages options (documents.map (pageOf options))).report) := by
  refine ⟨_, listsPages_orderedPages proper, ?_⟩
  have isDirectory : (FileTask.isDirectory root).run disk = (true, disk) :=
    Walk.run_isDirectory found proper (FileTree.at?_nil _)
  rw [corpus, FileTask.run_bind, isDirectory, if_pos rfl]
  simp only [FileTask.run_bind, run_pagePlaces found proper,
    readPages_eq_map_pageOf options found proper, List.map_map]
  rfl

end Build

/-! ## Accounting -/

/-- A corpus and a report account for the pages of a tree: the counts, and for
each tag the component of its last page in the place of its first page. -/
structure Accounts (options : ParseOptions) (documents : List Document)
    (built : Corpus) (report : Report) : Prop where
  documents_eq : report.documents = documents.length
  failures_eq : report.failures =
    (documents.filter fun document =>
      (described? options document).isNone).length
  documents_eq_add : report.documents =
    built.components.length + report.duplicates
  nodup_tags : (built.components.map Component.tag).Nodup
  tags_eq : built.components.map Component.tag =
    (documents.map fun document =>
      (contribution options document).tag).eraseDups
  last : ∀ component ∈ built.components, ∃ before document after,
    documents = before ++ document :: after ∧
      component = contribution options document ∧
      ∀ later ∈ after, (contribution options later).tag ≠ component.tag

theorem accounts_ofDocuments (options : ParseOptions)
    (documents : List Document) (version : Text) (now : Instant) :
    Accounts options documents
      ⟨version, now,
        (ofPages options (documents.map (pageOf options))).components⟩
      (ofPages options (documents.map (pageOf options))).report where
  documents_eq := by
    rw [documents_ofPages, List.length_map]
  failures_eq := failures_ofDocuments options documents
  documents_eq_add := documents_eq_components_add_duplicates options _
  nodup_tags := by
    rw [components_ofDocuments, Assembly.map_name_latest]
    exact Assembly.nodup_eraseDups _
  tags_eq := by
    rw [components_ofDocuments, Assembly.map_name_latest, List.map_map]
    rfl
  last := by
    intro component member
    rw [components_ofDocuments] at member
    obtain ⟨first, second, split, others⟩ :=
      Assembly.exists_of_mem_latest Component.tag member
    obtain ⟨before, rest, rfl, -, ofRest⟩ := List.map_eq_append_iff.mp split
    obtain ⟨document, after, rfl, rfl, rfl⟩ := List.map_eq_cons_iff.mp ofRest
    exact ⟨before, document, after, rfl, rfl, fun later laterMember =>
      others _ (List.mem_map_of_mem laterMember)⟩

/-- A build below a directory succeeds and accounts for its pages. The order of
the listings changes neither the components nor the report. -/
theorem corpus_accounts (options : ParseOptions) (source : ReleaseSource)
    (now : Instant) {disk : Disk} {root : Text}
    {entries : List (Text × FileTree Content)}
    (found : disk.find? root = some (.directory entries))
    (proper : (FileTree.directory entries).IsProper) :
    ∃ documents built report,
      ((corpus options root source now).run disk).1 = .ok (built, report) ∧
        ListsPages (.directory entries) documents ∧
        Accounts options documents built report ∧
        ∀ other otherRoot others,
          other.find? otherRoot = some (.directory others) →
          (FileTree.directory entries).Relisted (.directory others) →
          ∃ rebuilt,
            ((corpus options otherRoot source now).run other).1 =
                .ok (rebuilt, report) ∧
              rebuilt.components = built.components := by
  obtain ⟨documents, lists, outcome⟩ :=
    exists_corpus_run options source now found proper
  refine ⟨documents, _, _, outcome, lists,
    accounts_ofDocuments options documents _ now, ?_⟩
  intro other otherRoot others foundOther relisted
  obtain ⟨otherDocuments, listsOther, otherOutcome⟩ :=
    exists_corpus_run options source now foundOther (relisted.isProper proper)
  obtain rfl : documents = otherDocuments :=
    lists.unique listsOther (relisted.at?_eq_file_iff proper)
  exact ⟨_, otherOutcome, rfl⟩

/-- A directory with a page below another directory, a page that is no text and
a file that is no page. -/
theorem smallDirectory_accounts :
    let button : FileTree Content :=
      .file (.text "---\ntitle: Button\n---\n".toList)
    let entries : List (Text × FileTree Content) :=
      [("more".toList, .directory [("c.md".toList, button)]),
        ("b.md".toList, button), ("a.MD".toList, .file .binary),
        ("notes.txt".toList, .file .binary)]
    let disk : Disk := ⟨.directory [("docs".toList, .directory entries)], []⟩
    disk.find? "docs".toList = some (.directory entries) ∧
      (FileTree.directory entries).IsProper ∧
      ∃ documents built report,
        ((corpus .default "docs".toList (.fixed ['1'])
            ⟨2024, 5, 1, 0, 0, 0, 0⟩).run disk).1 = .ok (built, report) ∧
          ListsPages (.directory entries) documents ∧
          Accounts .default documents built report := by
  intro button entries disk
  have found : disk.find? "docs".toList = some (.directory entries) := rfl
  have proper : (FileTree.directory entries).IsProper := by
    refine .directory (by decide) (by decide) ?_
    simp only [entries, List.forall_mem_cons, List.not_mem_nil,
      false_implies, implies_true, and_true]
    refine ⟨.directory (by decide) (by decide) ?_, .file _, .file _, .file _⟩
    simpa using .file _
  obtain ⟨documents, built, report, outcome, lists, accounts, -⟩ :=
    corpus_accounts .default (.fixed ['1']) ⟨2024, 5, 1, 0, 0, 0, 0⟩ found
      proper
  exact ⟨found, proper, documents, built, report, outcome, lists, accounts⟩

end ComponentDocs.Build
