import ComponentDocs.Proofs.Build.Corpus

/-!
Pages that fail beside pages that do not.

A page that fails still puts a component into the corpus, named for its file.
When that name gives the tag of a component that a page describes, the later of
the two is kept: the described component is found exactly when no page that
fails and falls back to its tag comes after its page.
-/

namespace ComponentDocs.Build

open Files (Content Disk)

/-- A page that fails comes after a page and falls back to a tag. -/
def IsReplaced (options : ParseOptions) (tree : FileTree Content)
    (page : Document) (tag : Text) : Prop :=
  ∃ later, IsPage tree later ∧ page.1 < later.1 ∧
    described? options later = none ∧ (fallback options later).tag = tag

/-- A page describes a component, and no other page of the tree describes one
with the same tag. -/
structure DescribesAlone (options : ParseOptions) (tree : FileTree Content)
    (page : Document) (component : Component) : Prop where
  isPage : IsPage tree page
  describes : described? options page = some component
  alone : ∀ other described, IsPage tree other →
    described? options other = some described →
    described.tag = component.tag → other = page

theorem contribution_of_described {options : ParseOptions}
    {document : Document} {component : Component}
    (describes : described? options document = some component) :
    contribution options document = component := by
  rw [contribution, describes, Option.getD_some]

theorem contribution_of_failed {options : ParseOptions} {document : Document}
    (fails : described? options document = none) :
    contribution options document = fallback options document := by
  rw [contribution, fails, Option.getD_none]

/-- Of two pages in the list the one at the greater place stands behind. -/
theorem ListsPages.mem_after {tree : FileTree Content}
    {before after : List Document} {document other : Document}
    (lists : ListsPages tree (before ++ document :: after))
    (member : other ∈ before ++ document :: after)
    (less : document.1 < other.1) : other ∈ after := by
  obtain ⟨-, -, apart⟩ := List.pairwise_append.mp lists.ascending
  rcases List.mem_append.mp member with front | back
  · exact absurd (apart other front document List.mem_cons_self)
      (lt_asymm less)
  · rcases List.mem_cons.mp back with rfl | behind
    · exact absurd less (lt_irrefl _)
    · exact behind

theorem ListsPages.lt_of_mem_before {tree : FileTree Content}
    {before after : List Document} {document other : Document}
    (lists : ListsPages tree (before ++ document :: after))
    (member : other ∈ before) : other.1 < document.1 :=
  (List.pairwise_append.mp lists.ascending).2.2 other member document
    List.mem_cons_self

section Kept

variable {options : ParseOptions} {tree : FileTree Content}
variable {documents : List Document} {page : Document} {component : Component}

/-- The last page of the tag of a described component: that of the component
itself, or one that fails. -/
theorem DescribesAlone.exists_last
    (alone : DescribesAlone options tree page component)
    (lists : ListsPages tree documents) :
    ∃ before last after, documents = before ++ last :: after ∧
      (∀ later ∈ after, (contribution options later).tag ≠ component.tag) ∧
      Assembly.lastNamed? Component.tag
          (documents.map (contribution options)) component.tag =
        some (contribution options last) ∧
      (last = page ∨
        described? options last = none ∧
          contribution options last = .ofTag component.tag ∧
          (fallback options last).tag = component.tag) := by
  have listed : component.tag ∈
      (documents.map (contribution options)).map Component.tag := by
    rw [← contribution_of_described alone.describes]
    exact List.mem_map_of_mem
      (List.mem_map_of_mem ((lists.mem_iff page).mpr alone.isPage))
  obtain ⟨kept, isLast, named⟩ :=
    Assembly.exists_lastNamed? Component.tag listed
  obtain ⟨-, backwards, rest, split, others⟩ :=
    List.find?_eq_some_iff_append.mp isLast
  have forwards : documents.map (contribution options) =
      rest.reverse ++ kept :: backwards.reverse := by
    rw [← List.reverse_inj, split]
    simp
  obtain ⟨before, behind, rfl, -, ofBehind⟩ :=
    List.map_eq_append_iff.mp forwards
  obtain ⟨last, after, rfl, rfl, ofAfter⟩ := List.map_eq_cons_iff.mp ofBehind
  refine ⟨before, last, after, rfl, ?_, isLast, ?_⟩
  · intro later member
    have reversed : contribution options later ∈ backwards := by
      rw [← List.mem_reverse, ← ofAfter]
      exact List.mem_map_of_mem member
    simpa using others _ reversed
  · cases lastDescribes : described? options last with
    | some described =>
        rw [contribution_of_described lastDescribes] at named
        exact .inl (alone.alone last described
          ((lists.mem_iff last).mp (by simp)) lastDescribes named)
    | none =>
        rw [contribution_of_failed lastDescribes] at named ⊢
        refine .inr ⟨rfl, ?_, named⟩
        rw [← named]
        rfl

/-- A described component whose tag no other page describes is kept, unless a
page that fails replaces it. -/
theorem DescribesAlone.lastNamed?_eq
    (alone : DescribesAlone options tree page component)
    (lists : ListsPages tree documents) :
    (IsReplaced options tree page component.tag →
      Assembly.lastNamed? Component.tag
          (documents.map (contribution options)) component.tag =
        some (.ofTag component.tag)) ∧
      (¬ IsReplaced options tree page component.tag →
        Assembly.lastNamed? Component.tag
            (documents.map (contribution options)) component.tag =
          some component) := by
  obtain ⟨before, last, after, rfl, others, isLast, which⟩ :=
    alone.exists_last lists
  constructor
  · rintro ⟨later, isLater, behind, fails, sameTag⟩
    rcases which with rfl | ⟨-, isFallback, -⟩
    · have member := lists.mem_after ((lists.mem_iff later).mpr isLater) behind
      refine absurd ?_ (others later member)
      rw [contribution_of_failed fails, sameTag]
    · rw [isLast, isFallback]
  · intro notReplaced
    rcases which with rfl | ⟨fails, -, sameTag⟩
    · rw [isLast, contribution_of_described alone.describes]
    · refine absurd ⟨last, (lists.mem_iff last).mp (by simp), ?_, fails,
        sameTag⟩ notReplaced
      -- The page itself has the tag, so that it cannot come after the last one.
      have member : page ∈ before ++ last :: after :=
        (lists.mem_iff page).mpr alone.isPage
      rcases List.mem_append.mp member with front | back
      · exact lists.lt_of_mem_before front
      · rcases List.mem_cons.mp back with rfl | behind
        · rw [alone.describes] at fails
          cases fails
        · refine absurd ?_ (others page behind)
          rw [contribution_of_described alone.describes]

end Kept

/-- What a build finds under the tag of a described component: the component,
unless a page that fails comes later and falls back to the tag, and then only
the tag. -/
theorem find?_corpus (options : ParseOptions) (source : ReleaseSource)
    (now : Instant) {disk : Disk} {root : Text}
    {entries : List (Text × FileTree Content)} {page : Document}
    {component : Component}
    (found : disk.find? root = some (.directory entries))
    (proper : (FileTree.directory entries).IsProper)
    (alone : DescribesAlone options (.directory entries) page component) :
    ∃ built report,
      ((corpus options root source now).run disk).1 = .ok (built, report) ∧
        (IsReplaced options (.directory entries) page component.tag →
          built.find? component.tag = some (.ofTag component.tag)) ∧
        (¬ IsReplaced options (.directory entries) page component.tag →
          built.find? component.tag = some component) := by
  obtain ⟨documents, lists, outcome⟩ :=
    exists_corpus_run options source now found proper
  refine ⟨_, _, outcome, ?_⟩
  rw [Corpus.find?, components_ofDocuments, Assembly.find?_latest]
  exact alone.lastNamed?_eq lists

/-! ## Two pages for one button -/

/-- The page of a button. -/
def buttonPage : Text :=
  "---\ntitle: Button\ndescription: A button.\n---\n".toList

/-- The component that the page of a button describes. -/
def button : Component :=
  { Component.ofTag "y-button".toList with
    description := some "A button.".toList }

/-- A page without front matter. -/
def brokenPage : Text := "A button.\n".toList

/-- The page of a button, and a broken page with the same file name in another
directory. -/
def buttonEntries (name : Text) : List (Text × FileTree Content) :=
  [("button.md".toList, .file (.text buttonPage)),
    (name, .directory [("button.md".toList, .file (.text brokenPage))])]

def buttonDisk (name : Text) : Disk :=
  ⟨.directory [("docs".toList, .directory (buttonEntries name))], []⟩

def buttonDocument : Document :=
  (["button.md".toList], .text buttonPage)

def brokenDocument (name : Text) : Document :=
  ([name, "button.md".toList], .text brokenPage)

theorem described?_buttonDocument :
    described? .default buttonDocument = some button := by
  decide

theorem described?_brokenDocument (name : Text) :
    described? .default (brokenDocument name) = none := by
  rfl

theorem isPage_buttonDocument (name : Text) :
    IsPage (.directory (buttonEntries name)) buttonDocument :=
  ⟨rfl, "button".toList, by decide, "md".toList, by decide, by decide⟩

section ButtonEntries

variable {name : Text} (proper : FileTree.IsEntryName name)
variable (different : name ≠ "button.md".toList)

include proper different

theorem buttonEntries_isProper :
    (FileTree.directory (buttonEntries name)).IsProper := by
  have buttonName : FileTree.IsEntryName "button.md".toList := by
    decide
  refine .directory ?_ ?_ ?_
  · simpa [buttonEntries] using Ne.symm different
  · simpa [buttonEntries] using ⟨buttonName, proper⟩
  · simp only [buttonEntries, List.forall_mem_cons, List.not_mem_nil,
      false_implies, implies_true, and_true]
    refine ⟨.file _, .directory (by simp) (by simpa using buttonName) ?_⟩
    simpa using .file _

theorem isPage_brokenDocument :
    IsPage (.directory (buttonEntries name)) (brokenDocument name) := by
  refine ⟨?_, "button".toList, by decide, "md".toList, rfl, by decide⟩
  cases buttonEntries_isProper proper different with
  | directory distinct =>
      exact (FileTree.at?_directory_eq_file_iff distinct).mpr
        ⟨name, .directory [("button.md".toList, .file (.text brokenPage))],
          ["button.md".toList], rfl, by simp [buttonEntries], rfl⟩

/-- There are no other pages. -/
theorem eq_of_isPage_buttonEntries {document : Document}
    (isPage : IsPage (.directory (buttonEntries name)) document) :
    document = buttonDocument ∨ document = brokenDocument name := by
  have listed :
      document.1 ∈ (FileTree.directory (buttonEntries name)).files :=
    ((buttonEntries_isProper proper different).mem_files_iff _).mpr
      ⟨_, isPage.1⟩
  have places : (FileTree.directory (buttonEntries name)).files =
      [buttonDocument.1, (brokenDocument name).1] := rfl
  have content {other : Document} (samePlace : document.1 = other.1)
      (isOther : IsPage (.directory (buttonEntries name)) other) :
      document = other := by
    have same := isPage.1
    rw [samePlace, isOther.1] at same
    simp only [Option.some.injEq, FileTree.file.injEq] at same
    exact Prod.ext samePlace same.symm
  rw [places] at listed
  simp only [List.mem_cons, List.not_mem_nil, or_false] at listed
  exact listed.imp
    (fun place => content place (isPage_buttonDocument name))
    fun place => content place (isPage_brokenDocument proper different)

/-- Only the page of the button describes a component. -/
theorem button_describesAlone :
    DescribesAlone .default (.directory (buttonEntries name)) buttonDocument
      button where
  isPage := isPage_buttonDocument name
  describes := described?_buttonDocument
  alone := by
    intro other described isPage describes _
    rcases eq_of_isPage_buttonEntries proper different isPage with rfl | rfl
    · rfl
    · rw [described?_brokenDocument] at describes
      cases describes

end ButtonEntries

/-- A broken page that comes before the page of the button does not replace
it. -/
theorem find?_button_of_earlier :
    (buttonDisk ['a']).find? "docs".toList =
        some (.directory (buttonEntries ['a'])) ∧
      (FileTree.directory (buttonEntries ['a'])).IsProper ∧
      DescribesAlone .default (.directory (buttonEntries ['a'])) buttonDocument
        button ∧
      ∃ built report,
        ((corpus .default "docs".toList (.fixed ['1'])
            ⟨2024, 5, 1, 0, 0, 0, 0⟩).run (buttonDisk ['a'])).1 =
          .ok (built, report) ∧
        built.find? button.tag = some button := by
  have named : FileTree.IsEntryName ['a'] := by decide
  have different : ['a'] ≠ "button.md".toList := by decide
  have found : (buttonDisk ['a']).find? "docs".toList =
      some (.directory (buttonEntries ['a'])) := rfl
  have proper := buttonEntries_isProper named different
  have alone := button_describesAlone named different
  obtain ⟨built, report, outcome, -, kept⟩ :=
    find?_corpus .default (.fixed ['1']) ⟨2024, 5, 1, 0, 0, 0, 0⟩ found proper
      alone
  refine ⟨found, proper, alone, built, report, outcome, kept ?_⟩
  rintro ⟨later, isLater, behind, fails, -⟩
  rcases eq_of_isPage_buttonEntries named different isLater with rfl | rfl
  · rw [described?_buttonDocument] at fails
    cases fails
  · exact absurd behind (by decide)

/-- A broken page with the file name of the page of the button, at a later
place, hides the button although no other page describes one. -/
theorem find?_button_of_later :
    (buttonDisk ['z']).find? "docs".toList =
        some (.directory (buttonEntries ['z'])) ∧
      (FileTree.directory (buttonEntries ['z'])).IsProper ∧
      DescribesAlone .default (.directory (buttonEntries ['z'])) buttonDocument
        button ∧
      ∃ built report,
        ((corpus .default "docs".toList (.fixed ['1'])
            ⟨2024, 5, 1, 0, 0, 0, 0⟩).run (buttonDisk ['z'])).1 =
          .ok (built, report) ∧
        built.find? button.tag ≠ some button := by
  have named : FileTree.IsEntryName ['z'] := by decide
  have different : ['z'] ≠ "button.md".toList := by decide
  have found : (buttonDisk ['z']).find? "docs".toList =
      some (.directory (buttonEntries ['z'])) := rfl
  have proper := buttonEntries_isProper named different
  have alone := button_describesAlone named different
  obtain ⟨documents, lists, outcome⟩ :=
    exists_corpus_run .default (.fixed ['1']) ⟨2024, 5, 1, 0, 0, 0, 0⟩ found
      proper
  refine ⟨found, proper, alone, _, _, outcome, ?_⟩
  have replaced : IsReplaced .default (.directory (buttonEntries ['z']))
      buttonDocument button.tag :=
    ⟨brokenDocument ['z'], isPage_brokenDocument named different, by decide,
      described?_brokenDocument ['z'], by decide +kernel⟩
  rw [Corpus.find?, components_ofDocuments, Assembly.find?_latest,
    (alone.lastNamed?_eq lists).1 replaced]
  decide

end ComponentDocs.Build
