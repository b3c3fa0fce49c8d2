import ComponentDocs.Proofs.Files.Runs
import ComponentDocs.Store.Basic

/-!
Saving replaces the corpus as a whole or not at all. Only the draft is written
to, and it takes the place of the corpus in one step; what fails before leaves
the corpus as it was, and of the other files none is touched.

On Windows the old corpus is removed before. There is none then until the draft
has taken its place, and none is left when that fails.
-/

namespace ComponentDocs.Store

open Files

variable {α β : Type}

/-! ## Loading -/

/-- What is loaded when the path of the corpus leads to a tree, or to
nothing. -/
def loaded (store : Store) : Option (FileTree Content) → Except Failure Corpus
  | none => .error store.noCorpus
  | some tree =>
      match Disk.treeRead tree with
      | .ok content => corpusOfText content
      | .error trouble =>
          .error (failed "Failed to read corpus: " trouble.failure)

/-- What the path of the corpus leads to decides what is loaded. -/
theorem run_load (store : Store) (disk : Disk) :
    (store.load.run disk).1 = store.loaded (disk.find? store.corpusPath) := by
  have runExists : (FileTask.pathExists store.corpusPath).run disk =
      (((disk.find? store.corpusPath).map Disk.kindOf).isSome, disk) :=
    rfl
  have runRead : (FileTask.read store.corpusPath).run disk =
      ((disk.read store.corpusPath).mapError Trouble.failure, disk) :=
    rfl
  rw [load, FileTask.run_bind, runExists, Option.isSome_map]
  cases found : disk.find? store.corpusPath with
  | none =>
      rfl
  | some tree =>
      simp only [Option.isSome_some, if_true, FileTask.run_bind, runRead,
        Disk.read_of_find? found, loaded]
      cases Disk.treeRead tree <;> rfl

/-! ## Commits -/

/-- What the path of the corpus leads to. -/
def held (store : Store) (disk : Disk) : Option (FileTree Content) :=
  disk.find? store.corpusPath

/-- The places of the draft and of the corpus in the data directory. -/
def Owns (store : Store) (disk : Disk) (place : List Text) : Prop :=
  ∃ parent, disk.LeadsTo store.root parent ∧
    (place = parent ++ [draftName] ∨ place = parent ++ [corpusName])

/-- The corpus is as it was, or it is gone where that may be. -/
def Spares (store : Store) (mayGo : Prop) (disk present : Disk) : Prop :=
  store.held present = store.held disk ∨ mayGo ∧ store.held present = none

/-- A run that replaces a corpus. As in a commit the corpus is the whole old or
the whole new one, but where `mayGo` holds there may be none in between and
after a failure. -/
structure IsReplacement (store : Store) (mayGo : Prop) (textOf : α → Text)
    (disk : Disk) (seen : List Disk) (result : Except Failure α)
    (after : Disk) : Prop where
  whole : ∀ present ∈ seen, store.Spares mayGo disk present ∨
    ∃ value, result = .ok value ∧
      store.held present = some (.file (.text (textOf value)))
  committed : ∀ value, result = .ok value →
    store.held after = some (.file (.text (textOf value)))
  kept : ∀ failure, result = .error failure → store.Spares mayGo disk after
  elsewhere : ∀ present ∈ seen, disk.ChangesOnly (store.Owns disk) present

/-- A task all of whose runs replace the corpus. -/
def ReplacesWhole (store : Store) (mayGo : Prop) (textOf : α → Text)
    (task : FileTask (Except Failure α)) : Prop :=
  ∀ disk seen result after, task.Runs disk seen result after →
    store.IsReplacement mayGo textOf disk seen result after

section Spares

variable {store : Store} {mayGo : Prop}

theorem Spares.refl (disk : Disk) : store.Spares mayGo disk disk :=
  .inl rfl

end Spares

/-! ## Replacements by their results -/

section IsReplacement

variable {store : Store} {mayGo : Prop} {textOf : α → Text}
variable {disk after : Disk} {seen : List Disk}

theorem isReplacement_ok {value : α}
    (whole : ∀ present ∈ seen, store.Spares mayGo disk present ∨
      store.held present = some (.file (.text (textOf value))))
    (last : store.held after = some (.file (.text (textOf value))))
    (elsewhere : ∀ present ∈ seen, disk.ChangesOnly (store.Owns disk) present) :
    store.IsReplacement mayGo textOf disk seen (.ok value) after where
  whole := fun present member => (whole present member).imp_right fun isText =>
    ⟨value, rfl, isText⟩
  committed := fun _ isOk => Except.ok.inj isOk ▸ last
  kept := fun _ isError => nomatch isError
  elsewhere := elsewhere

theorem isReplacement_error {failure : Failure}
    (spares : ∀ present ∈ after :: seen, store.Spares mayGo disk present)
    (elsewhere : ∀ present ∈ seen, disk.ChangesOnly (store.Owns disk) present) :
    store.IsReplacement mayGo textOf disk seen (.error failure) after where
  whole := fun present member =>
    .inl (spares present (List.mem_cons_of_mem _ member))
  committed := fun _ isOk => nomatch isOk
  kept := fun _ _ => spares after List.mem_cons_self
  elsewhere := elsewhere

/-- A run that leaves the disk as it is may fail. -/
theorem isReplacement_error_of_unchanged {failure : Failure}
    (unchanged : ∀ present ∈ seen, present = disk) :
    store.IsReplacement mayGo textOf disk seen (.error failure) disk := by
  apply isReplacement_error
  · refine List.forall_mem_cons.mpr ⟨.refl disk, fun present member => ?_⟩
    rw [unchanged present member]
    exact .refl disk
  · intro present member
    rw [unchanged present member]
    exact .refl disk _

end IsReplacement

/-! ## Drafts -/

theorem isEntryName_corpusName : FileTree.IsEntryName corpusName := by
  decide

theorem isEntryName_draftName : FileTree.IsEntryName draftName := by
  decide

theorem draftName_ne_corpusName : draftName ≠ corpusName := by
  decide

/-- A disk with a draft of some content, where the corpus is as it was, or gone
if it may be. -/
structure IsDrafted (store : Store) (mayGo : Prop) (disk : Disk)
    (content : Content) (drafted : Disk) : Prop where
  spares : store.Spares mayGo disk drafted
  elsewhere : disk.ChangesOnly (store.Owns disk) drafted
  draft : ∃ parent, disk.LeadsTo store.root parent ∧
    drafted.LeadsTo store.root parent ∧
    drafted.at? (parent ++ [draftName]) = some (.file content)

section Draft

variable {store : Store} {mayGo : Prop} {disk drafted : Disk}

/-- Writing the draft touches nothing else. -/
theorem isDrafted_withFile {place : List Text}
    (isTarget : disk.target store.draftPath = .ok place) (content : Content) :
    store.IsDrafted mayGo disk content (disk.withFile place content) := by
  obtain ⟨parent, leads, rfl, noDirectory⟩ :=
    Disk.exists_of_target_join isEntryName_draftName isTarget
  have leadsDrafted := leads.of_keepsDirectories
    (Disk.keepsDirectories_withFile noDirectory content)
  have isChange := Disk.changesOnly_withFile leads.isDirectory noDirectory content
  refine ⟨.inl ?_, isChange.mono fun _ isDraft => ⟨parent, leads, .inl isDraft⟩,
    parent, leads, leadsDrafted, Disk.at?_withFile leads.isDirectory content⟩
  rw [held, held, corpusPath, leadsDrafted.find?_join isEntryName_corpusName,
    leads.find?_join isEntryName_corpusName,
    Disk.at?_withFile_of_ne draftName_ne_corpusName content]

namespace IsDrafted

variable {content : Content} {changed : Disk}
variable (isDrafted : store.IsDrafted mayGo disk content drafted)

include isDrafted

/-- Only the corpus goes when it is removed. -/
theorem remove_corpus (mayRemove : mayGo)
    (isRemoved : drafted.remove store.corpusPath = .ok changed) :
    store.IsDrafted mayGo disk content changed := by
  obtain ⟨parent, leads, leadsDrafted, isDraft⟩ := isDrafted.draft
  obtain ⟨noDirectory, rfl⟩ :=
    Disk.eq_of_remove_join leadsDrafted isEntryName_corpusName isRemoved
  have leadsRemoved := leadsDrafted.of_keepsDirectories
    (Disk.keepsDirectories_withoutFile noDirectory)
  have isChange :=
    Disk.changesOnly_withoutFile noDirectory leadsDrafted.isDirectory
  refine ⟨.inr ⟨mayRemove, ?_⟩, ?_, parent, leads, leadsRemoved, ?_⟩
  · rw [held, corpusPath, leadsRemoved.find?_join isEntryName_corpusName,
      Disk.at?_withoutFile leadsDrafted.isDirectory]
  · exact isDrafted.elsewhere.trans
      (isChange.mono fun _ isCorpus => ⟨parent, leads, .inr isCorpus⟩)
  · have apart : parent ++ [draftName] ≠ parent ++ [corpusName] := by
      simpa using draftName_ne_corpusName
    exact FileTree.eq_file_of_map_cut
      ((isChange.elsewhere _ apart).trans (congrArg _ isDraft))

/-- A draft that is renamed is the corpus, and nothing else changes. -/
theorem rename_draft
    (isRenamed : drafted.rename store.draftPath store.corpusPath =
      .ok changed) :
    store.held changed = some (.file content) ∧
      disk.ChangesOnly (store.Owns disk) changed := by
  obtain ⟨parent, leads, leadsDrafted, isDraft⟩ := isDrafted.draft
  obtain ⟨keeps, isMoved, isCorpus⟩ :=
    Disk.of_rename_join leadsDrafted isEntryName_draftName
      isEntryName_corpusName draftName_ne_corpusName isDraft isRenamed
  have leadsSaved := leadsDrafted.of_keepsDirectories keeps
  constructor
  · rw [held, corpusPath, leadsSaved.find?_join isEntryName_corpusName,
      isCorpus]
  · exact isDrafted.elsewhere.trans
      (isMoved.mono fun _ isOwn => ⟨parent, leads, isOwn⟩)

end IsDrafted

/-- A run that leaves no more than a draft may fail. -/
theorem isReplacement_error_of_drafted {textOf : α → Text} {content : Content}
    {after : Disk} {seen : List Disk} {failure : Failure}
    (areDrafted : ∀ present ∈ after :: seen,
      store.IsDrafted mayGo disk content present) :
    store.IsReplacement mayGo textOf disk seen (.error failure) after :=
  isReplacement_error (fun present member => (areDrafted present member).spares)
    fun present member =>
      (areDrafted present (List.mem_cons_of_mem _ member)).elsewhere

end Draft

/-! ## Saving -/

/-- The runs that clear the path of the corpus: nothing is to be removed; or the
corpus is removed, which is done on Windows only; or it cannot be. -/
inductive WayRun (store : Store) (platform : Platform) (disk : Disk) :
    List Disk → Except Failure Unit → Disk → Prop
  | clear {seen : List Disk} (same : ∀ present ∈ seen, present = disk) :
      WayRun store platform disk seen (.ok ()) disk
  | removed {seen : List Disk} {changed : Disk}
      (isWindows : platform = .windows)
      (same : ∀ present ∈ seen, present = disk)
      (isRemoved : disk.remove store.corpusPath = .ok changed) :
      WayRun store platform disk (seen ++ [changed]) (.ok ()) changed
  | unremoved {seen : List Disk} (same : ∀ present ∈ seen, present = disk)
      (failure : FileFailure) :
      WayRun store platform disk (seen ++ [disk])
        (.error (failed "Failed to remove existing corpus: " failure)) disk

theorem wayRun_of_runs {store : Store} {platform : Platform}
    {disk after : Disk} {seen : List Disk} {result : Except Failure Unit}
    (runs : (store.makeWay platform).Runs disk seen result after) :
    store.WayRun platform disk seen result after := by
  cases platform with
  | other =>
      obtain ⟨rfl, rfl, rfl⟩ := runs.of_pure
      exact .clear (by simp)
  | windows =>
      obtain ⟨first, isThere, looked, rest, runsLook, runsRest, rfl⟩ :=
        runs.of_bind
      obtain ⟨rfl, unchanged⟩ :=
        FileTask.WritesNothing.pathExists _ _ _ _ _ runsLook
      cases isThere with
      | false =>
          obtain ⟨rfl, rfl, rfl⟩ := runsRest.of_pure
          rw [List.append_nil]
          exact .clear unchanged
      | true =>
          obtain ⟨second, outcome, cleared, third, runsRemove, runsEnd, rfl⟩ :=
            runsRest.of_bind
          obtain ⟨isCleared, rfl⟩ := runsRemove.of_single
          rcases isCleared.of_remove with
            ⟨isRemoved, rfl⟩ | ⟨failure, rfl, rfl⟩
          · obtain ⟨rfl, rfl, rfl⟩ := runsEnd.of_pure
            exact .removed rfl unchanged isRemoved
          · obtain ⟨rfl, rfl, rfl⟩ := runsEnd.of_pure
            exact .unremoved unchanged failure

/-- The runs of a save: the draft is not written; or only in part; or the path
of the corpus cannot be cleared; or the draft cannot be renamed; or it takes the
place of the corpus. The result tells which of the requests has failed. -/
inductive SaveRun (store : Store) (platform : Platform) (corpus : Corpus)
    (disk : Disk) : List Disk → Except Failure Unit → Disk → Prop
  | unwritten (failure : FileFailure) :
      SaveRun store platform corpus disk [disk]
        (.error (failed "Failed to write corpus: " failure)) disk
  | cutShort {place : List Text}
      (isTarget : disk.target store.draftPath = .ok place) (left : Content)
      (failure : FileFailure) :
      SaveRun store platform corpus disk [disk.withFile place left]
        (.error (failed "Failed to write corpus: " failure))
        (disk.withFile place left)
  | uncleared {place : List Text} {drafted after : Disk} {seen : List Disk}
      (isTarget : disk.target store.draftPath = .ok place)
      (isDrafted : drafted = disk.withFile place (.text (corpusText corpus)))
      {failure : Failure}
      (way : store.WayRun platform drafted seen (.error failure) after) :
      SaveRun store platform corpus disk (drafted :: seen) (.error failure)
        after
  | unmoved {place : List Text} {drafted cleared : Disk} {seen : List Disk}
      (isTarget : disk.target store.draftPath = .ok place)
      (isDrafted : drafted = disk.withFile place (.text (corpusText corpus)))
      (way : store.WayRun platform drafted seen (.ok ()) cleared)
      (failure : FileFailure) :
      SaveRun store platform corpus disk (drafted :: (seen ++ [cleared]))
        (.error (failed "Failed to commit corpus: " failure)) cleared
  | moved {place : List Text} {drafted cleared saved : Disk}
      {seen : List Disk}
      (isTarget : disk.target store.draftPath = .ok place)
      (isDrafted : drafted = disk.withFile place (.text (corpusText corpus)))
      (way : store.WayRun platform drafted seen (.ok ()) cleared)
      (isRenamed :
        cleared.rename store.draftPath store.corpusPath = .ok saved) :
      SaveRun store platform corpus disk (drafted :: (seen ++ [saved]))
        (.ok ()) saved

theorem saveRun_of_runs {store : Store} {platform : Platform}
    {corpus : Corpus} {disk after : Disk} {seen : List Disk}
    {result : Except Failure Unit}
    (runs : (store.save platform corpus).Runs disk seen result after) :
    SaveRun store platform corpus disk seen result after := by
  obtain ⟨first, outcome, drafted, rest, runsWrite, runsRest, rfl⟩ :=
    runs.of_bind
  obtain ⟨isWritten, rfl⟩ := runsWrite.of_single
  rcases isWritten.of_write with
    ⟨place, isTarget, rfl, isDrafted⟩ |
    ⟨failure, rfl, rfl | ⟨place, left, isTarget, rfl⟩⟩
  · obtain ⟨second, outcome, cleared, third, runsWay, runsMove, rfl⟩ :=
      runsRest.of_bind
    have way := wayRun_of_runs runsWay
    cases outcome with
    | error failure =>
        obtain ⟨rfl, rfl, rfl⟩ := runsMove.of_pure
        rw [List.append_nil]
        exact .uncleared isTarget isDrafted way
    | ok =>
        obtain ⟨fourth, outcome, moved, fifth, runsRename, runsEnd, rfl⟩ :=
          runsMove.of_bind
        obtain ⟨isMoved, rfl⟩ := runsRename.of_single
        rcases isMoved.of_rename with ⟨isRenamed, rfl⟩ | ⟨failure, rfl, rfl⟩
        · obtain ⟨rfl, rfl, rfl⟩ := runsEnd.of_pure
          exact .moved isTarget isDrafted way isRenamed
        · obtain ⟨rfl, rfl, rfl⟩ := runsEnd.of_pure
          exact .unmoved isTarget isDrafted way failure
  · obtain ⟨rfl, rfl, rfl⟩ := runsRest.of_pure
    exact .unwritten failure
  · obtain ⟨rfl, rfl, rfl⟩ := runsRest.of_pure
    exact .cutShort isTarget left failure

/-- Where the path of the corpus is being cleared, the disk is drafted. -/
theorem WayRun.isDrafted {store : Store} {platform : Platform}
    {disk drafted after : Disk} {content : Content} {seen : List Disk}
    {result : Except Failure Unit}
    (way : store.WayRun platform drafted seen result after)
    (isDrafted : store.IsDrafted (platform = .windows) disk content drafted) :
    ∀ present ∈ after :: drafted :: seen,
      store.IsDrafted (platform = .windows) disk content present := by
  have drafts {held : List Disk} (same : ∀ present ∈ held, present = drafted) :
      ∀ present ∈ held,
        store.IsDrafted (platform = .windows) disk content present :=
    fun present member => same present member ▸ isDrafted
  cases way with
  | clear same =>
      simpa [isDrafted] using drafts same
  | removed isWindows same isRemoved =>
      have isCleared := isDrafted.remove_corpus isWindows isRemoved
      simpa [isDrafted, isCleared, or_imp, forall_and] using drafts same
  | unremoved same failure =>
      simpa [isDrafted, or_imp, forall_and] using drafts same

/-- Saving replaces the corpus; on Windows it may be gone in between. -/
theorem replacesWhole_save (store : Store) (platform : Platform)
    (corpus : Corpus) :
    store.ReplacesWhole (platform = .windows) (fun _ => corpusText corpus)
      (store.save platform corpus) := by
  intro disk seen result after runs
  cases saveRun_of_runs runs with
  | unwritten failure =>
      exact isReplacement_error_of_unchanged (by simp)
  | cutShort isTarget left failure =>
      exact isReplacement_error_of_drafted
        (by simpa using isDrafted_withFile isTarget left)
  | uncleared isTarget isDrafted way =>
      subst isDrafted
      exact isReplacement_error_of_drafted
        (way.isDrafted (isDrafted_withFile isTarget _))
  | unmoved isTarget isDrafted way failure =>
      subst isDrafted
      have drafts := way.isDrafted (isDrafted_withFile isTarget _)
      exact isReplacement_error_of_drafted fun present member =>
        drafts present (by grind)
  | moved isTarget isDrafted way isRenamed =>
      subst isDrafted
      have drafts := way.isDrafted (isDrafted_withFile isTarget _)
      rw [List.forall_mem_cons] at drafts
      obtain ⟨isCommitted, isMoved⟩ := drafts.1.rename_draft isRenamed
      have steps := drafts.2
      rw [← List.cons_append]
      apply isReplacement_ok
      · refine List.forall_mem_append.mpr ⟨fun present member => ?_, ?_⟩
        · exact .inl (steps present member).spares
        · simp [isCommitted]
      · exact isCommitted
      · refine List.forall_mem_append.mpr ⟨fun present member => ?_, ?_⟩
        · exact (steps present member).elsewhere
        · simp [isMoved]

/-- A directory in the place of the corpus stays, and so does the draft. -/
example :
    let disk : Disk := ⟨.directory [(corpusName, .directory [])], []⟩
    let corpus : Corpus := ⟨['1'], ⟨2024, 5, 1, 0, 0, 0, 0⟩, []⟩
    ((save ⟨['/']⟩ .other corpus).run disk).1 =
        .error (failed "Failed to commit corpus: " Trouble.isDirectory.failure) ∧
      ((save ⟨['/']⟩ .other corpus).run disk).2.at? [corpusName] =
        some (.directory []) ∧
      ((save ⟨['/']⟩ .other corpus).run disk).2.at? [draftName] =
        some (.file (.text (corpusText corpus))) :=
  ⟨rfl, rfl, rfl⟩

/-! ## Saving as a part of a task -/

namespace ReplacesWhole

variable {store : Store} {mayGo : Prop}

theorem error (textOf : α → Text) (failure : Failure) :
    store.ReplacesWhole mayGo textOf (pure (.error failure)) := by
  intro disk seen result after runs
  obtain ⟨rfl, rfl, rfl⟩ := runs.of_pure
  exact isReplacement_error_of_unchanged (by simp)

/-- What writes nothing may come before. -/
theorem after_writesNothing {textOf : β → Text} {task : FileTask α}
    {next : α → FileTask (Except Failure β)} (looks : task.WritesNothing)
    (replaces : ∀ value, store.ReplacesWhole mayGo textOf (next value)) :
    store.ReplacesWhole mayGo textOf (task >>= next) := by
  intro disk seen result after runs
  obtain ⟨first, value, middle, second, runsFirst, runsSecond, rfl⟩ :=
    runs.of_bind
  obtain ⟨rfl, unchanged⟩ := looks _ _ _ _ runsFirst
  have replacement := replaces value _ _ _ _ runsSecond
  refine ⟨?_, replacement.committed, replacement.kept, ?_⟩
  · refine List.forall_mem_append.mpr
      ⟨fun present member => ?_, replacement.whole⟩
    rw [unchanged present member]
    exact .inl (.refl _)
  · refine List.forall_mem_append.mpr
      ⟨fun present member => ?_, replacement.elsewhere⟩
    rw [unchanged present member]
    exact .refl _ _

/-- The result may be given with more. -/
theorem then_pure {textOf : α → Text} {more : β → Text}
    {task : FileTask (Except Failure α)}
    {next : Except Failure α → FileTask (Except Failure β)} (give : α → β)
    (replaces : store.ReplacesWhole mayGo textOf task)
    (nextError : ∀ failure, next (.error failure) = pure (.error failure))
    (nextOk : ∀ value, next (.ok value) = pure (.ok (give value)))
    (sameText : ∀ value, more (give value) = textOf value) :
    store.ReplacesWhole mayGo more (task >>= next) := by
  intro disk seen result after runs
  obtain ⟨first, outcome, middle, second, runsFirst, runsSecond, rfl⟩ :=
    runs.of_bind
  have replacement := replaces _ _ _ _ runsFirst
  cases outcome with
  | error failure =>
      rw [nextError] at runsSecond
      obtain ⟨rfl, rfl, rfl⟩ := runsSecond.of_pure
      rw [List.append_nil]
      apply isReplacement_error
      · refine List.forall_mem_cons.mpr
          ⟨replacement.kept failure rfl, fun present member => ?_⟩
        simpa using replacement.whole present member
      · exact replacement.elsewhere
  | ok value =>
      rw [nextOk] at runsSecond
      obtain ⟨rfl, rfl, rfl⟩ := runsSecond.of_pure
      rw [List.append_nil]
      apply isReplacement_ok
      · intro present member
        simpa [sameText] using replacement.whole present member
      · rw [sameText]
        exact replacement.committed value rfl
      · exact replacement.elsewhere

end ReplacesWhole

end ComponentDocs.Store
