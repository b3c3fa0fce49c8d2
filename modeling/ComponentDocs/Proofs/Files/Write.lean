import ComponentDocs.Proofs.Files.Change

/-!
Writing a file, removing one and renaming one within its directory. Every
directory stays, so that the paths of its entries lead where they led, the text
is found under the name that it was given last, and no place but those of the
names changes.
-/

namespace ComponentDocs.Files.Disk

/-! ## Directories that stay -/

/-- The directories of a disk are directories of the changed one too. -/
structure KeepsDirectories (disk changed : Disk) : Prop where
  workingDirectory : changed.workingDirectory = disk.workingDirectory
  isDirectoryAt : ∀ place, disk.root.IsDirectoryAt place →
    changed.root.IsDirectoryAt place

theorem KeepsDirectories.follow {disk changed : Disk}
    (keeps : KeepsDirectories disk changed) {here steps place : List Text}
    (leads : disk.follow here steps = .ok place)
    (isDirectory : disk.root.IsDirectoryAt place) :
    changed.follow here steps = .ok place := by
  induction steps generalizing here with
  | nil =>
      obtain rfl := eq_of_follow_nil leads
      obtain ⟨entries, found⟩ := keeps.isDirectoryAt _ isDirectory
      rw [Disk.follow, at?, found]
      rfl
  | cons step rest inductionHypothesis =>
      rw [Disk.follow] at leads
      split at leads
      · cases leads
      · cases leads
      · rename_i entries found
        obtain ⟨others, still⟩ := keeps.isDirectoryAt here ⟨entries, found⟩
        rw [Disk.follow, at?, still]
        simp only
        split at leads
        · rename_i stays
          rw [if_pos stays, inductionHypothesis leads]
        split at leads
        · rename_i moves up
          rw [if_neg moves, if_pos up, inductionHypothesis leads]
        · rename_i moves down
          rw [if_neg moves, if_neg down, inductionHypothesis leads]

theorem KeepsDirectories.trans {disk middle changed : Disk}
    (first : KeepsDirectories disk middle)
    (second : KeepsDirectories middle changed) :
    KeepsDirectories disk changed where
  workingDirectory := second.workingDirectory.trans first.workingDirectory
  isDirectoryAt := fun place isDirectory =>
    second.isDirectoryAt place (first.isDirectoryAt place isDirectory)

/-! ## Places that stay -/

/-- A disk with its changes at certain places alone: every other place is the
file or the directory that it was, or is still empty. -/
structure ChangesOnly (disk : Disk) (changes : List Text → Prop)
    (changed : Disk) : Prop where
  workingDirectory : changed.workingDirectory = disk.workingDirectory
  elsewhere : ∀ place, ¬ changes place →
    (changed.at? place).map FileTree.cut = (disk.at? place).map FileTree.cut

namespace ChangesOnly

variable {disk middle changed : Disk} {changes : List Text → Prop}

theorem refl (disk : Disk) (changes : List Text → Prop) :
    disk.ChangesOnly changes disk :=
  ⟨rfl, fun _ _ => rfl⟩

theorem trans (first : disk.ChangesOnly changes middle)
    (second : middle.ChangesOnly changes changed) :
    disk.ChangesOnly changes changed where
  workingDirectory := second.workingDirectory.trans first.workingDirectory
  elsewhere := fun place stays =>
    (second.elsewhere place stays).trans (first.elsewhere place stays)

theorem mono {more : List Text → Prop}
    (only : disk.ChangesOnly changes changed)
    (implies : ∀ place, changes place → more place) :
    disk.ChangesOnly more changed where
  workingDirectory := only.workingDirectory
  elsewhere := fun place stays =>
    only.elsewhere place fun change => stays (implies place change)

end ChangesOnly

/-! ## Names joined to a path -/

/-- Names joined to a path are looked up in the directory at a place. -/
structure LeadsTo (disk : Disk) (base : Text) (parent : List Text) : Prop where
  follow : disk.follow (disk.start base) (Path.stepsTo base) = .ok parent
  isDirectory : disk.root.IsDirectoryAt parent

namespace LeadsTo

variable {disk changed : Disk} {base name : Text} {parent : List Text}

theorem unique {other : List Text} (leads : disk.LeadsTo base parent)
    (leadsOther : disk.LeadsTo base other) : parent = other :=
  Except.ok.inj (leads.follow.symm.trans leadsOther.follow)

theorem of_keepsDirectories (leads : disk.LeadsTo base parent)
    (keeps : KeepsDirectories disk changed) : changed.LeadsTo base parent where
  follow := by
    have sameStart : changed.start base = disk.start base := by
      rw [start, start, keeps.workingDirectory]
    rw [sameStart]
    exact keeps.follow leads.follow leads.isDirectory
  isDirectory := keeps.isDirectoryAt _ leads.isDirectory

theorem locate_join (leads : disk.LeadsTo base parent)
    (proper : FileTree.IsEntryName name) {tree : FileTree Content}
    (present : disk.at? (parent ++ [name]) = some tree) :
    disk.locate (Path.join base name) = .ok (parent ++ [name]) := by
  obtain ⟨entries, isDirectory⟩ := leads.isDirectory
  exact Disk.locate_join leads.follow isDirectory proper (by simp [present])

theorem find?_join (leads : disk.LeadsTo base parent)
    (proper : FileTree.IsEntryName name) :
    disk.find? (Path.join base name) = disk.at? (parent ++ [name]) := by
  obtain ⟨entries, isDirectory⟩ := leads.isDirectory
  exact Disk.find?_join leads.follow isDirectory proper

end LeadsTo

theorem newPlace?_join (base : Text) {name : Text}
    (proper : FileTree.IsEntryName name) :
    newPlace? (Path.join base name) = some (Path.stepsTo base, name, false) := by
  simp [newPlace?, Path.steps_join base proper, proper.nonempty,
    staysHere_of_isEntryName proper, leadsUp_of_isEntryName proper]

theorem exists_of_locateNew {disk : Disk} {path name : Text}
    {before place : List Text}
    (isNew : disk.locateNew path before name = .ok place) :
    ∃ parent, disk.follow (disk.start path) before = .ok parent ∧
      disk.root.IsDirectoryAt parent ∧ place = parent ++ [name] := by
  rw [locateNew] at isNew
  cases leads : disk.follow (disk.start path) before with
  | error trouble =>
      rw [leads] at isNew
      cases isNew
  | ok parent =>
      rw [leads] at isNew
      have isConcat : (disk.directoryAt parent).bind
          (fun directory => .ok (directory ++ [name])) = .ok place :=
        isNew
      rw [directoryAt] at isConcat
      split at isConcat
      · rename_i entries found
        exact ⟨parent, rfl, ⟨entries, found⟩, (Except.ok.inj isConcat).symm⟩
      · cases isConcat
      · cases isConcat

/-- A path that ends in a name without slashes behind it. -/
theorem steps_of_newPlace? {path name : Text} {before : List Text}
    (isNew : newPlace? path = some (before, name, false)) :
    Path.steps path = before ++ [name] ∧ staysHere name = false ∧
      leadsUp name = false := by
  rw [newPlace?] at isNew
  split at isNew
  · cases isNew
  rename_i last others remaining
  split at isNew
  · cases isNew
  rename_i isName
  simp only [Option.some.injEq, Prod.mk.injEq] at isNew
  obtain ⟨rfl, rfl, notSlashed⟩ := isNew
  have whole : (Path.steps path).reverse = last :: others := by
    cases shape : (Path.steps path).reverse with
    | nil =>
        simp [shape] at remaining
    | cons first rest =>
        rw [shape] at remaining notSlashed
        rwa [List.dropWhile_cons_of_neg (by simpa using notSlashed)]
          at remaining
  rw [Bool.or_eq_true, not_or] at isName
  refine ⟨?_, Bool.eq_false_iff.mpr isName.1, Bool.eq_false_iff.mpr isName.2⟩
  rw [← List.reverse_reverse (Path.steps path), whole, List.reverse_cons]

/-- A file is written into a directory under the last name of its path, where
no directory has this name. -/
theorem exists_of_target {disk : Disk} {path : Text} {place : List Text}
    (isTarget : disk.target path = .ok place) :
    ∃ before name parent, newPlace? path = some (before, name, false) ∧
      disk.follow (disk.start path) before = .ok parent ∧
      disk.root.IsDirectoryAt parent ∧ place = parent ++ [name] ∧
      ¬ disk.root.IsDirectoryAt place := by
  rw [target] at isTarget
  split at isTarget
  · cases isTarget
  split at isTarget
  · split at isTarget <;> cases isTarget
  rename_i before name slashed isNewPlace
  split at isTarget
  · cases isTarget
  rename_i other isNew
  obtain ⟨parent, leads, isDirectory, rfl⟩ := exists_of_locateNew isNew
  split at isTarget
  · cases isTarget
  rename_i notSlashed
  split at isTarget
  · cases isTarget
  rename_i noDirectory
  obtain rfl := Except.ok.inj isTarget
  obtain rfl := Bool.eq_false_iff.mpr notSlashed
  exact ⟨before, name, parent, isNewPlace, leads, isDirectory, rfl,
    fun ⟨entries, found⟩ => noDirectory entries found⟩

/-- A file is written into the directory of its path, where no directory has
its name. -/
theorem exists_of_target_join {disk : Disk} {base name : Text}
    {place : List Text} (proper : FileTree.IsEntryName name)
    (isTarget : disk.target (Path.join base name) = .ok place) :
    ∃ parent, disk.LeadsTo base parent ∧ place = parent ++ [name] ∧
      ¬ disk.root.IsDirectoryAt place := by
  obtain ⟨before, last, parent, isNew, leads, isDirectory, rfl, noDirectory⟩ :=
    exists_of_target isTarget
  rw [newPlace?_join base proper] at isNew
  cases isNew
  rw [start_join disk base proper] at leads
  exact ⟨parent, ⟨leads, isDirectory⟩, rfl, noDirectory⟩

/-! ## Requests -/

/-- The disk with a file put at a place. -/
def withFile (disk : Disk) (place : List Text) (content : Content) : Disk :=
  { disk with root := disk.root.put place (.file content) }

theorem write_eq (disk : Disk) (path content : Text) :
    disk.write path content =
      (disk.target path).map (disk.withFile · (.text content)) := by
  rw [write]
  cases disk.target path <;> rfl

section WithFile

variable {disk : Disk} {parent : List Text} {name : Text}

theorem keepsDirectories_withFile
    (noDirectory : ¬ disk.root.IsDirectoryAt (parent ++ [name]))
    (content : Content) :
    KeepsDirectories disk (disk.withFile (parent ++ [name]) content) where
  workingDirectory := rfl
  isDirectoryAt := fun _ isDirectory => isDirectory.put noDirectory _

theorem at?_withFile (isDirectory : disk.root.IsDirectoryAt parent)
    (content : Content) :
    (disk.withFile (parent ++ [name]) content).at? (parent ++ [name]) =
      some (.file content) := by
  obtain ⟨entries, isParent⟩ := isDirectory
  exact FileTree.at?_put isParent name _

theorem changesOnly_withFile (isDirectory : disk.root.IsDirectoryAt parent)
    (noDirectory : ¬ disk.root.IsDirectoryAt (parent ++ [name]))
    (content : Content) :
    disk.ChangesOnly (· = parent ++ [name])
      (disk.withFile (parent ++ [name]) content) where
  workingDirectory := rfl
  elsewhere := fun _ different =>
    FileTree.map_cut_at?_put_file isDirectory noDirectory different content

/-- A file that is put under one name is not seen under another name of the
directory. -/
theorem at?_withFile_of_ne {other : Text} (different : name ≠ other)
    (content : Content) :
    (disk.withFile (parent ++ [name]) content).at? (parent ++ [other]) =
      disk.at? (parent ++ [other]) := by
  have sameLength :
      (parent ++ [name]).length = (parent ++ [other]).length := by
    simp
  apply FileTree.at?_put_of_apart
  · intro below
    exact different (by simpa using below.eq_of_length sameLength)
  · intro above
    exact different (by simpa using (above.eq_of_length sameLength.symm).symm)

end WithFile

/-- The disk without the file at a place. -/
def withoutFile (disk : Disk) (place : List Text) : Disk :=
  { disk with root := disk.root.remove place }

section WithoutFile

variable {disk : Disk} {parent : List Text} {name : Text}
variable (noDirectory : ¬ disk.root.IsDirectoryAt (parent ++ [name]))

include noDirectory

theorem keepsDirectories_withoutFile :
    KeepsDirectories disk (disk.withoutFile (parent ++ [name])) where
  workingDirectory := rfl
  isDirectoryAt := fun _ isDirectory => isDirectory.remove noDirectory

theorem changesOnly_withoutFile
    (isDirectory : disk.root.IsDirectoryAt parent) :
    disk.ChangesOnly (· = parent ++ [name])
      (disk.withoutFile (parent ++ [name])) where
  workingDirectory := rfl
  elsewhere := fun _ different =>
    FileTree.map_cut_at?_remove_file isDirectory noDirectory different

omit noDirectory in
theorem at?_withoutFile (isDirectory : disk.root.IsDirectoryAt parent) :
    (disk.withoutFile (parent ++ [name])).at? (parent ++ [name]) = none := by
  obtain ⟨entries, isParent⟩ := isDirectory
  exact FileTree.at?_remove isParent name

end WithoutFile

theorem exists_target_of_write {disk changed : Disk} {path content : Text}
    (isWritten : disk.write path content = .ok changed) :
    ∃ place, disk.target path = .ok place ∧
      disk.withFile place (.text content) = changed := by
  rw [write_eq] at isWritten
  cases isTarget : disk.target path with
  | error trouble =>
      rw [isTarget] at isWritten
      cases isWritten
  | ok place =>
      rw [isTarget] at isWritten
      exact ⟨place, rfl, Except.ok.inj isWritten⟩

/-- The path of a file that was written leads to it. -/
theorem find?_of_write {disk changed : Disk} {path content : Text}
    (isWritten : disk.write path content = .ok changed) :
    changed.find? path = some (.file (.text content)) := by
  obtain ⟨place, isTarget, same⟩ := exists_target_of_write isWritten
  obtain ⟨before, name, parent, isNew, leads, isDirectory, rfl,
    noDirectory⟩ := exists_of_target isTarget
  obtain ⟨steps, moves, down⟩ := steps_of_newPlace? isNew
  have keeps : KeepsDirectories disk changed :=
    same ▸ keepsDirectories_withFile noDirectory (.text content)
  have found : changed.at? (parent ++ [name]) =
      some (.file (.text content)) :=
    same ▸ at?_withFile isDirectory (.text content)
  obtain ⟨entries, isParent⟩ := keeps.isDirectoryAt parent isDirectory
  have nonempty : path ≠ [] := by
    rintro rfl
    simp [target] at isTarget
  have sameStart : changed.start path = disk.start path := by
    rw [start, start, keeps.workingDirectory]
  have atName : changed.follow parent [name] = .ok (parent ++ [name]) := by
    rw [follow_step isParent moves down, found]
    rfl
  have located : changed.locate path = .ok (parent ++ [name]) := by
    rw [locate, if_neg (by simpa using nonempty), steps, follow_append,
      sameStart, keeps.follow leads isDirectory]
    exact atName
  rw [find?, located]
  exact found

/-- What was written at a path is read there. -/
theorem read_of_write {disk changed : Disk} {path content : Text}
    (isWritten : disk.write path content = .ok changed) :
    changed.read path = .ok content :=
  read_of_find? (find?_of_write isWritten)

/-- A file is removed from the directory of its path. -/
theorem eq_of_remove_join {disk changed : Disk} {base name : Text}
    {parent : List Text} (leads : disk.LeadsTo base parent)
    (proper : FileTree.IsEntryName name)
    (isRemoved : disk.remove (Path.join base name) = .ok changed) :
    ¬ disk.root.IsDirectoryAt (parent ++ [name]) ∧
      changed = disk.withoutFile (parent ++ [name]) := by
  rw [remove] at isRemoved
  cases located : disk.locate (Path.join base name) with
  | error trouble =>
      rw [located] at isRemoved
      cases isRemoved
  | ok place =>
      obtain ⟨other, reached, rfl⟩ := exists_of_locate_join proper located
      obtain rfl : parent = other :=
        Except.ok.inj (leads.follow.symm.trans reached)
      rw [located] at isRemoved
      dsimp only at isRemoved
      split at isRemoved
      · rename_i content isFile
        refine ⟨?_, (Except.ok.inj isRemoved).symm⟩
        rintro ⟨entries, found⟩
        cases isFile.symm.trans found
      · cases isRemoved
      · cases isRemoved

/-- Renaming within a directory moves a file there. -/
theorem eq_of_rename_join {disk changed : Disk} {base source target : Text}
    {parent : List Text} {content : Content}
    (leads : disk.LeadsTo base parent)
    (properSource : FileTree.IsEntryName source)
    (properTarget : FileTree.IsEntryName target)
    (isFile : disk.at? (parent ++ [source]) = some (.file content))
    (isRenamed : disk.rename (Path.join base source) (Path.join base target) =
      .ok changed) :
    ¬ disk.root.IsDirectoryAt (parent ++ [target]) ∧
      changed = (disk.withoutFile (parent ++ [source])).withFile
        (parent ++ [target]) content := by
  rw [rename, leads.locate_join properSource isFile] at isRenamed
  simp only [isFile] at isRenamed
  cases isTarget : disk.target (Path.join base target) with
  | error trouble =>
      rw [isTarget] at isRenamed
      cases isRenamed
  | ok place =>
      rw [isTarget] at isRenamed
      obtain ⟨other, leadsOther, rfl, noDirectory⟩ :=
        exists_of_target_join properTarget isTarget
      obtain rfl := leads.unique leadsOther
      exact ⟨noDirectory, (Except.ok.inj isRenamed).symm⟩

/-- A file that is renamed within its directory is found under the new name,
no directory is lost, and nothing else changes. -/
theorem of_rename_join {disk changed : Disk} {base source target : Text}
    {parent : List Text} {content : Content}
    (leads : disk.LeadsTo base parent)
    (properSource : FileTree.IsEntryName source)
    (properTarget : FileTree.IsEntryName target) (different : source ≠ target)
    (isFile : disk.at? (parent ++ [source]) = some (.file content))
    (isRenamed : disk.rename (Path.join base source) (Path.join base target) =
      .ok changed) :
    KeepsDirectories disk changed ∧
      disk.ChangesOnly
        (fun place => place = parent ++ [source] ∨ place = parent ++ [target])
        changed ∧
      changed.at? (parent ++ [target]) = some (.file content) := by
  obtain ⟨noDirectory, rfl⟩ :=
    eq_of_rename_join leads properSource properTarget isFile isRenamed
  have sourceIsFile : ¬ disk.root.IsDirectoryAt (parent ++ [source]) := by
    rintro ⟨entries, found⟩
    cases isFile.symm.trans found
  have apart : parent ++ [target] ≠ parent ++ [source] := by
    simpa using Ne.symm different
  -- Between the two steps the target is no directory and the parent still is
  -- one.
  have isRemoved := changesOnly_withoutFile sourceIsFile leads.isDirectory
  have isDirectory :
      (disk.withoutFile (parent ++ [source])).root.IsDirectoryAt parent :=
    leads.isDirectory.remove sourceIsFile
  have stillNoDirectory : ¬ (disk.withoutFile
      (parent ++ [source])).root.IsDirectoryAt (parent ++ [target]) := by
    rw [FileTree.isDirectoryAt_iff]
    exact fun isCut => noDirectory <| FileTree.isDirectoryAt_iff.mpr <|
      (isRemoved.elsewhere _ apart).symm.trans isCut
  have isMoved := changesOnly_withFile isDirectory stillNoDirectory content
  refine ⟨?_, ?_, at?_withFile isDirectory content⟩
  · exact (keepsDirectories_withoutFile sourceIsFile).trans
      (keepsDirectories_withFile stillNoDirectory content)
  · exact (isRemoved.mono fun _ => Or.inl).trans (isMoved.mono fun _ => Or.inr)

end ComponentDocs.Files.Disk
