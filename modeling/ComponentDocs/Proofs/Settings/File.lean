import ComponentDocs.Proofs.Files.Path
import ComponentDocs.Proofs.Files.Task
import ComponentDocs.Proofs.Files.Write
import ComponentDocs.Proofs.Settings.Toml
import ComponentDocs.Settings.File

/-!
Settings that are loaded, saved at the same path and loaded again. What is
saved is read back to the letter, but its relative paths are put below the
directory of the file once more.
-/

namespace ComponentDocs

open Files (Disk)
open Files.Path (isAbsolute join names parent?)

/-! ## Paths of settings -/

namespace Locations

structure AreAbsolute (locations : Locations) : Prop where
  pages : isAbsolute locations.pages = true
  data : isAbsolute locations.data = true
  manifest : isAbsolute locations.manifest = true

/-- The paths of both are the same, one by one. -/
def Same (first second : Locations) : Prop :=
  Files.Path.Same first.pages second.pages ∧
    Files.Path.Same first.data second.data ∧
      Files.Path.Same first.manifest second.manifest

instance (first second : Locations) : Decidable (Same first second) :=
  inferInstanceAs (Decidable (_ ∧ _ ∧ _))

theorem AreAbsolute.below_eq {locations : Locations}
    (absolute : locations.AreAbsolute) (base : Text) :
    locations.below base = locations := by
  rw [below, Files.Path.join_of_isAbsolute base absolute.pages,
    Files.Path.join_of_isAbsolute base absolute.data,
    Files.Path.join_of_isAbsolute base absolute.manifest]

theorem areAbsolute_below {base : Text} (absolute : isAbsolute base = true)
    (locations : Locations) : (locations.below base).AreAbsolute where
  pages := Files.Path.isAbsolute_join absolute locations.pages
  data := Files.Path.isAbsolute_join absolute locations.data
  manifest := Files.Path.isAbsolute_join absolute locations.manifest

theorem same_below_below_iff (base : Text) (locations : Locations) :
    ((locations.below base).below base).Same (locations.below base) ↔
      (locations.below base).AreAbsolute ∨ names base = [] := by
  have pages := Files.Path.same_join_join_iff base locations.pages
  have data := Files.Path.same_join_join_iff base locations.data
  have manifest := Files.Path.same_join_join_iff base locations.manifest
  constructor
  · rintro ⟨samePages, sameData, sameManifest⟩
    by_cases noNames : names base = []
    · exact .inr noNames
    · exact .inl ⟨(pages.mp samePages).resolve_right noNames,
        (data.mp sameData).resolve_right noNames,
        (manifest.mp sameManifest).resolve_right noNames⟩
  · rintro (absolute | noNames)
    · exact ⟨pages.mpr (.inl absolute.pages), data.mpr (.inl absolute.data),
        manifest.mpr (.inl absolute.manifest)⟩
    · exact ⟨pages.mpr (.inr noNames), data.mpr (.inr noNames),
        manifest.mpr (.inr noNames)⟩

theorem Same.refl (locations : Locations) : locations.Same locations :=
  ⟨.refl _, .refl _, .refl _⟩

end Locations

namespace Settings

/-- The settings are the same, with the same paths. -/
def Same (first second : Settings) : Prop :=
  first.locations.Same second.locations ∧ first.parse = second.parse

instance (first second : Settings) : Decidable (Same first second) :=
  inferInstanceAs (Decidable (_ ∧ _))

theorem Same.refl (settings : Settings) : settings.Same settings :=
  ⟨.refl _, rfl⟩

/-- A path without a name before the last one. -/
def HasNoDirectory (path : Text) : Prop :=
  ∀ base, parent? path = some base → names base = []

section Anchor

variable {path : Text}

theorem anchor_of_parent? {base : Text} (isParent : parent? path = some base)
    (settings : Settings) :
    settings.anchor path =
      { settings with locations := settings.locations.below base } := by
  rw [anchor, isParent]

theorem anchor_of_areAbsolute {settings : Settings}
    (absolute : settings.locations.AreAbsolute) :
    settings.anchor path = settings := by
  rw [anchor]
  split
  · rw [absolute.below_eq]
  · rfl

theorem anchor_of_noParent (noParent : parent? path = none)
    (settings : Settings) : settings.anchor path = settings := by
  rw [anchor, noParent]

theorem same_anchor_anchor_iff (settings : Settings) :
    ((settings.anchor path).anchor path).Same (settings.anchor path) ↔
      (settings.anchor path).locations.AreAbsolute ∨ HasNoDirectory path := by
  cases isParent : parent? path with
  | none =>
      have noDirectory : HasNoDirectory path := by
        simp [HasNoDirectory, isParent]
      rw [anchor_of_noParent isParent, anchor_of_noParent isParent]
      exact iff_of_true (.refl settings) (.inr noDirectory)
  | some base =>
      have sameLocations :=
        Locations.same_below_below_iff base settings.locations
      simpa [anchor_of_parent? isParent, Same, HasNoDirectory, isParent]
        using sameLocations

end Anchor

/-! ## Loading and saving -/

section Run

variable {path : Text} {disk after : Disk} {settings : Settings}

theorem run_loadFrom (path : Text) (disk : Disk) :
    (loadFrom path).run disk =
      (match disk.read path with
        | .error trouble =>
            .error <| fileFailure "Failed to read config ".toList path
              trouble.failure.message
        | .ok document => ofDocument path document, disk) := by
  have asked : (FileTask.read path).run disk =
      ((disk.read path).mapError Files.Trouble.failure, disk) :=
    rfl
  rw [loadFrom, FileTask.run_bind, asked]
  cases disk.read path with
  | error trouble =>
      rfl
  | ok document =>
      rfl

theorem exists_of_loadFrom
    (loaded : (loadFrom path).run disk = (.ok settings, after)) :
    ∃ original : Settings, settings = original.anchor path := by
  rw [run_loadFrom] at loaded
  obtain ⟨outcome, rfl⟩ := Prod.mk.inj loaded
  split at outcome
  · cases outcome
  · rw [ofDocument] at outcome
    split at outcome
    · rename_i original _
      exact ⟨original, (Except.ok.inj outcome).symm⟩
    · cases outcome

theorem exists_of_saveTo
    (saved : (settings.saveTo path).run disk = (.ok (), after)) :
    ∃ middle : Disk, middle.write path settings.toToml = .ok after := by
  rw [saveTo, FileTask.run_bind] at saved
  generalize (createParent path).run disk = created at saved
  obtain ⟨_ | _, middle⟩ := created
  · cases saved
  have asked : (FileTask.write path settings.toToml).run middle =
      middle.settle (middle.write path settings.toToml) :=
    rfl
  simp only [FileTask.run_bind, asked] at saved
  cases isWritten : middle.write path settings.toToml with
  | error trouble =>
      rw [isWritten] at saved
      cases saved
  | ok changed =>
      rw [isWritten] at saved
      cases saved
      exact ⟨middle, isWritten⟩

/-- What is loaded after saving are the saved settings with their relative paths
below the directory of the file. -/
theorem run_loadFrom_of_saveTo
    (saved : (settings.saveTo path).run disk = (.ok (), after)) :
    (loadFrom path).run after = (.ok (settings.anchor path), after) := by
  obtain ⟨middle, isWritten⟩ := exists_of_saveTo saved
  rw [run_loadFrom, Disk.read_of_write isWritten]
  simp only [ofDocument, ofToml?_toToml]

/-- Settings that were loaded from a file and saved there are loaded again as
they are, if all of their paths are absolute, as they are in a file with an
absolute path. Else each relative path is put below the directory of the file
once more, which changes the settings unless the file has no directory. -/
theorem reloaded_after_save
    {before : Disk} (loaded : (loadFrom path).run disk = (.ok settings, before))
    (saved : (settings.saveTo path).run before = (.ok (), after)) :
    ((loadFrom path).run after).1 = .ok (settings.anchor path) ∧
      (settings.locations.AreAbsolute → settings.anchor path = settings) ∧
      (isAbsolute path = true → settings.locations.AreAbsolute) ∧
      ((settings.anchor path).Same settings ↔
        settings.locations.AreAbsolute ∨ HasNoDirectory path) := by
  obtain ⟨original, rfl⟩ := exists_of_loadFrom loaded
  rw [run_loadFrom_of_saveTo saved]
  refine ⟨rfl, anchor_of_areAbsolute, ?_, same_anchor_anchor_iff original⟩
  intro absolute
  obtain ⟨middle, isWritten⟩ := exists_of_saveTo saved
  obtain ⟨base, isParent⟩ :=
    Files.Path.exists_parent? (Files.Path.names_ne_nil_of_write isWritten)
  rw [anchor_of_parent? isParent]
  exact Locations.areAbsolute_below
    (Files.Path.isAbsolute_of_parent? isParent absolute) original.locations

end Run

/-! ## A file in a directory -/

/-- A disk with one file of settings in a directory of the root. -/
def confDisk (settings : Settings) : Disk where
  root :=
    .directory [("conf".toList,
      .directory [("uimeta.toml".toList, .file (.text settings.toToml))])]
  workingDirectory := []

theorem run_loadFrom_confDisk {path : Text} {settings : Settings}
    (isRead : (confDisk settings).read path = .ok settings.toToml) :
    (loadFrom path).run (confDisk settings) =
      (.ok (settings.anchor path), confDisk settings) := by
  rw [run_loadFrom, isRead]
  simp only [ofDocument, ofToml?_toToml]

/-- By its absolute path, a file is saved as it was loaded. -/
theorem conf_kept :
    ∃ settings after,
      (loadFrom "/conf/uimeta.toml".toList).run (confDisk .default) =
        (.ok settings, confDisk .default) ∧
      settings.locations.pages = "/conf/docs".toList ∧
      (settings.saveTo "/conf/uimeta.toml".toList).run (confDisk .default) =
        (.ok (), after) ∧
      ((loadFrom "/conf/uimeta.toml".toList).run after).1 = .ok settings := by
  let path := "/conf/uimeta.toml".toList
  let settings := Settings.default.anchor path
  have loaded : (loadFrom path).run (confDisk .default) =
      (.ok settings, confDisk .default) :=
    run_loadFrom_confDisk rfl
  have saved : (settings.saveTo path).run (confDisk .default) =
      (.ok (), ((settings.saveTo path).run (confDisk .default)).2) :=
    rfl
  obtain ⟨reloaded, kept, absolute, -⟩ := reloaded_after_save loaded saved
  rw [kept (absolute rfl)] at reloaded
  exact ⟨settings, _, loaded, rfl, saved, reloaded⟩

/-- By a relative path, its paths move below the directory once more. -/
theorem conf_moved :
    ∃ settings reloaded after,
      (loadFrom "conf/uimeta.toml".toList).run (confDisk .default) =
        (.ok settings, confDisk .default) ∧
      settings.locations.pages = "conf/docs".toList ∧
      (settings.saveTo "conf/uimeta.toml".toList).run (confDisk .default) =
        (.ok (), after) ∧
      ((loadFrom "conf/uimeta.toml".toList).run after).1 = .ok reloaded ∧
      reloaded.locations.pages = "conf/conf/docs".toList ∧
      ¬ reloaded.Same settings := by
  let path := "conf/uimeta.toml".toList
  let settings := Settings.default.anchor path
  have loaded : (loadFrom path).run (confDisk .default) =
      (.ok settings, confDisk .default) :=
    run_loadFrom_confDisk rfl
  have saved : (settings.saveTo path).run (confDisk .default) =
      (.ok (), ((settings.saveTo path).run (confDisk .default)).2) :=
    rfl
  have reloaded := congrArg Prod.fst (run_loadFrom_of_saveTo saved)
  exact ⟨settings, settings.anchor path, _, loaded, rfl, saved, reloaded, rfl,
    by decide⟩

end Settings

end ComponentDocs
