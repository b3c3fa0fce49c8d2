import ComponentDocs.Files.Path
import ComponentDocs.Files.Task
import ComponentDocs.Settings.Toml

/-!
The file of settings. Relative paths in it start at the directory of the file.
-/

namespace ComponentDocs

/-- The paths, each below `base` unless it is absolute. -/
def Locations.below (base : Text) (locations : Locations) : Locations where
  pages := Files.Path.join base locations.pages
  data := Files.Path.join base locations.data
  manifest := Files.Path.join base locations.manifest

namespace Settings

/-- The settings with paths below the directory of the file at `path`. -/
def anchor (path : Text) (settings : Settings) : Settings :=
  match Files.Path.parent? path with
  | some base => { settings with locations := settings.locations.below base }
  | none => settings

/-- A failure to read or to understand the file at a path. -/
def fileFailure (what path reason : Text) : Failure :=
  .config (what ++ path ++ ": ".toList ++ reason)

def unreadable : Text := "the document does not write settings".toList

def ofDocument (path document : Text) : Except Failure Settings :=
  match ofToml? document with
  | some settings => .ok (settings.anchor path)
  | none =>
      .error <|
        fileFailure "Failed to parse config ".toList path unreadable

def loadFrom (path : Text) : FileTask (Except Failure Settings) := do
  match ← FileTask.read path with
  | .error failure =>
      return .error <|
        fileFailure "Failed to read config ".toList path failure.message
  | .ok document => return ofDocument path document

def loadIfPresent (path : Text) : FileTask (Except Failure Settings) := do
  if ← FileTask.pathExists path then loadFrom path
  else return .ok .default

def createParent (path : Text) : FileTask (Except FileFailure Unit) :=
  match Files.Path.parent? path with
  | some parent => FileTask.createDirectories parent
  | none => return .ok ()

def saveTo (settings : Settings) (path : Text) :
    FileTask (Except Failure Unit) := do
  match ← createParent path with
  | .error failure =>
      return .error <| .config <|
        "Failed to create config directory: ".toList ++ failure.message
  | .ok () =>
      match ← FileTask.write path settings.toToml with
      | .error failure =>
          return .error <| .config <|
            "Failed to write config: ".toList ++ failure.message
      | .ok () => return .ok ()

/-! ## The file of a user -/

/-- The path of a user's file below the directory for settings. -/
def userPath (directory : Text) : Text :=
  Files.Path.join (Files.Path.join directory "uimeta".toList)
    "config.toml".toList

/-- The directory for the settings of a user: `settings` if that is an
absolute path, and else a directory below `home`. -/
def userDirectory (settings : Option Text) (home : Text) : Text :=
  match settings with
  | some directory =>
      if Files.Path.isAbsolute directory then directory
      else Files.Path.join home ".config".toList
  | none => Files.Path.join home ".config".toList

end Settings

end ComponentDocs
