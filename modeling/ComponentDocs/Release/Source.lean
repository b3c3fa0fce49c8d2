import ComponentDocs.Files.Task
import ComponentDocs.Release.Manifest

/-!
Where the current version of the library comes from. A version can always be
told: a manifest that does not state one gives the version by default.
-/

namespace ComponentDocs

/-- A source of versions. -/
inductive ReleaseSource
  /-- Always the same version. -/
  | fixed (version : Text)
  /-- What the package manifest at a path states when it is asked. -/
  | manifest (path : Text)
deriving DecidableEq, Repr

namespace ReleaseSource

/-- The version of a manifest that does not state one. -/
def defaultVersion : Text := "0.0.0".toList

/-- The version in a manifest that has been read. -/
def versionOf (content : Except FileFailure Text) : Text :=
  match content with
  | .ok text => (Manifest.version? text).getD defaultVersion
  | .error _ => defaultVersion

def current : ReleaseSource → FileTask Text
  | fixed version => return version
  | manifest path => return versionOf (← FileTask.read path)

end ReleaseSource

end ComponentDocs
