import ComponentDocs.Build.Page
import ComponentDocs.Files.Task

/-!
The walk through a directory and all directories below it, in search of pages.
Directories that are met are listed later, the last one first.
-/

namespace ComponentDocs.Build

/-- A walk on its way: the places of the directories that are still to be
listed, the next one first, and those of the pages that have been met. -/
structure Walk where
  pending : List (List Text)
  pages : List (List Text)
deriving DecidableEq, Repr

namespace Walk

/-- Only the directory at the top is known. -/
def initial : Walk :=
  ⟨[[]], []⟩

/-- The walk after it has met an entry. Of the files only pages count. -/
def meet (walk : Walk) (place : List Text) (isDirectory : Bool) : Walk :=
  if isDirectory then { walk with pending := place :: walk.pending }
  else if isPageName (fileName place) then
    { walk with pages := place :: walk.pages }
  else walk

/-- The walk after it has met the entries of the directory at `here`. -/
def meetAll (root : Text) (here : List Text) (walk : Walk) :
    List Text → FileTask Walk
  | [] => return walk
  | name :: rest => do
      let place := here ++ [name]
      let isDirectory ← FileTask.isDirectory (pathOf root place)
      meetAll root here (walk.meet place isDirectory) rest

/-- The places of the pages when no directory is left to be listed; `fuel`
bounds the directories that are listed. -/
def finish (root : Text) :
    Nat → Walk → FileTask (Except FileFailure (List (List Text)))
  | 0, walk => return .ok walk.pages
  | fuel + 1, walk =>
      match walk.pending with
      | [] => return .ok walk.pages
      | here :: pending => do
          match ← FileTask.list (pathOf root here) with
          | .error failure => return .error failure
          | .ok names =>
              let next ← meetAll root here { walk with pending } names
              finish root fuel next

end Walk

/-- The places of all pages below the directory at `root`, in ascending
order. -/
def pagePlaces (root : Text) :
    FileTask (Except FileFailure (List (List Text))) := do
  let bound ← FileTask.directoryBound
  match ← Walk.finish root bound .initial with
  | .error failure => return .error failure
  | .ok pages => return .ok (pages.mergeSort placeAtMost)

end ComponentDocs.Build
