import ComponentDocs.Build.Walk
import ComponentDocs.Component.Assembly
import ComponentDocs.Files.Task
import ComponentDocs.Release.Source
import ComponentDocs.Store.Basic

/-!
A corpus from all pages below a directory.

A page that cannot be read or assembled gives a component of which only the
tag is known, named for the file. Of two pages with one tag the later gives the
component, in the place of the earlier.
-/

namespace ComponentDocs.Build

/-- What a build has counted: pages, pages that failed, and components that
took the place of an earlier one. -/
structure Report where
  documents : Nat
  failures : Nat
  duplicates : Nat
deriving DecidableEq, Repr

/-- The components so far and the counts. -/
structure Progress where
  components : List Component
  report : Report
deriving DecidableEq, Repr

/-- A page: its name, and its component or the reason why there is none. -/
abbrev Page := Text × Except Failure Component

/-! ## Pages -/

def componentOf (options : ParseOptions) : Page → Component
  | (_, .ok component) => component
  | (slug, .error _) =>
      Component.ofTag (Name.tag slug options.componentPrefix)

/-- One for a page that failed, and else none. -/
def failureCount : Page → Nat
  | (_, .ok _) => 0
  | (_, .error _) => 1

def hasTag (tag : Text) (components : List Component) : Bool :=
  components.any fun component => component.tag = tag

def add (options : ParseOptions) (progress : Progress) (page : Page) :
    Progress :=
  let component := componentOf options page
  let replaced :=
    if hasTag component.tag progress.components then 1 else 0
  { components :=
      Assembly.upsert Component.tag component progress.components
    report :=
      { documents := progress.report.documents + 1
        failures := progress.report.failures + failureCount page
        duplicates := progress.report.duplicates + replaced } }

def ofPages (options : ParseOptions) (pages : List Page) : Progress :=
  pages.foldl (add options) ⟨[], ⟨0, 0, 0⟩⟩

/-! ## Tasks -/

/-- The component in a file that has been read. -/
def assemble (options : ParseOptions) (slug : Text) :
    Except FileFailure Text → Except Failure Component
  | .ok content => Assembly.component slug content options
  | .error failure => .error (.file failure)

def readPages (options : ParseOptions) (root : Text) :
    List (List Text) → FileTask (List Page)
  | [] => return []
  | place :: rest => do
      let content ← FileTask.read (pathOf root place)
      let pages ← readPages options root rest
      return (slug place, assemble options (slug place) content) :: pages

def noDirectory (root : Text) : Failure :=
  .storage <|
    "docs directory ".toList ++ root ++ " does not exist".toList

/-- Build the corpus of the pages below `root`, at the moment `now`. -/
def corpus (options : ParseOptions) (root : Text) (source : ReleaseSource)
    (now : Instant) : FileTask (Except Failure (Corpus × Report)) := do
  if ← FileTask.isDirectory root then
    match ← pagePlaces root with
    | .error failure => return .error (.file failure)
    | .ok places =>
        let pages ← readPages options root places
        let version ← source.current
        let progress := ofPages options pages
        return .ok
          ({ version, generatedAt := now, components := progress.components },
            progress.report)
  else return .error (noDirectory root)

def save (platform : Platform) (options : ParseOptions) (root : Text)
    (source : ReleaseSource) (now : Instant) (store : Store) :
    FileTask (Except Failure (Corpus × Report)) := do
  match ← corpus options root source now with
  | .error failure => return .error failure
  | .ok (built, report) =>
      match ← store.save platform built with
      | .error failure => return .error failure
      | .ok () => return .ok (built, report)

end ComponentDocs.Build
