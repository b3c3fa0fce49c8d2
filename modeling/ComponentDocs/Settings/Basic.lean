import ComponentDocs.Component.Assembly

/-!
The settings of the tool: where its files are and how pages are read.
-/

namespace ComponentDocs

/-- The paths of pages, of generated data and of the package manifest. -/
structure Locations where
  pages : Text
  data : Text
  manifest : Text
deriving DecidableEq, Repr

def Locations.default : Locations where
  pages := "docs".toList
  data := ".uimeta".toList
  manifest := "package.json".toList

/-- All settings. -/
structure Settings where
  locations : Locations
  parse : ParseOptions
deriving DecidableEq, Repr

def Settings.default : Settings :=
  ⟨.default, .default⟩

end ComponentDocs
