import ComponentDocs.Files.Path

/-!
The places of pages below a directory: their names and their order.
-/

namespace ComponentDocs.Build

/-- The order of places by their first differing name. -/
def placeAtMost : List Text → List Text → Bool
  | [], _ => true
  | _ :: _, [] => false
  | left :: lefts, right :: rights =>
      if left = right then placeAtMost lefts rights
      else Text.atMost left right

/-- Whether a file name has the extension of pages, up to ASCII case. -/
def isPageName (name : Text) : Bool :=
  (Files.Path.extension? name).any fun extension =>
    Text.sameIgnoringCase extension "md".toList

def fileName (place : List Text) : Text :=
  place.getLast?.getD []

/-- The name of a page without its extension. -/
def slug (place : List Text) : Text :=
  Files.Path.stem (fileName place)

def pathOf (root : Text) (place : List Text) : Text :=
  place.foldl Files.Path.join root

end ComponentDocs.Build
