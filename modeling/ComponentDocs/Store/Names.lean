import ComponentDocs.Failure
import ComponentDocs.Files.Path

/-!
The names of the files in the data directory.
-/

namespace ComponentDocs

/-- The data directory, by its path. -/
structure Store where
  root : Text
deriving DecidableEq, Repr

namespace Store

def corpusName : Text := "corpus.json".toList

/-- The file that the corpus is written to before it takes its place. -/
def draftName : Text := "corpus.json.tmp".toList

def corpusPath (store : Store) : Text :=
  Files.Path.join store.root corpusName

def draftPath (store : Store) : Text :=
  Files.Path.join store.root draftName

def typesPath (store : Store) : Text :=
  Files.Path.join store.root "types".toList

def examplesPath (store : Store) : Text :=
  Files.Path.join store.root "examples".toList

/-- The ends of file names of type definitions, the preferred first. -/
def typeEnds : List Text :=
  [".d.ts", ".ts", ".txt"].map String.toList

/-- The ends of file names of examples, the preferred first. -/
def exampleEnds : List Text :=
  [".md", ".vue", ".txt"].map String.toList

/-! ## File names of tags -/

/-- Whether a character of a tag may stand in a file name. -/
def isPlain (character : Char) : Bool :=
  character.isAlphanum || character == '.' || character == '_' ||
    character == '-'

def plain (character : Char) : Char :=
  if isPlain character then character else '_'

/-- Put an underscore for each two adjacent points, from the left. -/
def collapsePoints : Text → Text
  | [] => []
  | '.' :: '.' :: rest => '_' :: collapsePoints rest
  | character :: rest => character :: collapsePoints rest

/-- The file name of a tag without its end; empty for a blank tag. Two points
never stand side by side after one pass, since an underscore takes the place
of each pair. -/
def stemOf (tag : Text) : Text :=
  collapsePoints ((Text.trim tag).map plain)

def emptyTag : Failure :=
  .storage "Tag cannot be empty".toList

end Store

end ComponentDocs
