import ComponentDocs.Component.Json
import ComponentDocs.Files.Task
import ComponentDocs.Json.Reader
import ComponentDocs.Json.Writer
import ComponentDocs.Store.Names

/-!
The data directory: the corpus, and the type definitions and examples that
someone puts there.

The corpus is written to a draft first, and the draft then takes the place of
the corpus. On every system but Windows this is one step, so that the corpus is
at all times either the old or the new one. On Windows the old corpus is removed
before: until the draft has taken its place there is none, and there is none
after it could not.
-/

namespace ComponentDocs.Store

/-- A failure of the data directory: what failed, and why. -/
def storageFailure (what reason : Text) : Failure :=
  .storage (what ++ reason)

def failed (what : String) (failure : FileFailure) : Failure :=
  storageFailure what.toList failure.message

/-- The data directory at a path, which is created if need be. -/
def atRoot (root : Text) : FileTask (Except Failure Store) := do
  match ← FileTask.createDirectories root with
  | .ok () => return .ok ⟨root⟩
  | .error failure =>
      return .error (failed "Failed to create data directory: " failure)

/-! ## The corpus -/

def corpusText (corpus : Corpus) : Text :=
  corpus.toJson.pretty

def readCorpus? (content : Text) : Option Corpus :=
  (Json.read? content).bind Corpus.ofJson?

/-- Clear the path of the corpus. Only on Windows what is there is removed. -/
def makeWay (store : Store) :
    Platform → FileTask (Except Failure Unit)
  | .other => return .ok ()
  | .windows => do
      if ← FileTask.pathExists store.corpusPath then
        match ← FileTask.remove store.corpusPath with
        | .error failure =>
            return .error (failed "Failed to remove existing corpus: " failure)
        | .ok () => return .ok ()
      else return .ok ()

/-- Write a corpus to the draft, which then takes the place of the corpus. On
Windows the old corpus is removed in between; elsewhere it stays until the new
one is there. -/
def save (store : Store) (platform : Platform) (corpus : Corpus) :
    FileTask (Except Failure Unit) := do
  match ← FileTask.write store.draftPath (corpusText corpus) with
  | .error failure => return .error (failed "Failed to write corpus: " failure)
  | .ok () =>
      match ← store.makeWay platform with
      | .error failure => return .error failure
      | .ok () =>
          match ← FileTask.rename store.draftPath store.corpusPath with
          | .error failure =>
              return .error (failed "Failed to commit corpus: " failure)
          | .ok () => return .ok ()

def noCorpus (store : Store) : Failure :=
  .storage <|
    corpusName ++ " missing in ".toList ++ store.root ++
      "; run \x60uimeta build\x60 first".toList

def unreadable : Text := "the text does not write a corpus".toList

def corpusOfText (content : Text) : Except Failure Corpus :=
  match readCorpus? content with
  | some corpus => .ok corpus
  | none => .error (storageFailure "Failed to parse corpus: ".toList unreadable)

def load (store : Store) : FileTask (Except Failure Corpus) := do
  if ← FileTask.pathExists store.corpusPath then
    match ← FileTask.read store.corpusPath with
    | .error failure =>
        return .error (failed "Failed to read corpus: " failure)
    | .ok content => return corpusOfText content
  else return .error store.noCorpus

def hasCorpus (store : Store) : FileTask Bool :=
  FileTask.pathExists store.corpusPath

/-! ## Texts of a tag -/

/-- The paths to look at for a tag, the preferred first. -/
def candidates (directory stem : Text) (ends : List Text) : List Text :=
  ends.map fun last => Files.Path.join directory (stem ++ last)

def readFirst : List Text → FileTask (Except Failure (Option Text))
  | [] => return .ok none
  | path :: rest => do
      if ← FileTask.isFile path then
        match ← FileTask.read path with
        | .ok content => return .ok (some content)
        | .error failure =>
            return .error <|
              storageFailure ("Failed to read ".toList ++ path ++ ": ".toList)
                failure.message
      else readFirst rest

def textOf (directory : Text) (ends : List Text) (tag : Text) :
    FileTask (Except Failure (Option Text)) :=
  if (stemOf tag).isEmpty then return .error emptyTag
  else readFirst (candidates directory (stemOf tag) ends)

def typeDefinition (store : Store) (tag : Text) :
    FileTask (Except Failure (Option Text)) :=
  textOf store.typesPath typeEnds tag

def examples (store : Store) (tag : Text) :
    FileTask (Except Failure (Option Text)) :=
  textOf store.examplesPath exampleEnds tag

end ComponentDocs.Store
