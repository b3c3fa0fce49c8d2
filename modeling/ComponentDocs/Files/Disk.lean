import ComponentDocs.Files.Path
import ComponentDocs.Files.Task
import ComponentDocs.Files.Tree

/-!
A disk that is a value: a tree with a working directory, and the
answers that it gives to requests.
-/

namespace ComponentDocs

namespace Files

/-- What a file holds: text, or bytes that are no text. -/
inductive Content
  | text (content : Text)
  | binary
deriving DecidableEq, Repr

/-- A tree and the place of its working directory. -/
structure Disk where
  root : FileTree Content
  workingDirectory : List Text

/-- The reasons why a request fails. -/
inductive Trouble
  | noEntry
  | entryExists
  | notDirectory
  | isDirectory
  | notText
deriving DecidableEq, Repr

namespace Trouble

def message : Trouble → Text
  | noEntry => "No such file or directory (os error 2)".toList
  | entryExists => "File exists (os error 17)".toList
  | notDirectory => "Not a directory (os error 20)".toList
  | isDirectory => "Is a directory (os error 21)".toList
  | notText => "stream did not contain valid UTF-8".toList

def failure (trouble : Trouble) : FileFailure :=
  ⟨.lasting, trouble.message⟩

end Trouble

namespace Disk

def at? (disk : Disk) (place : List Text) : Option (FileTree Content) :=
  disk.root.at? place

/-! ## Following paths -/

def staysHere (step : Text) : Bool :=
  step.isEmpty || step == ['.']

def leadsUp (step : Text) : Bool :=
  step == ['.', '.']

/-- The place where steps lead from a place. Only a directory can be left. -/
def follow (disk : Disk) (here : List Text) :
    List Text → Except Trouble (List Text)
  | [] =>
      if (disk.at? here).isSome then .ok here else .error .noEntry
  | step :: rest =>
      match disk.at? here with
      | none => .error .noEntry
      | some (.file _) => .error .notDirectory
      | some (.directory _) =>
          if staysHere step then disk.follow here rest
          else if leadsUp step then disk.follow here.dropLast rest
          else disk.follow (here ++ [step]) rest

def start (disk : Disk) (path : Text) : List Text :=
  if Path.isAbsolute path then [] else disk.workingDirectory

def locate (disk : Disk) (path : Text) : Except Trouble (List Text) :=
  if path.isEmpty then .error .noEntry
  else disk.follow (disk.start path) (Path.steps path)

def find? (disk : Disk) (path : Text) : Option (FileTree Content) :=
  match disk.locate path with
  | .ok place => disk.at? place
  | .error _ => none

/-- The directory and the name that a path gives to something new, and
whether slashes follow the name; `none` when the path ends in no name. -/
def newPlace? (path : Text) : Option (List Text × Text × Bool) :=
  let reversed := (Path.steps path).reverse
  match reversed.dropWhile List.isEmpty with
  | [] => none
  | name :: before =>
      if staysHere name || leadsUp name then none
      else some (before.reverse, name, reversed.head? == some [])

def directoryAt (disk : Disk) (place : List Text) :
    Except Trouble (List Text) :=
  match disk.at? place with
  | some (.directory _) => .ok place
  | some (.file _) => .error .notDirectory
  | none => .error .noEntry

/-- The place of something new, if its directory exists. -/
def locateNew (disk : Disk) (path : Text) (before : List Text)
    (name : Text) : Except Trouble (List Text) := do
  let place ← disk.follow (disk.start path) before
  let directory ← disk.directoryAt place
  return directory ++ [name]

/-! ## Requests -/

def kindOf : FileTree Content → Kind
  | .file _ => .file
  | .directory _ => .directory

def read (disk : Disk) (path : Text) : Except Trouble Text :=
  match disk.locate path with
  | .error trouble => .error trouble
  | .ok place =>
      match disk.at? place with
      | some (.file (.text content)) => .ok content
      | some (.file .binary) => .error .notText
      | some (.directory _) => .error .isDirectory
      | none => .error .noEntry

/-- The place of the file to write at a path. -/
def target (disk : Disk) (path : Text) : Except Trouble (List Text) :=
  if path.isEmpty then .error .noEntry
  else
    match newPlace? path with
    | none =>
        match disk.locate path with
        | .ok _ => .error .isDirectory
        | .error trouble => .error trouble
    | some (before, name, slashed) =>
        match disk.locateNew path before name with
        | .error trouble => .error trouble
        | .ok place =>
            if slashed then .error .isDirectory
            else
              match disk.at? place with
              | some (.directory _) => .error .isDirectory
              | _ => .ok place

def write (disk : Disk) (path content : Text) : Except Trouble Disk :=
  match disk.target path with
  | .error trouble => .error trouble
  | .ok place =>
      .ok { disk with
        root := disk.root.put place (.file (.text content)) }

def createDirectory (disk : Disk) (path : Text) :
    Except Trouble Disk :=
  if path.isEmpty then .error .noEntry
  else
    match newPlace? path with
    | none =>
        match disk.locate path with
        | .ok _ => .error .entryExists
        | .error trouble => .error trouble
    | some (before, name, _) =>
        match disk.locateNew path before name with
        | .error trouble => .error trouble
        | .ok place =>
            match disk.at? place with
            | some _ => .error .entryExists
            | none =>
                .ok { disk with
                  root := disk.root.put place (.directory []) }

def isDirectory (disk : Disk) (path : Text) : Bool :=
  match disk.find? path with
  | some (.directory _) => true
  | _ => false

def ensureDirectory (disk : Disk) (path : Text) : Except Trouble Disk :=
  match disk.createDirectory path with
  | .ok changed => .ok changed
  | .error trouble =>
      if disk.isDirectory path then .ok disk else .error trouble

/-- Create a directory with those that lead to it, at most `levels` of
them. The disk is given with the trouble too, since directories created
before it stay. -/
def createLevels (disk : Disk) (path : Text) :
    Nat → Disk × Except Trouble Unit
  | 0 => (disk, .error .noEntry)
  | levels + 1 =>
      if path.isEmpty then (disk, .ok ())
      else
        match disk.createDirectory path with
        | .ok changed => (changed, .ok ())
        | .error .noEntry =>
            match Path.parent? path with
            | none => (disk, .error .noEntry)
            | some parent =>
                match disk.createLevels parent levels with
                | (changed, .error trouble) => (changed, .error trouble)
                | (changed, .ok ()) =>
                    match changed.ensureDirectory path with
                    | .ok complete => (complete, .ok ())
                    | .error trouble => (changed, .error trouble)
        | .error trouble =>
            if disk.isDirectory path then (disk, .ok ())
            else (disk, .error trouble)

def createDirectories (disk : Disk) (path : Text) :
    Disk × Except Trouble Unit :=
  disk.createLevels path (path.length + 1)

def rename (disk : Disk) (source destination : Text) :
    Except Trouble Disk :=
  match disk.locate source with
  | .error trouble => .error trouble
  | .ok origin =>
      match disk.at? origin, disk.target destination with
      | _, .error trouble => .error trouble
      | some (.file content), .ok place =>
          .ok { disk with
            root := (disk.root.remove origin).put place (.file content) }
      | _, .ok _ => .error .isDirectory

def remove (disk : Disk) (path : Text) : Except Trouble Disk :=
  match disk.locate path with
  | .error trouble => .error trouble
  | .ok place =>
      match disk.at? place with
      | some (.file _) => .ok { disk with root := disk.root.remove place }
      | some (.directory _) => .error .isDirectory
      | none => .error .noEntry

def list (disk : Disk) (path : Text) : Except Trouble (List Text) :=
  match disk.locate path with
  | .error trouble => .error trouble
  | .ok place =>
      match disk.at? place with
      | some (.directory entries) => .ok (entries.map Prod.fst)
      | some (.file _) => .error .notDirectory
      | none => .error .noEntry

/-! ## Tasks -/

/-- The disk after a request that changes it, and the answer. -/
def settle (disk : Disk) :
    Except Trouble Disk → Except FileFailure Unit × Disk
  | .ok changed => (.ok (), changed)
  | .error trouble => (.error trouble.failure, disk)

/-- The answer to a request, and the disk after it. -/
def answer (disk : Disk) :
    (request : Request) → request.Answer × Disk
  | .kind path => ((disk.find? path).map kindOf, disk)
  | .read path => ((disk.read path).mapError Trouble.failure, disk)
  | .write path content => disk.settle (disk.write path content)
  | .remove path => disk.settle (disk.remove path)
  | .createDirectories path =>
      let (changed, outcome) := disk.createDirectories path
      (outcome.mapError Trouble.failure, changed)
  | .rename source target => disk.settle (disk.rename source target)
  | .list path => ((disk.list path).mapError Trouble.failure, disk)
  | .directoryBound => (disk.root.directoryCount, disk)

end Disk

end Files

namespace FileTask

open Files (Disk)

variable {α : Type}

/-- The result of a task on a disk, and the disk after it. -/
def run (disk : Disk) : FileTask α → α × Disk
  | done result => (result, disk)
  | ask request next =>
      run (disk.answer request).2 (next (disk.answer request).1)

end FileTask

end ComponentDocs
