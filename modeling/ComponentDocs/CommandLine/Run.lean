import ComponentDocs.CommandLine.Display
import ComponentDocs.CommandLine.Invocation
import ComponentDocs.Editor.Json
import ComponentDocs.Query.Service
import ComponentDocs.Settings.File

/-!
Running a command: its exit status, its output and the report of its failure.
-/

namespace ComponentDocs.CommandLine

/-- What a run leaves: a status, which is zero when all went well, the text of
the output and the text of the report. -/
structure Outcome where
  status : Nat
  output : Text
  report : Text
deriving DecidableEq, Repr

/-! ## Reports -/

/-- A failed run: what failed, and the cause if there is another. -/
structure Trouble where
  message : Text
  cause : Option Text
deriving DecidableEq, Repr

namespace Trouble

/-- The failure of a file operation is the cause of its own report. -/
def ofFailure (failure : Failure) : Trouble :=
  match failure with
  | .file inner => ⟨failure.message, some inner.message⟩
  | _ => ⟨failure.message, none⟩

/-- A text with each of its lines indented by four blanks. -/
def indent (text : Text) : Text :=
  Text.join "\n    ".toList (text.splitOn '\n')

def report (trouble : Trouble) : Text :=
  line ("Error: ".toList ++ trouble.message) ++
    match trouble.cause with
    | some cause =>
        line "\nCaused by:".toList ++ line ("    ".toList ++ indent cause)
    | none => []

end Trouble

def Outcome.ofResult : Except Trouble Text → Outcome
  | .ok output => ⟨0, output, []⟩
  | .error trouble => ⟨1, [], trouble.report⟩

def toolVersion : Text := "uimeta 0.4.0".toList

/-- The outcome of a command line that asks for no command. The texts on how
to use the tool are not part of it. -/
def Outcome.ofHalt : Halt → Outcome
  | .help => ⟨0, [], []⟩
  | .version => ⟨0, line toolVersion, []⟩
  | .misuse => ⟨2, [], []⟩

/-! ## Colours -/

/-- Whether a variable is set to something other than `0`. -/
def isOn (environment : Environment) (name : Text) : Bool :=
  (environment.value? name).any (· != ['0'])

def isOff (environment : Environment) (name : Text) : Bool :=
  environment.value? name = some ['0']

/-- Whether a terminal or a variable asks for colours. -/
def wantsColours (environment : Environment) : Bool :=
  isOn environment "CLICOLOR_FORCE".toList ||
    environment.terminal && !isOff environment "CLICOLOR".toList

/-- Whether output is coloured: when it is for a reader, and neither a variable
nor a switch forbids colours that are asked for. -/
def hasColours (environment : Environment) (invocation : Invocation) : Bool :=
  wantsColours environment && !invocation.noColor &&
    invocation.format = .text &&
    (environment.value? "NO_COLOR".toList).isNone

/-! ## Settings -/

/-- Put a message before a failure, which becomes its cause. -/
def explain {α : Type} (message : Text) :
    Except Failure α → Except Trouble α
  | .ok value => .ok value
  | .error failure => .error ⟨message, some failure.message⟩

def noHome : Failure :=
  .config "Failed to determine project directories".toList

def userSettings (environment : Environment) :
    FileTask (Except Failure Settings) :=
  match environment.value? "HOME".toList with
  | none => return .error noHome
  | some home =>
      Settings.loadIfPresent <| Settings.userPath <|
        Settings.userDirectory
          (environment.value? "XDG_CONFIG_HOME".toList) home

def loadSettings (environment : Environment) (config : Option Text) :
    FileTask (Except Trouble Settings) :=
  match config with
  | some path => do
      let loaded ← Settings.loadFrom path
      return explain ("Failed to load config from ".toList ++ path) loaded
  | none => do
      let loaded ← userSettings environment
      return explain "Failed to load config".toList loaded

/-! ## Commands -/

/-- The text of a result in a form of output. -/
def render (format : Format) (text : Text) (json : Json) : Text :=
  match format with
  | .text => text
  | .json => line json.pretty

/-- How a run shows its results. -/
structure View where
  format : Format
  colours : Bool

def runBuild (platform : Platform) (settings : Settings) (view : View)
    (now : Instant) : FileTask (Except Failure Text) := do
  match ← Store.atRoot settings.locations.data with
  | .error failure => return .error failure
  | .ok store =>
      match ← Build.save platform settings.parse settings.locations.pages
          (.manifest settings.locations.manifest) now store with
      | .error failure => return .error failure
      | .ok (corpus, report) =>
          let summary : BuildSummary := ⟨corpus, report, store.corpusPath⟩
          return .ok <|
            render view.format (summary.display view.colours) summary.toJson

/-- The data directory and the saved corpus. -/
def openStore (settings : Settings) :
    FileTask (Except Failure (Store × Corpus)) := do
  match ← Store.atRoot settings.locations.data with
  | .error failure => return .error failure
  | .ok store =>
      match ← store.load with
      | .error failure => return .error failure
      | .ok corpus => return .ok (store, corpus)

/-- Ask a question about the saved corpus. -/
def ask (settings : Settings)
    (question : Query.Service → FileTask (Except Failure Text)) :
    FileTask (Except Failure Text) := do
  match ← openStore settings with
  | .error failure => return .error failure
  | .ok (store, corpus) =>
      question <|
        Query.Service.start corpus store
          (.manifest settings.locations.manifest)

def runList (settings : Settings) (view : View) :
    FileTask (Except Failure Text) :=
  ask settings fun service => do
    let (listing, _) ← service.list
    return .ok <|
      render view.format (showListing view.colours listing) listing.toJson

def runSearch (settings : Settings) (view : View) (keyword : Text)
    (limit : Option Nat) : FileTask (Except Failure Text) :=
  ask settings fun service => do
    let (result, _) ← service.search ⟨keyword, limit⟩
    return .ok <|
      render view.format (showSearch view.colours keyword result)
        result.toJson

def runGet (settings : Settings) (view : View) (tag : Text) :
    FileTask (Except Failure Text) :=
  ask settings fun service => do
    match (← service.get tag).1 with
    | .error failure => return .error failure
    | .ok detail =>
        return .ok <|
          render view.format (showDetail view.colours detail) detail.toJson

def runExamples (settings : Settings) (view : View) (tag : Text) :
    FileTask (Except Failure Text) :=
  ask settings fun service => do
    let (found, _) ← service.examples tag
    return .ok <| render view.format (line found.content) found.toJson

/-! ## The document for editors -/

def defaultLibrary : Text := "components".toList

def manifestName (path : Text) : FileTask Text := do
  match ← FileTask.read path with
  | .ok content => return (Manifest.name? content).getD defaultLibrary
  | .error _ => return defaultLibrary

/-- The name of the library: the one that is asked for, or the manifest's. -/
def libraryName (settings : Settings) : Option Text → FileTask Text
  | some name => return name
  | none => manifestName settings.locations.manifest

/-- Write a text to a path whose directory is created if need be. -/
def writeOutput (path content : Text) : FileTask (Except Trouble Unit) := do
  let parent := (Files.Path.parent? path).getD []
  match ← FileTask.createDirectories parent with
  | .error failure =>
      return .error ⟨"Failed to create ".toList ++ parent, failure.message⟩
  | .ok () =>
      match ← FileTask.write path content with
      | .error failure =>
          return .error ⟨"Failed to write ".toList ++ path, failure.message⟩
      | .ok () => return .ok ()

/-- Write the document for editors to a path or to the output. -/
def runWebTypes (settings : Settings) (output library : Option Text) :
    FileTask (Except Trouble Text) := do
  match ← openStore settings with
  | .error failure => return .error (.ofFailure failure)
  | .ok (_, corpus) =>
      let name ← libraryName settings library
      let content := (Editor.WebTypes.ofCorpus corpus name).toJson.pretty
      match output with
      | none => return .ok (line content)
      | some path =>
          match ← writeOutput path content with
          | .error trouble => return .error trouble
          | .ok () => return .ok []

/-! ## Runs -/

def withTrouble (task : FileTask (Except Failure Text)) :
    FileTask (Except Trouble Text) := do
  return (← task).mapError Trouble.ofFailure

def runCommand (platform : Platform) (settings : Settings) (view : View)
    (now : Instant) : Command → FileTask (Except Trouble Text)
  | .build => withTrouble (runBuild platform settings view now)
  | .list => withTrouble (runList settings view)
  | .search keyword limit =>
      withTrouble (runSearch settings view keyword limit)
  | .get tag => withTrouble (runGet settings view tag)
  | .examples tag => withTrouble (runExamples settings view tag)
  | .webTypes output library => runWebTypes settings output library

def runInvocation (environment : Environment) (now : Instant)
    (invocation : Invocation) : FileTask (Except Trouble Text) := do
  match ← loadSettings environment invocation.config with
  | .error trouble => return .error trouble
  | .ok settings =>
      let view : View :=
        ⟨invocation.format, hasColours environment invocation⟩
      runCommand environment.platform settings view now invocation.command

def run (environment : Environment) (words : List Text) (now : Instant) :
    FileTask Outcome :=
  match readLine environment words with
  | .error halt => return Outcome.ofHalt halt
  | .ok invocation => do
      return Outcome.ofResult
        (← runInvocation environment now invocation)

end ComponentDocs.CommandLine
