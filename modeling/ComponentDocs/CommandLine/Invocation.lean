import ComponentDocs.CommandLine.Argument
import ComponentDocs.Files.Task

/-!
What a command line asks for, given the variables of its environment.
-/

namespace ComponentDocs.CommandLine

/-- What surrounds a run: the system, the values of variables by name, and
whether the output goes to a terminal. -/
structure Environment where
  platform : Platform
  values : List (Text × Text)
  terminal : Bool

namespace Environment

def value? (environment : Environment) (name : Text) : Option Text :=
  (environment.values.find? (fun entry => entry.1 = name)).map Prod.snd

end Environment

/-- A command with its own arguments. -/
inductive Command
  | build
  | list
  | search (keyword : Text) (limit : Option Nat)
  | get (tag : Text)
  | examples (tag : Text)
  | webTypes (output library : Option Text)
deriving DecidableEq, Repr

/-- A run that is asked for. -/
structure Invocation where
  command : Command
  format : Format
  noColor : Bool
  config : Option Text
deriving DecidableEq, Repr

/-! ## Levels -/

/-- The names of the commands. -/
inductive CommandName
  | build
  | list
  | search
  | get
  | examples
  | webTypes
deriving DecidableEq, Repr

namespace CommandName

def all : List CommandName :=
  [build, list, search, get, examples, webTypes]

def word : CommandName → Text
  | build => "build".toList
  | list => "list".toList
  | search => "search".toList
  | get => "get".toList
  | examples => "examples".toList
  | webTypes => "web-types".toList

def ofWord? (word : Text) : Option CommandName :=
  all.find? fun name => name.word = word

def hasFormat : CommandName → Bool
  | webTypes => false
  | _ => true

def ownSwitches : CommandName → List Switch
  | search => [.limit, .format]
  | webTypes => [.output, .name]
  | _ => [.format]

def positionalCount : CommandName → Nat
  | search => 1
  | get => 1
  | examples => 1
  | _ => 0

def level (name : CommandName) : Level where
  switches := Switch.common ++ name.ownSwitches
  hasVersion := false
  capacity := name.positionalCount
  stops := []

def command? (found : Found) : CommandName → Option Command
  | build => some .build
  | list => some .list
  | search =>
      found.positional.head?.map fun keyword =>
        .search keyword ((found.value? .limit).bind limit?)
  | get => found.positional.head?.map .get
  | examples => found.positional.head?.map .examples
  | webTypes => some (.webTypes (found.value? .output) (found.value? .name))

end CommandName

def helpWord : Text := "help".toList

/-- The words before the name of a command. -/
def topLevel : Level where
  switches := Switch.common
  hasVersion := true
  capacity := 0
  stops := helpWord :: CommandName.all.map CommandName.word

/-! ## Environment -/

def configVariable : Text := "UIMETA_CONFIG".toList

def formatVariable : Text := "UIMETA_OUTPUT_FORMAT".toList

def defaultFormat (environment : Environment) : Format :=
  if environment.terminal then .text else .json

/-- The form of output of a command: that of its switch, or of the variable,
or the one by default. A command without forms does not look at the
variable. -/
def formatOf (environment : Environment) (name : CommandName)
    (found : Found) : Except Halt Format :=
  if name.hasFormat then
    match (found.value? .format).or (environment.value? formatVariable) with
    | none => .ok (defaultFormat environment)
    | some word =>
        match Format.ofText? word with
        | some format => .ok format
        | none => .error .misuse
  else .ok (defaultFormat environment)

/-- The file of settings that is asked for: that of the switch after the name
of the command, or before it, or of the variable. Unless both places have the
switch, the variable must not be empty. -/
def configOf (environment : Environment) (top inner : Found) :
    Except Halt (Option Text) :=
  let fromEnvironment := environment.value? configVariable
  let everywhere := top.has .config && inner.has .config
  if fromEnvironment = some [] && !everywhere then .error .misuse
  else .ok (((inner.value? .config).or (top.value? .config)).or fromEnvironment)

/-! ## Lines -/

/-- What the words after `help` ask for: the help on the tool or on one
command. -/
def readHelp : List Text → Halt
  | [] => .help
  | [word] =>
      if topLevel.stops.contains word then .help else .misuse
  | _ => .misuse

/-- Read the words after the name of a command. -/
def readCommand (environment : Environment) (top : Found)
    (name : CommandName) (words : List Text) : Except Halt Invocation := do
  let (inner, _) ← name.level.read .empty words
  match name.command? inner with
  | none => .error .misuse
  | some command =>
      let format ← formatOf environment name inner
      let config ← configOf environment top inner
      let noColor := top.has .noColor || inner.has .noColor
      return { command, format, noColor, config }

def readLine (environment : Environment) (words : List Text) :
    Except Halt Invocation := do
  let (top, rest) ← topLevel.read .empty words
  match rest with
  | [] => .error .misuse
  | word :: arguments =>
      match CommandName.ofWord? word with
      | some name => readCommand environment top name arguments
      | none => .error (readHelp arguments)

end ComponentDocs.CommandLine
