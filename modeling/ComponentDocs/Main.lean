import ComponentDocs.CommandLine.Run
import Std.Time.DateTime

/-!
The command line tool: the requests of a run are answered from the files of
the machine, its output and report are written, and its status is returned.
-/

namespace ComponentDocs

namespace Machine

open Files (Kind Request)

/-! ## Errors -/

/-- The code and the text that the machine gives to an error. -/
def codeAndDetails? : IO.Error → Option (UInt32 × String)
  | .alreadyExists _ code details
  | .otherError code details
  | .resourceBusy code details
  | .resourceVanished code details
  | .unsupportedOperation code details
  | .hardwareFault code details
  | .unsatisfiedConstraints code details
  | .illegalOperation code details
  | .protocolError code details
  | .timeExpired code details
  | .interrupted _ code details
  | .noFileOrDirectory _ code details
  | .invalidArgument _ code details
  | .permissionDenied _ code details
  | .resourceExhausted _ code details
  | .inappropriateType _ code details
  | .noSuchThing _ code details => some (code, details)
  | .unexpectedEof => none
  | .userError _ => none

def condition (code : UInt32) : FileCondition :=
  if code = 4 then .interrupted
  else if code = 11 then .wouldBlock
  else if code = 110 then .timedOut
  else .lasting

/-- An error as a failure, with its code after its text. -/
def failure (error : IO.Error) : FileFailure :=
  match codeAndDetails? error with
  | some (code, details) =>
      ⟨condition code,
        details.toList ++ " (os error ".toList ++ Text.ofNat code.toNat ++
          [')']⟩
  | none => ⟨.lasting, (toString error).toList⟩

def notText : FileFailure :=
  ⟨.lasting, "stream did not contain valid UTF-8".toList⟩

/-- The result of an action, or its error as a failure. -/
def attempt {α : Type} (action : IO α) : IO (Except FileFailure α) := do
  match ← EIO.toBaseIO action with
  | .ok result => return .ok result
  | .error error => return .error (failure error)

/-! ## Answers -/

def kind (path : Text) : IO (Option Kind) := do
  let place := System.mkFilePath [String.ofList path]
  if ← place.isDir then return some .directory
  else if ← place.pathExists then return some .file
  else return none

def read (path : Text) : IO (Except FileFailure Text) := do
  match ← attempt (IO.FS.readBinFile (String.ofList path)) with
  | .error trouble => return .error trouble
  | .ok bytes =>
      match String.fromUTF8? bytes with
      | some content => return .ok content.toList
      | none => return .error notText

def ensureDirectory (path : Text) : IO Unit := do
  match ← EIO.toBaseIO (IO.FS.createDir (String.ofList path)) with
  | .ok () => return
  | .error error =>
      if (← kind path) = some .directory then return else throw error

/-- Create a directory with all that lead to it, which are looked at only when
one of them is missing. -/
partial def createDirectories (path : Text) : IO Unit := do
  if path.isEmpty then return
  match ← EIO.toBaseIO (IO.FS.createDir (String.ofList path)) with
  | .error (.noFileOrDirectory name code details) =>
      match Files.Path.parent? path with
      | none => throw (.noFileOrDirectory name code details)
      | some parent =>
          createDirectories parent
          ensureDirectory path
  | .error error =>
      if (← kind path) = some .directory then return else throw error
  | .ok () => return

def list (path : Text) : IO (List Text) := do
  let found ← (System.mkFilePath [String.ofList path]).readDir
  return found.toList.map fun entry => entry.fileName.toList

/-- File systems count their entries with no more bits than these. -/
def directoryBound : Nat := Nat.pow 2 64

def answer : (request : Request) → IO request.Answer
  | .kind path => kind path
  | .read path => read path
  | .write path content =>
      attempt <|
        IO.FS.writeFile (String.ofList path) (String.ofList content)
  | .remove path => attempt (IO.FS.removeFile (String.ofList path))
  | .createDirectories path => attempt (createDirectories path)
  | .rename source target =>
      attempt (IO.FS.rename (String.ofList source) (String.ofList target))
  | .list path => attempt (list path)
  | .directoryBound => return directoryBound

def run {α : Type} : FileTask α → IO α
  | .done result => return result
  | .ask request next => do run (next (← answer request))

/-! ## Surroundings -/

/-- The names of the variables that a run looks at. -/
def variableNames : List Text :=
  [CommandLine.configVariable, CommandLine.formatVariable, "NO_COLOR".toList,
    "CLICOLOR".toList, "CLICOLOR_FORCE".toList, "HOME".toList,
    "XDG_CONFIG_HOME".toList]

/-- The values of these variables, where they are set. -/
def environmentValues : IO (List (Text × Text)) :=
  variableNames.filterMapM fun name => do
    return (← IO.getEnv (String.ofList name)).map fun value =>
      (name, value.toList)

def now : IO Instant := do
  let elapsed := (← Std.Time.Timestamp.now).toDurationSinceUnixEpoch
  let moment :=
    Std.Time.PlainDateTime.ofWallTime (Std.Time.WallTime.ofDuration elapsed)
  return {
    year := moment.date.year.toInt
    month := moment.date.month.toNat
    day := moment.date.day.toNat
    hour := moment.time.hour.toNat
    minute := moment.time.minute.toNat
    second := moment.time.second.toNat
    nanosecond := moment.time.nanosecond.toNat }

end Machine

end ComponentDocs

open ComponentDocs in
/-- Run a command line on the machine. -/
def main (words : List String) : IO UInt32 := do
  let output ← IO.getStdout
  let report ← IO.getStderr
  let environment : CommandLine.Environment :=
    ⟨.other, ← Machine.environmentValues, ← output.isTty⟩
  let outcome ← Machine.run <|
    CommandLine.run environment (words.map String.toList) (← Machine.now)
  output.putStr (String.ofList outcome.output)
  report.putStr (String.ofList outcome.report)
  return outcome.status.toUInt32
