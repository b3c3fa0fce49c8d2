import ComponentDocs.Text.Basic

/-!
Switches and positional arguments among the words of a command line.

A switch is written `--name`, or `-n` for those with a letter, and letters may
be joined after one hyphen. A value follows in the same word, after `=` if
wanted, or in the next word, which must not look like a switch. After the word
`--` all words are positional.
-/

namespace ComponentDocs.CommandLine

/-- The switches of all commands together. -/
inductive Switch
  | verbose
  | quiet
  | noColor
  | config
  | format
  | limit
  | output
  | name
deriving DecidableEq, Repr

/-- What a switch of a word stands for. -/
inductive Meaning
  | switch (switch : Switch)
  | help
  | version
deriving DecidableEq, Repr

/-- The reasons to stop before a command runs. -/
inductive Halt
  | help
  | version
  | misuse
deriving DecidableEq, Repr

namespace Switch

def word : Switch → Text
  | verbose => "verbose".toList
  | quiet => "quiet".toList
  | noColor => "no-color".toList
  | config => "config".toList
  | format => "format".toList
  | limit => "limit".toList
  | output => "output".toList
  | name => "name".toList

def letter? : Switch → Option Char
  | verbose => some 'v'
  | quiet => some 'q'
  | format => some 'f'
  | limit => some 'n'
  | output => some 'o'
  | _ => none

def takesValue : Switch → Bool
  | verbose => false
  | quiet => false
  | noColor => false
  | _ => true

def common : List Switch :=
  [verbose, quiet, noColor, config]

end Switch

/-! ## Values -/

/-- The forms of output. -/
inductive Format
  | text
  | json
deriving DecidableEq, Repr

def Format.ofText? (name : Text) : Option Format :=
  if name = "text".toList then some .text
  else if name = "json".toList then some .json
  else none

def greatestLimit : Nat := Nat.pow 2 64 - 1

/-- A limit: digits, which a plus may stand before. -/
def limit? (text : Text) : Option Nat :=
  match Text.toNat? (Text.dropOneStart '+' text) with
  | some value => if value ≤ greatestLimit then some value else none
  | none => none

def Switch.accepts (switch : Switch) (value : Text) : Bool :=
  match switch with
  | config => !value.isEmpty
  | output => !value.isEmpty
  | format => (Format.ofText? value).isSome
  | limit => (limit? value).isSome
  | _ => true

/-! ## Words -/

/-- The words that a command expects: its switches, whether it tells its
version, how many positional words it has at most, and the words that end its
part of the line. -/
structure Level where
  switches : List Switch
  hasVersion : Bool
  capacity : Nat
  stops : List Text

/-- What has been found: switches with their values, which are empty for those
without, and positional words. -/
structure Found where
  given : List (Switch × Text)
  positional : List Text
deriving DecidableEq, Repr

namespace Found

def empty : Found :=
  ⟨[], []⟩

def has (found : Found) (switch : Switch) : Bool :=
  found.given.any fun entry => entry.1 = switch

def value? (found : Found) (switch : Switch) : Option Text :=
  (found.given.find? (fun entry => entry.1 = switch)).map Prod.snd

/-- Add a switch, which must not be there and must take the value. -/
def add (found : Found) (switch : Switch) (value : Text) :
    Except Halt Found :=
  if found.has switch || !switch.accepts value then .error .misuse
  else .ok { found with given := found.given ++ [(switch, value)] }

def addPositional (capacity : Nat) (found : Found) (word : Text) :
    Except Halt Found :=
  if found.positional.length < capacity then
    .ok { found with positional := found.positional ++ [word] }
  else .error .misuse

end Found

namespace Level

/-- What a word after two hyphens stands for. -/
def long? (level : Level) (word : Text) : Option Meaning :=
  if word = "help".toList then some .help
  else if level.hasVersion && word = "version".toList then some .version
  else (level.switches.find? fun switch => switch.word = word).map .switch

def short? (level : Level) (letter : Char) : Option Meaning :=
  if letter = 'h' then some .help
  else if level.hasVersion && letter = 'V' then some .version
  else
    (level.switches.find? fun switch => switch.letter? = some letter).map
      .switch

/-- What has been found after a word, and the switch whose value is in the
next word. -/
abbrev Step := Found × Option Switch

/-- Read a word after its two hyphens. -/
def readLong (level : Level) (found : Found) (body : Text) :
    Except Halt Step :=
  let (word, attached) :=
    match Text.splitOnce '=' body with
    | some (word, value) => (word, some value)
    | none => (body, none)
  match level.long? word with
  | none => .error .misuse
  | some .help =>
      if attached.isSome then .error .misuse else .error .help
  | some .version =>
      if attached.isSome then .error .misuse else .error .version
  | some (.switch switch) =>
      match switch.takesValue, attached with
      | true, some value => return (← found.add switch value, none)
      | true, none => .ok (found, some switch)
      | false, none => return (← found.add switch [], none)
      | false, some _ => .error .misuse

def readLetters (level : Level) (found : Found) : Text → Except Halt Step
  | [] => .ok (found, none)
  | letter :: rest =>
      match level.short? letter with
      | none => .error .misuse
      | some .help => .error .help
      | some .version => .error .version
      | some (.switch switch) =>
          if switch.takesValue then
            match rest with
            | [] => .ok (found, some switch)
            | _ =>
                (found.add switch (Text.dropOneStart '=' rest)).map
                  fun added => (added, none)
          else
            match found.add switch [] with
            | .ok added => readLetters level added rest
            | .error halt => .error halt

def readWord (level : Level) (found : Found) (word : Text) :
    Except Halt Step :=
  match word with
  | '-' :: '-' :: body => level.readLong found body
  | '-' :: letter :: rest => level.readLetters found (letter :: rest)
  | _ => return (← found.addPositional level.capacity word, none)

def looksLikeSwitch : Text → Bool
  | '-' :: _ :: _ => true
  | _ => false

def readAll (level : Level) (found : Found) (words : List Text) :
    Except Halt Found :=
  words.foldlM (Found.addPositional level.capacity) found

/-- Read the words of a level, up to a word that ends it. -/
def read (level : Level) (found : Found) :
    List Text → Except Halt (Found × List Text)
  | [] => .ok (found, [])
  | word :: rest =>
      if level.stops.contains word then .ok (found, word :: rest)
      else if word = "--".toList then
        return (← level.readAll found rest, [])
      else
        match level.readWord found word with
        | .error halt => .error halt
        | .ok (added, none) => read level added rest
        | .ok (added, some switch) =>
            match rest with
            | [] => .error .misuse
            | value :: after =>
                if looksLikeSwitch value then .error .misuse
                else
                  match added.add switch value with
                  | .ok complete => read level complete after
                  | .error halt => .error halt

end Level

end ComponentDocs.CommandLine
