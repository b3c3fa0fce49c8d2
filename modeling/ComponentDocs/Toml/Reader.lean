import ComponentDocs.Toml.Document
import ComponentDocs.Toml.Moment
import ComponentDocs.Toml.Number
import ComponentDocs.Toml.Quoted

/-!
Reading TOML documents.

Each step of the reader takes one unit of fuel. A document is read with more
fuel than it has characters, so that the fuel never runs out first.
-/

namespace ComponentDocs.Toml

/-! ## Keys -/

/-- Whether a character may stand in a key without quotes. -/
def isBare (character : Char) : Bool :=
  character.isAlphanum || character == '_' || character == '-'

/-- The name at the start of a text, with or without quotes. -/
def name? (text : Text) : Option (Text × Text) :=
  match text with
  | [] => none
  | first :: _ =>
      if first = '"' || first = '\'' then Quoted.readKey? text
      else if isBare first then
        some (text.takeWhile isBare, text.dropWhile isBare)
      else none

/-- The greatest number of names in a key and of levels in a value. -/
def greatestDepth : Nat := 79

/-- The names of a dotted key, with blanks around each of them. -/
def names? : Nat → Text → Option (List Text × Text)
  | 0, _ => none
  | fuel + 1, text => do
      let (name, after) ← name? (skipSpaces text)
      match skipSpaces after with
      | '.' :: rest =>
          let (names, remaining) ← names? fuel rest
          return (name :: names, remaining)
      | rest => return ([name], rest)

/-- A dotted key: the names before the last, the last, and the rest. -/
def key? (fuel : Nat) (text : Text) : Option (List Text × Text × Text) := do
  let (names, rest) ← names? fuel text
  let last ← names.getLast?
  if names.length ≤ greatestDepth then some (names.dropLast, last, rest)
  else none

/-! ## Values -/

/-- The truth value that a word names. -/
def boolean? (text : Text) : Option (Bool × Text) :=
  ((Text.withoutStart? "true".toList text).map fun rest => (true, rest)).or
    ((Text.withoutStart? "false".toList text).map fun rest => (false, rest))

def before (text rest : Text) : Text :=
  text.take (text.length - rest.length)

/-- The truth value, point of time or number at the start of a text. -/
def scalar? (text : Text) : Option (Value × Text) :=
  match boolean? text, Moment.after? text, Number.after? text with
  | some (value, rest), _, _ => some (.boolean value, rest)
  | none, some rest, _ => some (.moment (before text rest), rest)
  | none, none, some rest => some (.number (before text rest), rest)
  | none, none, none => none

mutual

/-- The value at the start of a text, with at most `levels` levels. -/
def readValue? (levels : Nat) : Nat → Text → Option (Value × Text)
  | 0, _ => none
  | fuel + 1, text =>
      match text with
      | [] => none
      | first :: rest =>
          if first = '"' || first = '\'' then
            (Quoted.read? text).map fun (content, after) =>
              (.text content, after)
          else if first = '[' then
            if levels = 0 then none
            else
              (readItems? (levels - 1) fuel rest).map fun (items, after) =>
                (.array items, after)
          else if first = '\x7b' then
            if levels = 0 then none
            else
              (readPairs? (levels - 1) fuel rest).map fun (entries, after) =>
                (.table (Item.tableEntries entries), after)
          else scalar? text

def readItems? (levels : Nat) : Nat → Text → Option (List Value × Text)
  | 0, _ => none
  | fuel + 1, text =>
      match skipGap false text with
      | ']' :: rest => some ([], rest)
      | start =>
          match readValue? levels fuel start with
          | none => none
          | some (item, after) =>
              match skipGap false after with
              | ']' :: rest => some ([item], rest)
              | ',' :: rest =>
                  (readItems? levels fuel rest).map fun (items, remaining) =>
                    (item :: items, remaining)
              | _ => none

/-- The pairs of a table in one line up to the closing brace. -/
def readPairs? (levels : Nat) : Nat → Text → Option (Entries × Text)
  | 0, _ => none
  | fuel + 1, text =>
      match skipSpaces text with
      | '\x7d' :: rest => some ([], rest)
      | start => readMorePairs? levels fuel [] start

/-- At least one pair, added to the entries so far. -/
def readMorePairs? (levels : Nat) :
    Nat → Entries → Text → Option (Entries × Text)
  | 0, _, _ => none
  | fuel + 1, entries, text =>
      match key? fuel text with
      | some (path, key, '=' :: afterKey) =>
          match readValue? levels fuel (skipSpaces afterKey) with
          | none => none
          | some (value, after) =>
              match entries.addDotted path key value with
              | none => none
              | some added =>
                  match skipSpaces after with
                  | '\x7d' :: rest => some (added, rest)
                  | ',' :: rest => readMorePairs? levels fuel added rest
                  | _ => none
      | _ => none

end

/-! ## Documents -/

/-- A document so far: all of its tables and the header of the open one. -/
structure Progress where
  entries : Entries
  header : List Text

/-- Read the header of a table after its opening bracket. -/
def readHeader? (fuel : Nat) (progress : Progress) (text : Text) :
    Option (Progress × Text) := do
  let (path, key, after) ← key? fuel text
  let entries ← progress.entries.openTable path key
  match after with
  | ']' :: rest => return (⟨entries, path ++ [key]⟩, ← finishLine? rest)
  | _ => none

/-- Read the header of a row after its opening brackets. -/
def readRowHeader? (fuel : Nat) (progress : Progress) (text : Text) :
    Option (Progress × Text) := do
  let (path, key, after) ← key? fuel text
  let entries ← progress.entries.openRow path key
  match after with
  | ']' :: ']' :: rest => return (⟨entries, path ++ [key]⟩, ← finishLine? rest)
  | _ => none

def readPair? (fuel : Nat) (progress : Progress) (text : Text) :
    Option (Progress × Text) := do
  let (path, key, after) ← key? fuel text
  match after with
  | '=' :: afterKey =>
      let (value, rest) ←
        readValue? greatestDepth fuel (skipSpaces afterKey)
      let entries ← progress.entries.addUnder progress.header path key value
      return ({ progress with entries }, ← finishLine? rest)
  | _ => none

def readLines? : Nat → Progress → Text → Option Progress
  | 0, _, _ => none
  | fuel + 1, progress, text =>
      match skipSpaces text with
      | [] => some progress
      | '[' :: '[' :: rest =>
          match readRowHeader? (fuel + 1) progress rest with
          | some (changed, after) => readLines? fuel changed after
          | none => none
      | '[' :: rest =>
          match readHeader? (fuel + 1) progress rest with
          | some (changed, after) => readLines? fuel changed after
          | none => none
      | first :: rest =>
          if first = '#' || first = '\n' || first = '\r' then
            match finishLine? (first :: rest) with
            | some after => readLines? fuel progress after
            | none => none
          else
            match readPair? (fuel + 1) progress (first :: rest) with
            | some (changed, after) => readLines? fuel changed after
            | none => none

/-- The table that a document writes. A byte order mark may come first. -/
def read? (text : Text) : Option (List (Text × Value)) :=
  let body := Text.dropOneStart '\ufeff' text
  (readLines? (3 * body.length + 3) ⟨[], []⟩ body).map fun progress =>
    Item.tableEntries progress.entries

end ComponentDocs.Toml
