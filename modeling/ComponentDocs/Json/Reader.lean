import ComponentDocs.Json.Literal
import ComponentDocs.Json.Quoted

/-!
Reading JSON text.

Each step of the reader takes one unit of fuel. A text is read with more fuel
than it has characters, so that the fuel never runs out first.
-/

namespace ComponentDocs.Json

/-- Whether a character may stand between tokens. -/
def isSpace (character : Char) : Bool :=
  character == ' ' || character == '\t' || character == '\n' ||
    character == '\r'

def skipSpaces (text : Text) : Text :=
  text.dropWhile isSpace

def word? (text : Text) : Option (Json × Text) :=
  if "null".toList.isPrefixOf text then some (.null, text.drop 4)
  else if "true".toList.isPrefixOf text then some (.bool true, text.drop 4)
  else if "false".toList.isPrefixOf text then some (.bool false, text.drop 5)
  else none

/-- The word or number at the start of a text. -/
def scalar? (text : Text) : Option (Json × Text) :=
  (word? text).or <|
    (Literal.read? text).map fun (literal, rest) => (.number literal, rest)

/-- The key at the start of a text with its colon. -/
def readKey? (text : Text) : Option (Option Text × Text) :=
  match skipSpaces text with
  | '"' :: rest =>
      match Quoted.read? rest with
      | some (content, after) =>
          match skipSpaces after with
          | ':' :: value => some (content, value)
          | _ => none
      | none => none
  | _ => none

mutual

def readValue? : Nat → Text → Option (Json × Text)
  | 0, _ => none
  | fuel + 1, text =>
      match skipSpaces text with
      | [] => none
      | first :: rest =>
          if first = '"' then
            (Quoted.read? rest).map fun (content, after) =>
              (.string content, after)
          else if first = '[' then
            (readItems? fuel rest).map fun (items, after) =>
              (.array items, after)
          else if first = '\x7b' then
            (readFields? fuel rest).map fun (fields, after) =>
              (.object fields, after)
          else scalar? (first :: rest)

/-- The items after an opening bracket, up to the closing one. -/
def readItems? : Nat → Text → Option (List Json × Text)
  | 0, _ => none
  | fuel + 1, text =>
      match skipSpaces text with
      | ']' :: rest => some ([], rest)
      | start => readMoreItems? fuel start

/-- At least one item, up to the closing bracket. -/
def readMoreItems? : Nat → Text → Option (List Json × Text)
  | 0, _ => none
  | fuel + 1, text =>
      match readValue? fuel text with
      | none => none
      | some (item, after) =>
          match skipSpaces after with
          | ']' :: rest => some ([item], rest)
          | ',' :: rest =>
              (readMoreItems? fuel rest).map fun (items, remaining) =>
                (item :: items, remaining)
          | _ => none

/-- The fields after an opening brace, up to the closing one. -/
def readFields? : Nat → Text → Option (List (Option Text × Json) × Text)
  | 0, _ => none
  | fuel + 1, text =>
      match skipSpaces text with
      | '\x7d' :: rest => some ([], rest)
      | start => readMoreFields? fuel start

/-- At least one field, up to the closing brace. -/
def readMoreFields? :
    Nat → Text → Option (List (Option Text × Json) × Text)
  | 0, _ => none
  | fuel + 1, text =>
      match readKey? text with
      | none => none
      | some (key, afterKey) =>
          match readValue? fuel afterKey with
          | none => none
          | some (value, after) =>
              match skipSpaces after with
              | '\x7d' :: rest => some ([(key, value)], rest)
              | ',' :: rest =>
                  (readMoreFields? fuel rest).map fun (fields, remaining) =>
                    ((key, value) :: fields, remaining)
              | _ => none

end

def read? (text : Text) : Option Json :=
  match readValue? (3 * text.length + 3) text with
  | some (value, rest) =>
      if (skipSpaces rest).isEmpty then some value else none
  | none => none

end ComponentDocs.Json
