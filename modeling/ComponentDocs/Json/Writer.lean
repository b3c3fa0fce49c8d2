import ComponentDocs.Json.Basic
import ComponentDocs.Json.Quoted

/-!
Writing JSON text: without any space, or over indented lines.
-/

namespace ComponentDocs.Json

/-- A string or key; one without content is written as an empty one. -/
def writeString (content : Option Text) : Text :=
  Quoted.write (content.getD [])

/-! ## Without spaces -/

mutual

def compact : Json → Text
  | null => "null".toList
  | bool true => "true".toList
  | bool false => "false".toList
  | number literal => literal
  | string content => writeString content
  | array items => '[' :: compactItems items
  | object fields => '\x7b' :: compactFields fields

def compactItems : List Json → Text
  | [] => [']']
  | [item] => compact item ++ [']']
  | item :: items => compact item ++ ',' :: compactItems items

def compactFields : List (Option Text × Json) → Text
  | [] => ['\x7d']
  | [(key, value)] => writeString key ++ ':' :: compact value ++ ['\x7d']
  | (key, value) :: fields =>
      writeString key ++ ':' :: compact value ++ ',' :: compactFields fields

end

/-! ## Over lines -/

/-- A new line at a depth, indented by two blanks for each level. -/
def newLine (depth : Nat) : Text :=
  '\n' :: List.replicate (2 * depth) ' '

mutual

/-- The text of a value over lines, of which the first starts at `depth`. -/
def prettyAt (depth : Nat) : Json → Text
  | null => "null".toList
  | bool true => "true".toList
  | bool false => "false".toList
  | number literal => literal
  | string content => writeString content
  | array [] => "[]".toList
  | array (item :: items) => '[' :: prettyItems depth (item :: items)
  | object [] => "\x7b\x7d".toList
  | object (field :: fields) => '\x7b' :: prettyFields depth (field :: fields)

/-- The items, each on new lines, up to the closing bracket. -/
def prettyItems (depth : Nat) : List Json → Text
  | [] => newLine depth ++ [']']
  | [item] =>
      newLine (depth + 1) ++ prettyAt (depth + 1) item ++
        newLine depth ++ [']']
  | item :: items =>
      newLine (depth + 1) ++ prettyAt (depth + 1) item ++
        ',' :: prettyItems depth items

/-- The fields, each on new lines, up to the closing brace. -/
def prettyFields (depth : Nat) : List (Option Text × Json) → Text
  | [] => newLine depth ++ ['\x7d']
  | [(key, value)] =>
      newLine (depth + 1) ++ writeString key ++ ':' :: ' ' ::
        prettyAt (depth + 1) value ++ newLine depth ++ ['\x7d']
  | (key, value) :: fields =>
      newLine (depth + 1) ++ writeString key ++ ':' :: ' ' ::
        prettyAt (depth + 1) value ++ ',' :: prettyFields depth fields

end

def pretty (json : Json) : Text :=
  prettyAt 0 json

end ComponentDocs.Json
