import ComponentDocs.Failure

/-!
Front matter: the block of `key: value` lines between two `---` lines at the
start of a page.
-/

namespace ComponentDocs.Page

/-- The keys and values of a front matter block. No key occurs twice. -/
structure FrontMatter where
  fields : List (Text × Text)
deriving DecidableEq, Repr

namespace FrontMatter

def empty : FrontMatter :=
  ⟨[]⟩

/-- The fields with `value` under `key`, in the place of an earlier value. -/
def putField (key value : Text) : List (Text × Text) → List (Text × Text)
  | [] => [(key, value)]
  | field :: rest =>
      if field.1 = key then (key, value) :: rest
      else field :: putField key value rest

def put (key value : Text) (front : FrontMatter) : FrontMatter :=
  ⟨putField key value front.fields⟩

/-- The value of a key, unless it is empty. -/
def get? (front : FrontMatter) (key : Text) : Option Text :=
  match front.fields.find? (fun field => field.1 = key) with
  | some (_, value) => if value.isEmpty then none else some value
  | none => none

def size (front : FrontMatter) : Nat :=
  front.fields.length

/-! ## Reading -/

def isMark (line : Text) : Bool :=
  Text.trim line == "---".toList

/-- Whether a value stands between two `quote` marks. -/
def isQuoted (quote : Char) (value : Text) : Bool :=
  2 ≤ value.length && value.head? == some quote &&
    value.getLast? == some quote

/-- The value without one layer of double or single quotes. -/
def unquote (value : Text) : Text :=
  if isQuoted '"' value || isQuoted '\'' value then value.tail.dropLast
  else value

/-- The key and value of a line; blank lines and comments have none. -/
def field? (line : Text) : Option (Text × Text) :=
  let trimmed := Text.trim line
  if trimmed.isEmpty || trimmed.head? == some '#' then none
  else
    match Text.splitOnce ':' trimmed with
    | some (key, value) => some (Text.trim key, unquote (Text.trim value))
    | none => none

def readLine (front : FrontMatter) (line : Text) : FrontMatter :=
  match field? line with
  | some (key, value) => front.put key value
  | none => front

/-- Read the lines up to the closing mark; `none` when there is none. -/
def readLines (front : FrontMatter) :
    List Text → Option (FrontMatter × List Text)
  | [] => none
  | line :: rest =>
      if isMark line then some (front, rest)
      else readLines (front.readLine line) rest

def unterminated : Failure :=
  .parse "front matter is not terminated by '---'".toList

/-- Split a page into its front matter and its body. A page whose first line
is no mark is all body. -/
def read (page : Text) : Except Failure (FrontMatter × Text) :=
  let text := page.dropWhile (· == '\ufeff')
  match Text.linesWithEnds text with
  | first :: rest =>
      if isMark first then
        match readLines empty rest with
        | some (front, body) => .ok (front, body.flatten)
        | none => .error unterminated
      else .ok (empty, text)
  | [] => .ok (empty, text)

end FrontMatter

end ComponentDocs.Page
