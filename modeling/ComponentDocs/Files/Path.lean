import ComponentDocs.Text.Basic

/-!
The text of paths. Names are separated by slashes; a path that starts with one
is absolute. A name `.` and doubled slashes lead nowhere.
-/

namespace ComponentDocs.Files.Path

def isAbsolute (path : Text) : Bool :=
  path.head? == some '/'

/-- A path below a base: an absolute path stands for itself. -/
def join (base path : Text) : Text :=
  if isAbsolute path then path
  else if base.isEmpty || base.getLast? == some '/' then base ++ path
  else base ++ '/' :: path

/-- Drop what leads nowhere at the end of a path without its root, which is
given last character first. A lone `.` counts as a name unless it follows the
root. -/
def trimTail (afterRoot : Bool) : Text → Text
  | [] => []
  | '/' :: rest => trimTail afterRoot rest
  | ['.'] => if afterRoot then [] else ['.']
  | '.' :: '/' :: rest => trimTail afterRoot rest
  | reversed => reversed

/-- The part before the last name of a path without its root. -/
def parentBody? (afterRoot : Bool) (body : Text) : Option Text :=
  match trimTail afterRoot body.reverse with
  | [] => none
  | reversed =>
      some (trimTail afterRoot (reversed.dropWhile (· != '/'))).reverse

/-- The path without its last name; the root and the empty path have none. -/
def parent? : Text → Option Text
  | '/' :: body => (parentBody? true body).map ('/' :: ·)
  | body => parentBody? false body

/-- The steps of a path, one for each piece between slashes. -/
def steps (path : Text) : List Text :=
  path.splitOn '/'

/-! ## File names -/

/-- The part of a file name before its last point and the part after it, if
there is a point that is not the first character. -/
def splitName (name : Text) : Text × Option Text :=
  let reversed := name.reverse
  let extension := reversed.takeWhile (· != '.')
  match reversed.dropWhile (· != '.') with
  | '.' :: first :: rest =>
      ((first :: rest).reverse, some extension.reverse)
  | _ => (name, none)

def stem (name : Text) : Text :=
  (splitName name).1

/-- The part of a file name after its last point. -/
def extension? (name : Text) : Option Text :=
  (splitName name).2

end ComponentDocs.Files.Path
