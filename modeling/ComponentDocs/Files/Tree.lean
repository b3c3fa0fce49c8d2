import ComponentDocs.Text.Basic

/-!
Trees of directories and files.
-/

namespace ComponentDocs

/-- A file with its content, or a directory with its entries in the order of
its listing. -/
inductive FileTree (α : Type)
  | file (content : α)
  | directory (entries : List (Text × FileTree α))

namespace FileTree

variable {α : Type}

def child? (name : Text) (entries : List (Text × FileTree α)) :
    Option (FileTree α) :=
  (entries.find? (fun entry => entry.1 == name)).map Prod.snd

def putEntry (name : Text) (tree : FileTree α) :
    List (Text × FileTree α) → List (Text × FileTree α)
  | [] => [(name, tree)]
  | entry :: rest =>
      if entry.1 = name then (name, tree) :: rest
      else entry :: putEntry name tree rest

def dropEntry (name : Text) (entries : List (Text × FileTree α)) :
    List (Text × FileTree α) :=
  entries.filter fun entry => entry.1 != name

/-- What is at a place, named from the top of the tree down. -/
def at? : FileTree α → List Text → Option (FileTree α)
  | tree, [] => some tree
  | directory entries, name :: rest =>
      match child? name entries with
      | some inner => at? inner rest
      | none => none
  | file _, _ :: _ => none

/-- Put a new tree at a place whose directory exists. -/
def put : FileTree α → List Text → FileTree α → FileTree α
  | _, [], new => new
  | directory entries, [name], new => directory (putEntry name new entries)
  | directory entries, name :: rest, new =>
      match child? name entries with
      | some inner => directory (putEntry name (put inner rest new) entries)
      | none => directory entries
  | file content, _ :: _, _ => file content

/-- Remove what is at a place below the top. -/
def remove : FileTree α → List Text → FileTree α
  | directory entries, [name] => directory (dropEntry name entries)
  | directory entries, name :: rest =>
      match child? name entries with
      | some inner => directory (putEntry name (remove inner rest) entries)
      | none => directory entries
  | tree, _ => tree

/-- Put a new tree at a place, with all directories that lead to it. -/
def plant : FileTree α → List Text → FileTree α → FileTree α
  | _, [], new => new
  | directory entries, name :: rest, new =>
      let inner := (child? name entries).getD (directory [])
      directory (putEntry name (plant inner rest new) entries)
  | file content, _ :: _, _ => file content

mutual

/-- The number of directories in a tree, its top among them. -/
def directoryCount : FileTree α → Nat
  | file _ => 0
  | directory entries => entryDirectoryCount entries + 1

def entryDirectoryCount : List (Text × FileTree α) → Nat
  | [] => 0
  | (_, tree) :: rest => directoryCount tree + entryDirectoryCount rest

end

mutual

/-- The places of all files in a tree that is at the place `here`. -/
def filesFrom (here : List Text) : FileTree α → List (List Text)
  | file _ => [here]
  | directory entries => entryFilesFrom here entries

def entryFilesFrom (here : List Text) :
    List (Text × FileTree α) → List (List Text)
  | [] => []
  | (name, tree) :: rest =>
      filesFrom (here ++ [name]) tree ++ entryFilesFrom here rest

end

/-- The places of all files in a tree, from its top down. -/
def files (tree : FileTree α) : List (List Text) :=
  filesFrom [] tree

end FileTree

end ComponentDocs
