import ComponentDocs.Failure

/-!
Tasks on files: a task is a result, or a request and what to do with its
answer. Who answers the requests is left open.
-/

namespace ComponentDocs

/-- The systems that tasks tell apart. -/
inductive Platform
  | windows
  | other
deriving DecidableEq, Repr

namespace Files

/-- What a path leads to. -/
inductive Kind
  | file
  | directory
deriving DecidableEq, Repr

/-- One request to a file system. -/
inductive Request
  /-- What is at a path, if anything. -/
  | kind (path : Text)
  /-- The text of a file. -/
  | read (path : Text)
  /-- Make a text the content of a file, which need not exist. -/
  | write (path content : Text)
  /-- Remove a file. -/
  | remove (path : Text)
  /-- Create a directory with all that lead to it. -/
  | createDirectories (path : Text)
  /-- Move a file, in the place of what is at the target. -/
  | rename (source target : Text)
  /-- The names of the entries of a directory. -/
  | list (path : Text)
  /-- A number that is not exceeded by that of all directories. -/
  | directoryBound
deriving DecidableEq, Repr

def Request.Answer : Request → Type
  | kind _ => Option Kind
  | read _ => Except FileFailure Text
  | write _ _ => Except FileFailure Unit
  | remove _ => Except FileFailure Unit
  | createDirectories _ => Except FileFailure Unit
  | rename _ _ => Except FileFailure Unit
  | list _ => Except FileFailure (List Text)
  | directoryBound => Nat

end Files

open Files

/-- A task with a result. -/
inductive FileTask (α : Type)
  | done (result : α)
  | ask (request : Request) (next : request.Answer → FileTask α)

namespace FileTask

variable {α β : Type}

def andThen (next : α → FileTask β) : FileTask α → FileTask β
  | done result => next result
  | ask request rest => .ask request fun answer => andThen next (rest answer)

instance : Monad FileTask where
  pure := done
  bind task next := andThen next task

/-! ## Single requests -/

def kind (path : Text) : FileTask (Option Kind) :=
  .ask (.kind path) .done

def read (path : Text) : FileTask (Except FileFailure Text) :=
  .ask (.read path) .done

def write (path content : Text) : FileTask (Except FileFailure Unit) :=
  .ask (.write path content) .done

def remove (path : Text) : FileTask (Except FileFailure Unit) :=
  .ask (.remove path) .done

def createDirectories (path : Text) : FileTask (Except FileFailure Unit) :=
  .ask (.createDirectories path) .done

def rename (source target : Text) : FileTask (Except FileFailure Unit) :=
  .ask (.rename source target) .done

def list (path : Text) : FileTask (Except FileFailure (List Text)) :=
  .ask (.list path) .done

def directoryBound : FileTask Nat :=
  .ask .directoryBound .done

def pathExists (path : Text) : FileTask Bool :=
  return (← kind path).isSome

def isFile (path : Text) : FileTask Bool :=
  return (← kind path) == some .file

def isDirectory (path : Text) : FileTask Bool :=
  return (← kind path) == some .directory

end FileTask

end ComponentDocs
