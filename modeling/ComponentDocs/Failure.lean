import ComponentDocs.Text.Basic

/-!
Everything that can go wrong, with its category and its message.
-/

namespace ComponentDocs

/-- The conditions of a failed file operation that a retry may mend, and all
the others. -/
inductive FileCondition
  | timedOut
  | interrupted
  | wouldBlock
  | lasting
deriving DecidableEq, Repr

/-- A failed file operation. -/
structure FileFailure where
  condition : FileCondition
  message : Text
deriving DecidableEq, Repr

/-- A failure, by the task that failed. -/
inductive Failure
  | file (failure : FileFailure)
  | parse (reason : Text)
  | malformedSection (name reason : Text)
  | notFound (what : Text)
  | storage (reason : Text)
  | config (reason : Text)
  | serialization (reason : Text)
  | other (reason : Text)
deriving DecidableEq, Repr

namespace Failure

def category : Failure → Text
  | file _ => "io".toList
  | parse _ => "parse".toList
  | malformedSection _ _ => "malformed_section".toList
  | notFound _ => "not_found".toList
  | storage _ => "storage".toList
  | config _ => "config".toList
  | serialization _ => "serialization".toList
  | other _ => "other".toList

def message : Failure → Text
  | file failure => "IO error: ".toList ++ failure.message
  | parse reason => "Parse error: ".toList ++ reason
  | malformedSection name reason =>
      "Malformed section '".toList ++ name ++ "': ".toList ++ reason
  | notFound what => "Not found: ".toList ++ what
  | storage reason => "Storage error: ".toList ++ reason
  | config reason => "Configuration error: ".toList ++ reason
  | serialization reason => "Serialization error: ".toList ++ reason
  | other reason => reason

def isRecoverable : Failure → Bool
  | file ⟨.lasting, _⟩ => false
  | file _ => true
  | _ => false

end Failure

end ComponentDocs
