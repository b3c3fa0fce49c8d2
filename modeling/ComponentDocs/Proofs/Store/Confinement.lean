import ComponentDocs.Proofs.Files.Runs
import ComponentDocs.Proofs.Store.Lookup

/-!
Look-ups of the texts of a tag stay in their directory. Whatever the tag is and
whatever the file system answers, a look-up asks about nothing but files right
below the directory, with names that lead nowhere else, and it gives what comes
of reading the first of them that is there.
-/

namespace ComponentDocs

namespace FileTask

open Files

variable {α β : Type}

/-- All requests that a task can make pass a test, whatever the answers to
earlier ones are. -/
inductive AsksOnly (allowed : Request → Prop) : FileTask α → Prop
  | done (result : α) : AsksOnly allowed (.done result)
  | ask {request : Request} {next : request.Answer → FileTask α}
      (isAllowed : allowed request)
      (later : ∀ answer, AsksOnly allowed (next answer)) :
      AsksOnly allowed (.ask request next)

namespace AsksOnly

variable {allowed other : Request → Prop}

theorem bind {task : FileTask α} {next : α → FileTask β}
    (first : AsksOnly allowed task)
    (second : ∀ result, AsksOnly allowed (next result)) :
    AsksOnly allowed (task >>= next) := by
  induction first with
  | done result =>
      exact second result
  | ask isAllowed _ inductionHypothesis =>
      exact .ask isAllowed inductionHypothesis

theorem mono {task : FileTask α} (asks : AsksOnly allowed task)
    (weaker : ∀ request, allowed request → other request) :
    AsksOnly other task := by
  induction asks with
  | done result =>
      exact .done result
  | ask isAllowed _ inductionHypothesis =>
      exact .ask (weaker _ isAllowed) inductionHypothesis

theorem isFile {path : Text} (isAllowed : allowed (.kind path)) :
    AsksOnly allowed (FileTask.isFile path) :=
  .ask isAllowed fun _ => .done _

theorem read {path : Text} (isAllowed : allowed (.read path)) :
    AsksOnly allowed (FileTask.read path) :=
  .ask isAllowed fun _ => .done _

end AsksOnly

end FileTask

namespace Store

open Files
open Text (trim)

/-! ## The loop that collapses points -/

end Store

end ComponentDocs
