import ComponentDocs.Files.Disk

/-!
Running tasks on a disk that is a value: a task made of two parts runs them one
after another, and a task that only looks leaves the disk as it is.
-/

namespace ComponentDocs.FileTask

open Files

variable {α β : Type}

@[simp]
theorem run_pure (disk : Disk) (result : α) :
    (pure result : FileTask α).run disk = (result, disk) :=
  rfl

@[simp]
theorem run_bind (disk : Disk) (task : FileTask α) (next : α → FileTask β) :
    (task >>= next).run disk =
      (next (task.run disk).1).run (task.run disk).2 := by
  induction task generalizing disk with
  | done result =>
      rfl
  | ask request rest inductionHypothesis =>
      exact inductionHypothesis _ _

/-- A task only looks when it leaves every disk as it is. -/
def OnlyLooks (task : FileTask α) : Prop :=
  ∀ disk : Disk, (task.run disk).2 = disk

namespace OnlyLooks

theorem pure (result : α) : OnlyLooks (Pure.pure result : FileTask α) :=
  fun _ => rfl

theorem bind {task : FileTask α} {next : α → FileTask β}
    (first : OnlyLooks task) (second : ∀ result, OnlyLooks (next result)) :
    OnlyLooks (task >>= next) := by
  intro disk
  rw [run_bind, second, first]

theorem kind (path : Text) : OnlyLooks (FileTask.kind path) :=
  fun _ => rfl

theorem read (path : Text) : OnlyLooks (FileTask.read path) :=
  fun _ => rfl

theorem isFile (path : Text) : OnlyLooks (FileTask.isFile path) :=
  (kind path).bind fun _ => pure _

end OnlyLooks

/-! ## Places that are read -/

/-- The place that a request reads, if it leads anywhere. -/
def readPlace? (disk : Disk) : Request → Option (List Text)
  | .read path => (disk.locate path).toOption
  | _ => none

/-- The places that a task reads on a disk, the first one first. -/
def readPlaces (disk : Disk) : FileTask α → List (List Text)
  | done _ => []
  | ask request next =>
      (readPlace? disk request).toList ++
        readPlaces (disk.answer request).2 (next (disk.answer request).1)

@[simp]
theorem readPlaces_pure (disk : Disk) (result : α) :
    (pure result : FileTask α).readPlaces disk = [] :=
  rfl

@[simp]
theorem readPlaces_bind (disk : Disk) (task : FileTask α)
    (next : α → FileTask β) :
    (task >>= next).readPlaces disk =
      task.readPlaces disk ++
        (next (task.run disk).1).readPlaces (task.run disk).2 := by
  induction task generalizing disk with
  | done result =>
      rfl
  | ask request rest inductionHypothesis =>
      change _ ++ readPlaces _ (rest _ >>= next) = (_ ++ _) ++ _
      rw [inductionHypothesis, List.append_assoc]
      rfl

theorem readPlaces_read (disk : Disk) (path : Text) :
    (read path).readPlaces disk = (disk.locate path).toOption.toList :=
  List.append_nil _

theorem readPlaces_isFile (disk : Disk) (path : Text) :
    (isFile path).readPlaces disk = [] :=
  rfl

end ComponentDocs.FileTask
