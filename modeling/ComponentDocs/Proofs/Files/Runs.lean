import ComponentDocs.Proofs.Files.Task
import ComponentDocs.Proofs.Files.Write

/-!
What can come of a task when the disk may fail at any request, and the disks
that are seen on the way: one after each request.

The run of a task on a disk is one of these runs, the one where a request fails
only for what the disk holds.
-/

namespace ComponentDocs

namespace Files

/-- A request that changes nothing, whatever its answer. -/
def Request.OnlyLooks : Request → Prop
  | kind _ | read _ | list _ | directoryBound => True
  | write _ _ | remove _ | createDirectories _ | rename _ _ => False

namespace Disk

/-- What can come of a request: the answer of the disk, or a failure of another
cause, such as a full disk or a missing permission. Such a failure leaves the
disk as it is, but a file that was to be written may be left with anything. -/
inductive CanAnswer (disk : Disk) :
    (request : Request) → request.Answer → Disk → Prop
  | usual (request : Request) :
      disk.CanAnswer request (disk.answer request).1 (disk.answer request).2
  | unread (path : Text) (failure : FileFailure) :
      disk.CanAnswer (.read path) (.error failure) disk
  | unlisted (path : Text) (failure : FileFailure) :
      disk.CanAnswer (.list path) (.error failure) disk
  | unwritten (path content : Text) (failure : FileFailure) :
      disk.CanAnswer (.write path content) (.error failure) disk
  | cutShort (path content : Text) (failure : FileFailure)
      {place : List Text} (isTarget : disk.target path = .ok place)
      (left : Content) :
      disk.CanAnswer (.write path content) (.error failure)
        (disk.withFile place left)
  | unremoved (path : Text) (failure : FileFailure) :
      disk.CanAnswer (.remove path) (.error failure) disk
  | unmoved (source target : Text) (failure : FileFailure) :
      disk.CanAnswer (.rename source target) (.error failure) disk

namespace CanAnswer

variable {disk changed : Disk}

/-- A file is written, or it is not and at most its own content is lost. -/
theorem of_write {path content : Text} {outcome : Except FileFailure Unit}
    (answered : disk.CanAnswer (.write path content) outcome changed) :
    (∃ place, disk.target path = .ok place ∧ outcome = .ok () ∧
        changed = disk.withFile place (.text content)) ∨
      ∃ failure, outcome = .error failure ∧
        (changed = disk ∨ ∃ place left, disk.target path = .ok place ∧
          changed = disk.withFile place left) := by
  cases answered with
  | usual =>
      rw [answer, write_eq]
      cases disk.target path with
      | error trouble => exact .inr ⟨_, rfl, .inl rfl⟩
      | ok place => exact .inl ⟨place, rfl, rfl, rfl⟩
  | unwritten _ _ failure =>
      exact .inr ⟨failure, rfl, .inl rfl⟩
  | cutShort _ _ failure isTarget left =>
      exact .inr ⟨failure, rfl, .inr ⟨_, left, isTarget, rfl⟩⟩

/-- A file is removed, or all stays as it is. -/
theorem of_remove {path : Text} {outcome : Except FileFailure Unit}
    (answered : disk.CanAnswer (.remove path) outcome changed) :
    (disk.remove path = .ok changed ∧ outcome = .ok ()) ∨
      ∃ failure, outcome = .error failure ∧ changed = disk := by
  cases answered with
  | usual =>
      rw [answer]
      cases disk.remove path with
      | error trouble => exact .inr ⟨_, rfl, rfl⟩
      | ok removed => exact .inl ⟨rfl, rfl⟩
  | unremoved _ failure =>
      exact .inr ⟨failure, rfl, rfl⟩

/-- A file is moved, or all stays as it is. -/
theorem of_rename {source target : Text} {outcome : Except FileFailure Unit}
    (answered : disk.CanAnswer (.rename source target) outcome changed) :
    (disk.rename source target = .ok changed ∧ outcome = .ok ()) ∨
      ∃ failure, outcome = .error failure ∧ changed = disk := by
  cases answered with
  | usual =>
      rw [answer]
      cases disk.rename source target with
      | error trouble => exact .inr ⟨_, rfl, rfl⟩
      | ok moved => exact .inl ⟨rfl, rfl⟩
  | unmoved _ _ failure =>
      exact .inr ⟨failure, rfl, rfl⟩

theorem eq_of_onlyLooks {request : Request} {outcome : request.Answer}
    (answered : disk.CanAnswer request outcome changed)
    (looks : request.OnlyLooks) : changed = disk := by
  cases answered with
  | usual =>
      cases request with
      | kind path => rfl
      | read path => rfl
      | list path => rfl
      | directoryBound => rfl
      | write path content => cases looks
      | remove path => cases looks
      | createDirectories path => cases looks
      | rename source target => cases looks
  | unread path failure => rfl
  | unlisted path failure => rfl
  | unwritten path content failure => rfl
  | cutShort path content failure isTarget left => cases looks
  | unremoved path failure => rfl
  | unmoved source target failure => rfl

end CanAnswer

end Disk

end Files

namespace FileTask

open Files

variable {α β : Type}

/-- A run of a task: the disk where it starts, the disks after its requests,
its result, and the disk where it ends. -/
inductive Runs : FileTask α → Disk → List Disk → α → Disk → Prop
  | done (result : α) (disk : Disk) : Runs (.done result) disk [] result disk
  | ask {request : Request} {next : request.Answer → FileTask α}
      {answer : request.Answer} {disk middle after : Disk} {seen : List Disk}
      {result : α} (answered : disk.CanAnswer request answer middle)
      (rest : Runs (next answer) middle seen result after) :
      Runs (.ask request next) disk (middle :: seen) result after

namespace Runs

variable {disk after : Disk} {seen : List Disk}

theorem of_pure {value result : α}
    (runs : (pure value : FileTask α).Runs disk seen result after) :
    seen = [] ∧ result = value ∧ after = disk := by
  cases runs
  exact ⟨rfl, rfl, rfl⟩

/-- A run of two tasks is a run of the first and then one of the second. -/
theorem of_bind {task : FileTask α} {next : α → FileTask β} {result : β}
    (runs : (task >>= next).Runs disk seen result after) :
    ∃ first value middle second, task.Runs disk first value middle ∧
      (next value).Runs middle second result after ∧
      seen = first ++ second := by
  induction task generalizing disk seen with
  | done value =>
      exact ⟨[], value, disk, seen, .done value disk, runs, rfl⟩
  | ask request rest inductionHypothesis =>
      cases runs with
      | ask answered runsRest =>
          obtain ⟨first, value, middle, second, runsFirst, runsSecond, rfl⟩ :=
            inductionHypothesis _ runsRest
          exact ⟨_, value, middle, second, .ask answered runsFirst, runsSecond,
            rfl⟩

/-- A run of a single request. -/
theorem of_single {request : Request} {answer : request.Answer}
    (runs : (FileTask.ask request .done).Runs disk seen answer after) :
    disk.CanAnswer request answer after ∧ seen = [after] := by
  cases runs with
  | ask answered rest =>
      cases rest
      exact ⟨answered, rfl⟩

end Runs

/-- The run of a task on a disk that fails for no other cause. -/
theorem exists_runs_run (task : FileTask α) (disk : Disk) :
    ∃ seen, task.Runs disk seen (task.run disk).1 (task.run disk).2 := by
  induction task generalizing disk with
  | done result =>
      exact ⟨[], .done result disk⟩
  | ask request next inductionHypothesis =>
      obtain ⟨seen, runs⟩ := inductionHypothesis (disk.answer request).1
        (disk.answer request).2
      exact ⟨_, .ask (.usual request) runs⟩

/-! ## Tasks that write nothing -/

/-- A task that writes nothing leaves the disk as it is, also on the way. -/
def WritesNothing (task : FileTask α) : Prop :=
  ∀ disk seen result after, task.Runs disk seen result after →
    after = disk ∧ ∀ present ∈ seen, present = disk

namespace WritesNothing

theorem pure (result : α) : WritesNothing (Pure.pure result : FileTask α) := by
  intro disk seen _ after runs
  obtain ⟨rfl, -, rfl⟩ := runs.of_pure
  exact ⟨rfl, by simp⟩

theorem bind {task : FileTask α} {next : α → FileTask β}
    (first : WritesNothing task)
    (second : ∀ result, WritesNothing (next result)) :
    WritesNothing (task >>= next) := by
  intro disk seen result after runs
  obtain ⟨seenFirst, value, middle, seenSecond, runsFirst, runsSecond, rfl⟩ :=
    runs.of_bind
  obtain ⟨rfl, stays⟩ := first _ _ _ _ runsFirst
  obtain ⟨rfl, staysOn⟩ := second value _ _ _ _ runsSecond
  exact ⟨rfl, List.forall_mem_append.mpr ⟨stays, staysOn⟩⟩

theorem single {request : Request} (looks : request.OnlyLooks) :
    WritesNothing (FileTask.ask request .done) := by
  intro disk seen outcome after runs
  obtain ⟨answered, rfl⟩ := Runs.of_single runs
  obtain rfl := answered.eq_of_onlyLooks looks
  exact ⟨rfl, by simp⟩

theorem kind (path : Text) : WritesNothing (FileTask.kind path) :=
  single trivial

theorem read (path : Text) : WritesNothing (FileTask.read path) :=
  single trivial

theorem list (path : Text) : WritesNothing (FileTask.list path) :=
  single trivial

theorem directoryBound : WritesNothing FileTask.directoryBound :=
  single trivial

theorem pathExists (path : Text) : WritesNothing (FileTask.pathExists path) :=
  (kind path).bind fun _ => pure _

theorem isDirectory (path : Text) :
    WritesNothing (FileTask.isDirectory path) :=
  (kind path).bind fun _ => pure _

end WritesNothing

end FileTask

end ComponentDocs
