import ComponentDocs.Files.Disk
import ComponentDocs.Proofs.Files.Tree

/-!
Following paths on a disk: a path joined to the path of a directory leads from
that directory on, so that a file of a proper tree is read at its place.
-/

namespace ComponentDocs.Files

/-! ## Joined paths -/

theorem Path.isAbsolute_of_isEntryName {name : Text}
    (proper : FileTree.IsEntryName name) : isAbsolute name = false := by
  cases name with
  | nil =>
      rfl
  | cons first rest =>
      have notSlash : first ≠ '/' := fun equality =>
        proper.unslashed (by simp [equality])
      simpa [isAbsolute] using notSlash

theorem Path.steps_append_slash (before after : Text) :
    steps (before ++ '/' :: after) = steps before ++ steps after :=
  List.splitOn_append_cons_self before after

theorem Path.steps_of_isEntryName {name : Text}
    (proper : FileTree.IsEntryName name) : steps name = [name] :=
  List.splitOn_eq_singleton proper.unslashed

/-- The steps of a path that lead to a name joined to it: all of them, but not
the empty one after a last slash. -/
def Path.stepsTo (base : Text) : List Text :=
  if base.isEmpty || base.getLast? == some '/' then (steps base).dropLast
  else steps base

theorem Path.stepsTo_concat_slash (before : Text) :
    stepsTo (before ++ ['/']) = steps before := by
  have empty : steps [] = [[]] := rfl
  simp [stepsTo, steps_append_slash, empty]

theorem Path.steps_join (base : Text) {name : Text}
    (proper : FileTree.IsEntryName name) :
    steps (join base name) = stepsTo base ++ [name] := by
  rw [join, isAbsolute_of_isEntryName proper]
  by_cases empty : base = []
  · subst empty
    exact steps_of_isEntryName proper
  by_cases ends : base.getLast? = some '/'
  · obtain ⟨before, rfl⟩ := List.getLast?_eq_some_iff.mp ends
    simp [stepsTo_concat_slash, steps_append_slash, steps_of_isEntryName proper]
  · simp [stepsTo, empty, ends, steps_append_slash,
      steps_of_isEntryName proper]

theorem Path.join_ne_nil (base : Text) {name : Text}
    (proper : FileTree.IsEntryName name) : join base name ≠ [] := by
  intro empty
  have lastSteps := congrArg List.getLast? (steps_join base proper)
  rw [empty, List.getLast?_concat] at lastSteps
  exact proper.nonempty (Option.some.inj lastSteps).symm

namespace Disk

/-! ## Following steps -/

theorem at?_append (disk : Disk) (first second : List Text) :
    disk.at? (first ++ second) =
      (disk.at? first).bind (FileTree.at? · second) :=
  FileTree.at?_append disk.root first second

/-- Steps are followed one part after the other. -/
theorem follow_append (disk : Disk) (here first second : List Text) :
    disk.follow here (first ++ second) =
      (disk.follow here first).bind (disk.follow · second) := by
  induction first generalizing here with
  | nil =>
      rw [List.nil_append, follow]
      cases found : disk.at? here with
      | some tree =>
          rfl
      | none =>
          cases second <;> simp [follow, found, Except.bind]
  | cons step rest inductionHypothesis =>
      rw [List.cons_append, follow, follow]
      split
      · rfl
      · rfl
      · split
        · exact inductionHypothesis here
        · split
          · exact inductionHypothesis here.dropLast
          · exact inductionHypothesis (here ++ [step])

theorem eq_of_follow_nil {disk : Disk} {here place : List Text}
    (leads : disk.follow here [] = .ok place) : place = here := by
  rw [follow] at leads
  split at leads
  · exact (Except.ok.inj leads).symm
  · cases leads

/-- An empty step stays where it is. -/
theorem eq_of_follow_empty {disk : Disk} {here place : List Text}
    (leads : disk.follow here [[]] = .ok place) : place = here := by
  rw [follow] at leads
  split at leads
  · cases leads
  · cases leads
  · exact eq_of_follow_nil leads

theorem staysHere_of_isEntryName {name : Text}
    (proper : FileTree.IsEntryName name) : staysHere name = false := by
  simp [staysHere, proper.nonempty, proper.notHere]

theorem leadsUp_of_isEntryName {name : Text}
    (proper : FileTree.IsEntryName name) : leadsUp name = false := by
  simp [leadsUp, proper.notUp]

/-- A name leads from a directory to the entry of that name, if there is
one. -/
theorem follow_step {disk : Disk} {here : List Text} {name : Text}
    {entries : List (Text × FileTree Content)}
    (isDirectory : disk.at? here = some (.directory entries))
    (moves : staysHere name = false) (down : leadsUp name = false) :
    disk.follow here [name] =
      if (disk.at? (here ++ [name])).isSome then .ok (here ++ [name])
      else .error .noEntry := by
  simp [follow, isDirectory, moves, down]

theorem follow_name {disk : Disk} {here : List Text} {name : Text}
    {entries : List (Text × FileTree Content)}
    (isDirectory : disk.at? here = some (.directory entries))
    (proper : FileTree.IsEntryName name) :
    disk.follow here [name] =
      if (disk.at? (here ++ [name])).isSome then .ok (here ++ [name])
      else .error .noEntry :=
  follow_step isDirectory (staysHere_of_isEntryName proper)
    (leadsUp_of_isEntryName proper)

/-! ## Paths below a directory -/

theorem start_join (disk : Disk) (base : Text) {name : Text}
    (proper : FileTree.IsEntryName name) :
    disk.start (Path.join base name) = disk.start base := by
  have relative := Path.isAbsolute_of_isEntryName proper
  cases base with
  | nil =>
      have itself : Path.join [] name = name := by
        rw [Path.join, relative]
        rfl
      rw [itself, start, start, relative]
      rfl
  | cons first rest =>
      have sameHead : (Path.join (first :: rest) name).head? = some first := by
        rw [Path.join, relative]
        simp only [Bool.false_eq_true, if_false]
        split <;> rfl
      rw [start, start, Path.isAbsolute, sameHead]
      rfl

/-- What the path of a directory leads to is where the steps to its entries
lead. -/
theorem follow_stepsTo {disk : Disk} {base : Text} {here : List Text}
    (leads : disk.locate base = .ok here) :
    disk.follow (disk.start base) (Path.stepsTo base) = .ok here := by
  have nonempty : base ≠ [] := by
    rintro rfl
    simp [locate] at leads
  have followed :
      disk.follow (disk.start base) (Path.steps base) = .ok here := by
    simpa [locate, nonempty] using leads
  by_cases ends : base.getLast? = some '/'
  · obtain ⟨before, rfl⟩ := List.getLast?_eq_some_iff.mp ends
    rw [Path.stepsTo_concat_slash]
    -- Nothing follows the last slash, which leads nowhere else.
    rw [Path.steps_append_slash, follow_append] at followed
    cases reached : disk.follow (disk.start (before ++ ['/']))
        (Path.steps before) with
    | error trouble =>
        rw [reached] at followed
        cases followed
    | ok middle =>
        rw [reached] at followed
        rw [eq_of_follow_empty followed]
  · have whole : Path.stepsTo base = Path.steps base := by
      simp [Path.stepsTo, nonempty, ends]
    rw [whole, followed]

/-- A path to something is a path to its directory with its name. -/
theorem exists_of_locate_join {disk : Disk} {base name : Text}
    {place : List Text} (proper : FileTree.IsEntryName name)
    (leads : disk.locate (Path.join base name) = .ok place) :
    ∃ parent,
      disk.follow (disk.start base) (Path.stepsTo base) = .ok parent ∧
        place = parent ++ [name] := by
  rw [locate, if_neg (by simp [Path.join_ne_nil base proper]),
    start_join disk base proper, Path.steps_join base proper,
    follow_append] at leads
  cases reached : disk.follow (disk.start base) (Path.stepsTo base) with
  | error trouble =>
      rw [reached] at leads
      cases leads
  | ok parent =>
      rw [reached] at leads
      refine ⟨parent, rfl, ?_⟩
      change disk.follow parent [name] = .ok place at leads
      rw [follow, staysHere_of_isEntryName proper,
        leadsUp_of_isEntryName proper] at leads
      split at leads
      · cases leads
      · cases leads
      · exact eq_of_follow_nil leads

/-- Different names in one directory are different places. -/
theorem eq_of_locate_join {disk : Disk} {base name other : Text}
    {place : List Text} (proper : FileTree.IsEntryName name)
    (properOther : FileTree.IsEntryName other)
    (leads : disk.locate (Path.join base name) = .ok place)
    (leadsOther : disk.locate (Path.join base other) = .ok place) :
    name = other := by
  obtain ⟨parent, reached, rfl⟩ := exists_of_locate_join proper leads
  obtain ⟨same, reachedToo, split⟩ :=
    exists_of_locate_join properOther leadsOther
  obtain rfl : parent = same := Except.ok.inj (reached.symm.trans reachedToo)
  exact List.singleton_inj.mp (List.append_cancel_left split)

section Join

variable {disk : Disk} {base name : Text} {here : List Text}
variable {entries : List (Text × FileTree Content)}
variable
  (leads : disk.follow (disk.start base) (Path.stepsTo base) = .ok here)
variable (isDirectory : disk.at? here = some (.directory entries))
variable (proper : FileTree.IsEntryName name)

include leads isDirectory proper

theorem locate_join_eq :
    disk.locate (Path.join base name) =
      if (disk.at? (here ++ [name])).isSome then .ok (here ++ [name])
      else .error .noEntry := by
  have nonempty := Path.join_ne_nil base proper
  rw [locate, if_neg (by simp [nonempty]), start_join disk base proper,
    Path.steps_join base proper, follow_append, leads]
  exact follow_name isDirectory proper

/-- A name joined to a path leads to the entry of that name in the directory
that the steps of the path lead to. -/
theorem locate_join (present : (disk.at? (here ++ [name])).isSome) :
    disk.locate (Path.join base name) = .ok (here ++ [name]) := by
  rw [locate_join_eq leads isDirectory proper, if_pos present]

theorem find?_join :
    disk.find? (Path.join base name) = disk.at? (here ++ [name]) := by
  rw [find?, locate_join_eq leads isDirectory proper]
  cases present : disk.at? (here ++ [name]) with
  | none => rfl
  | some tree => exact present

end Join

/-- Names joined to the path of a directory lead to what is at that place in its
tree. -/
theorem locate_foldl_join {disk : Disk} {base : Text} {here : List Text}
    {tree below : FileTree Content} {place : List Text}
    (leads : disk.locate base = .ok here) (found : disk.at? here = some tree)
    (proper : tree.IsProper) (inside : tree.at? place = some below) :
    disk.locate (place.foldl Path.join base) = .ok (here ++ place) := by
  induction place generalizing base here tree with
  | nil =>
      simpa using leads
  | cons name rest inductionHypothesis =>
      cases proper with
      | file other =>
          cases inside
      | directory distinct named properEntries =>
          rw [FileTree.at?_directory_cons, Option.bind_eq_some_iff] at inside
          obtain ⟨inner, isChild, inside⟩ := inside
          have member := (FileTree.child?_eq_some_iff distinct).mp isChild
          have foundInner : disk.at? (here ++ [name]) = some inner := by
            rw [at?_append, found, Option.bind_some,
              FileTree.at?_directory_cons, isChild, Option.bind_some,
              FileTree.at?_nil]
          have leadsOn : disk.locate (Path.join base name) =
              .ok (here ++ [name]) :=
            locate_join (follow_stepsTo leads) found (named _ member)
              (by rw [foundInner]; rfl)
          have whole := inductionHypothesis leadsOn foundInner
            (properEntries _ member) inside
          simpa using whole

theorem find?_foldl_join {disk : Disk} {base : Text} {here : List Text}
    {tree below : FileTree Content} {place : List Text}
    (leads : disk.locate base = .ok here) (found : disk.at? here = some tree)
    (proper : tree.IsProper) (inside : tree.at? place = some below) :
    disk.find? (place.foldl Path.join base) = some below := by
  rw [find?, locate_foldl_join leads found proper inside]
  change disk.at? (here ++ place) = some below
  rw [at?_append, found, Option.bind_some, inside]

/-! ## Reading -/

/-- What reading a file of a content gives. -/
def contentRead : Content → Except Trouble Text
  | .text content => .ok content
  | .binary => .error .notText

/-- What reading gives where a path leads to a tree. -/
def treeRead : FileTree Content → Except Trouble Text
  | .file content => contentRead content
  | .directory _ => .error .isDirectory

theorem locate_of_find? {disk : Disk} {path : Text}
    {tree : FileTree Content} (found : disk.find? path = some tree) :
    ∃ here, disk.locate path = .ok here ∧ disk.at? here = some tree := by
  rw [find?] at found
  split at found
  · rename_i here leads
    exact ⟨here, leads, found⟩
  · cases found

theorem read_of_find? {disk : Disk} {path : Text} {tree : FileTree Content}
    (found : disk.find? path = some tree) : disk.read path = treeRead tree := by
  obtain ⟨here, leads, isTree⟩ := locate_of_find? found
  rw [read, leads]
  simp only [isTree]
  obtain (_ | _) | _ := tree <;> rfl

end Disk

end ComponentDocs.Files
