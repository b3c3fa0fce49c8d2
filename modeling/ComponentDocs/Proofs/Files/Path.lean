import ComponentDocs.Proofs.Files.Write

/-!
Paths that are the same up to doubled slashes and names `.`, and what a path
becomes when it is joined to one base twice.
-/

namespace ComponentDocs.Files.Path

/-! ## Parts of a path -/

/-- The names on a path, without what leads nowhere. -/
def names (path : Text) : List Text :=
  (steps path).filter fun step => !Disk.staysHere step

/-- How a path starts: at the root, with the name `.`, or in another way. -/
inductive Lead
  | root
  | here
  | unstated
deriving DecidableEq, Repr

def lead (path : Text) : Lead :=
  if isAbsolute path then .root
  else if (steps path).head? = some ['.'] then .here
  else .unstated

/-- Two paths have the same parts. A name `.` is a part only at the start. -/
def Same (first second : Text) : Prop :=
  lead first = lead second ∧ names first = names second

instance (first second : Text) : Decidable (Same first second) :=
  inferInstanceAs (Decidable (_ ∧ _))

theorem Same.refl (path : Text) : Same path path :=
  ⟨rfl, rfl⟩

theorem names_append_slash (before after : Text) :
    names (before ++ '/' :: after) = names before ++ names after := by
  rw [names, steps_append_slash, List.filter_append, names, names]

theorem lead_eq_root_iff (path : Text) :
    lead path = .root ↔ isAbsolute path = true := by
  rw [lead]
  split
  · rename_i absolute
    simp [absolute]
  · rename_i relative
    split <;> simp [relative]

theorem lead_append_slash (before after : Text) :
    lead (before ++ '/' :: after) =
      if before = [] then .root else lead before := by
  by_cases empty : before = []
  · subst empty
    rfl
  · have sameHead : (before ++ '/' :: after).head? = before.head? :=
      List.head?_append_of_ne_nil before empty
    have someStep : steps before ≠ [] :=
      List.splitOn_ne_nil '/' before
    have sameStep :
        (steps before ++ steps after).head? = (steps before).head? :=
      List.head?_append_of_ne_nil (steps before) someStep
    rw [if_neg empty, lead, lead, isAbsolute, isAbsolute, sameHead,
      steps_append_slash, sameStep]

/-! ## Joined paths -/

theorem join_of_isAbsolute (base : Text) {path : Text}
    (absolute : isAbsolute path = true) : join base path = path :=
  if_pos absolute

theorem join_nil (path : Text) : join [] path = path := by
  simp [join]

section Relative

variable {base path : Text} (relative : isAbsolute path = false)

include relative

/-- A relative path stands behind one slash after a base that is not empty. -/
theorem exists_join_eq (nonempty : base ≠ []) :
    ∃ before, (base = before ++ ['/'] ∨ base = before) ∧
      join base path = before ++ '/' :: path := by
  by_cases ends : base.getLast? = some '/'
  · obtain ⟨before, rfl⟩ := List.getLast?_eq_some_iff.mp ends
    exact ⟨before, .inl rfl, by simp [join, relative]⟩
  · exact ⟨base, .inr rfl, by simp [join, relative, nonempty, ends]⟩

theorem names_join : names (join base path) = names base ++ names path := by
  by_cases empty : base = []
  · subst empty
    rw [join_nil]
    rfl
  · obtain ⟨before, rfl | rfl, joined⟩ := exists_join_eq relative empty
    · rw [joined, names_append_slash, names_append_slash]
      exact congrArg (· ++ names path) (List.append_nil _).symm
    · rw [joined, names_append_slash]

theorem lead_join (nonempty : base ≠ []) : lead (join base path) = lead base := by
  obtain ⟨before, rfl | rfl, joined⟩ := exists_join_eq relative nonempty
  · rw [joined, lead_append_slash, lead_append_slash]
  · rw [joined, lead_append_slash, if_neg nonempty]

end Relative

theorem isAbsolute_join {base : Text} (absolute : isAbsolute base = true)
    (path : Text) : isAbsolute (join base path) = true := by
  by_cases itself : isAbsolute path = true
  · rwa [join_of_isAbsolute base itself]
  · have nonempty : base ≠ [] := by
      rintro rfl
      cases absolute
    rwa [← lead_eq_root_iff,
      lead_join (Bool.eq_false_iff.mpr itself) nonempty, lead_eq_root_iff]

/-! ## The path of the directory -/

/-- Only what leads nowhere is dropped at the end of a path. -/
theorem names_of_trimTail_eq_nil {afterRoot : Bool} {reversed : Text}
    (dropped : trimTail afterRoot reversed = []) :
    names reversed.reverse = [] := by
  fun_induction trimTail afterRoot reversed with
  | case1 => rfl
  | case2 rest inductionHypothesis =>
      rw [List.reverse_cons, names_append_slash, inductionHypothesis dropped]
      rfl
  | case3 => rfl
  | case4 => cases dropped
  | case5 rest inductionHypothesis =>
      have shape : ('.' :: '/' :: rest).reverse = rest.reverse ++ '/' :: ['.'] := by
        simp
      rw [shape, names_append_slash, inductionHypothesis dropped]
      rfl
  | case6 =>
      rw [dropped]
      rfl

theorem exists_parentBody? {body : Text} (named : names body ≠ [])
    (afterRoot : Bool) : ∃ base, parentBody? afterRoot body = some base := by
  rw [parentBody?]
  split
  · rename_i dropped
    have noNames := names_of_trimTail_eq_nil dropped
    rw [List.reverse_reverse] at noNames
    exact absurd noNames named
  · exact ⟨_, rfl⟩

/-- A path with a name on it has a directory. -/
theorem exists_parent? {path : Text} (named : names path ≠ []) :
    ∃ base, parent? path = some base := by
  rw [parent?.eq_def]
  split
  · rename_i body
    have namedBody : names body ≠ [] := by
      have parts := names_append_slash [] body
      rw [List.nil_append] at parts
      rwa [parts] at named
    obtain ⟨inner, found⟩ := exists_parentBody? namedBody true
    exact ⟨'/' :: inner, by rw [found, Option.map_some]⟩
  · exact exists_parentBody? named false

/-- Only a path with a name on it is written to. -/
theorem names_ne_nil_of_write {disk changed : Disk} {path content : Text}
    (isWritten : disk.write path content = .ok changed) : names path ≠ [] := by
  obtain ⟨place, isTarget, -⟩ := Disk.exists_target_of_write isWritten
  obtain ⟨before, name, _, isNew, _⟩ := Disk.exists_of_target isTarget
  obtain ⟨steps, moves, -⟩ := Disk.steps_of_newPlace? isNew
  rw [names, steps]
  simp [moves]

theorem isAbsolute_of_parent? {path base : Text}
    (isParent : parent? path = some base) (absolute : isAbsolute path = true) :
    isAbsolute base = true := by
  rw [parent?.eq_def] at isParent
  split at isParent
  · obtain ⟨inner, -, rfl⟩ := Option.map_eq_some_iff.mp isParent
    rfl
  · rename_i relative
    cases path with
    | nil =>
        cases absolute
    | cons first rest =>
        obtain rfl : first = '/' := by simpa [isAbsolute] using absolute
        exact absurd rfl (relative rest)

/-- Joining a path to a base once more changes it, unless the path has become
absolute or there is no name on the base. -/
theorem same_join_join_iff (base path : Text) :
    Same (join base (join base path)) (join base path) ↔
      isAbsolute (join base path) = true ∨ names base = [] := by
  by_cases absolute : isAbsolute (join base path) = true
  · rw [join_of_isAbsolute base absolute]
    exact iff_of_true (.refl _) (.inl absolute)
  have relative := Bool.eq_false_iff.mpr absolute
  constructor
  · rintro ⟨-, sameNames⟩
    -- The names on the base would stand twice in front of those of the path.
    rw [names_join relative, List.append_left_eq_self] at sameNames
    exact .inr sameNames
  · rintro (isAbsolute | noNames)
    · exact absurd isAbsolute absolute
    by_cases empty : base = []
    · rw [empty, join_nil, join_nil]
      exact .refl path
    have relativePath : isAbsolute path = false := by
      rw [← Bool.not_eq_true]
      intro itself
      exact absolute (by rwa [join_of_isAbsolute base itself])
    refine ⟨?_, ?_⟩
    · rw [lead_join relative empty, lead_join relativePath empty]
    · rw [names_join relative, noNames, List.nil_append]

end ComponentDocs.Files.Path
