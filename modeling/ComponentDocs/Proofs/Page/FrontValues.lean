import ComponentDocs.Proofs.Page.FrontMatter

/-!
The values of front matter. A value between double quotes is read back as it
is, and of the lines that give a key a value the last one counts.
-/

namespace ComponentDocs.Page.FrontMatter

/-! ## Values of keys -/

/-- The value of a key, also when it is empty. -/
def value? (front : FrontMatter) (key : Text) : Option Text :=
  (front.fields.find? fun field => field.1 = key).map Prod.snd

theorem get?_eq (front : FrontMatter) (key : Text) :
    front.get? key =
      (front.value? key).bind fun value =>
        if value.isEmpty then none else some value := by
  rw [get?, value?]
  cases front.fields.find? fun field => field.1 = key with
  | none => rfl
  | some field => rfl

theorem value?_of_mem {fields : List (Text × Text)}
    (distinct : (fields.map Prod.fst).Nodup) {field : Text × Text}
    (member : field ∈ fields) :
    (⟨fields⟩ : FrontMatter).value? field.1 = some field.2 := by
  induction fields with
  | nil =>
      cases member
  | cons first rest inductionHypothesis =>
      obtain ⟨notInRest, distinctRest⟩ := List.nodup_cons.mp distinct
      rw [value?]
      rcases List.mem_cons.mp member with rfl | inRest
      · rw [List.find?_cons_of_pos (by simp)]
        rfl
      · have different : first.1 ≠ field.1 := by
          intro same
          exact notInRest (same ▸ List.mem_map_of_mem inRest)
        rw [List.find?_cons_of_neg (by simpa using different)]
        exact inductionHypothesis distinctRest inRest

theorem value?_of_not_mem {fields : List (Text × Text)} {key : Text}
    (absent : key ∉ fields.map Prod.fst) :
    (⟨fields⟩ : FrontMatter).value? key = none := by
  rw [value?, Option.map_eq_none_iff, List.find?_eq_none]
  intro field member same
  exact absent (of_decide_eq_true same ▸ List.mem_map_of_mem member)

theorem value?_put (front : FrontMatter) (key value wanted : Text) :
    (front.put key value).value? wanted =
      if wanted = key then some value else front.value? wanted := by
  obtain ⟨fields⟩ := front
  rw [put, value?, value?]
  dsimp only
  fun_induction putField key value fields with
  | case1 =>
      by_cases same : wanted = key
      · simp [same]
      · simp [same, Ne.symm same]
  | case2 field rest isKey =>
      by_cases same : wanted = key
      · simp [same]
      · have notField : field.1 ≠ wanted := isKey ▸ Ne.symm same
        simp [same, Ne.symm same, notField]
  | case3 field rest notKey inductionHypothesis =>
      by_cases isField : field.1 = wanted
      · have different : wanted ≠ key := isField ▸ notKey
        simp [isField, different]
      · rw [List.find?_cons_of_neg (by simpa using isField),
          List.find?_cons_of_neg (by simpa using isField)]
        exact inductionHypothesis

/-! ## Quoted values -/

/-- A value between double quotes. -/
def quoted (value : Text) : Text :=
  '"' :: (value ++ ['"'])

theorem unquote_trim_quoted (value : Text) :
    unquote (Text.trim (quoted value)) = value := by
  have trimmed : Text.trim (quoted value) = quoted value := by
    apply Text.trim_eq_self
    · rintro _ ⟨rfl⟩
      rfl
    · intro last ends
      rw [quoted, ← List.cons_append, List.getLast?_concat,
        Option.some.injEq] at ends
      rw [← ends]
      rfl
  have isQuoted_quoted : isQuoted '"' (quoted value) = true := by
    have closed : (quoted value).getLast? = some '"' := by
      rw [quoted, ← List.cons_append, List.getLast?_concat]
    rw [isQuoted, closed]
    simp [quoted]
  rw [trimmed, unquote, isQuoted_quoted, Bool.true_or, if_pos rfl, quoted,
    List.tail_cons, List.dropLast_concat]

/-- Fields whose values are written between double quotes are read back as they
are, whatever the values hold, and the body is what stands below them. -/
theorem read_quotedFields {fields : List (Text × Text)}
    (proper : AreFields fields) (marks : Nat) (body : Text) :
    read
        (List.replicate marks '\ufeff' ++
          (fieldBlock (fields.map fun field => (field.1, quoted field.2)) ++
            body)) =
      .ok (⟨fields⟩, body) ∧
    (⟨fields⟩ : FrontMatter).size = fields.length ∧
    (∀ field ∈ fields,
      (⟨fields⟩ : FrontMatter).get? field.1 =
        if field.2.isEmpty then none else some field.2) ∧
    ∀ key ∉ fields.map Prod.fst, (⟨fields⟩ : FrontMatter).get? key = none := by
  have properQuoted :
      AreFields (fields.map fun field => (field.1, quoted field.2)) := by
    constructor
    · exact List.forall_mem_map.mpr proper.keys
    · simpa [Function.comp_def] using proper.distinct
    · intro field member
      obtain ⟨source, inFields, rfl⟩ := List.mem_map.mp member
      simp [quoted, proper.single source inFields]
  have readBack :
      (fields.map fun field => (field.1, quoted field.2)).map
          (fun field => (field.1, unquote (Text.trim field.2))) = fields := by
    rw [List.map_map]
    conv_rhs => rw [← List.map_id fields]
    apply List.map_congr_left
    intro field _
    rw [Function.comp_apply, unquote_trim_quoted]
    rfl
  refine ⟨?_, rfl, ?_, ?_⟩
  · rw [read_replicate_append, read_fieldBlock properQuoted, readBack]
  · intro field member
    rw [get?_eq, value?_of_mem proper.distinct member]
    rfl
  · intro key absent
    rw [get?_eq, value?_of_not_mem absent]
    rfl

/-- Fields whose values look like quotes, marks, comments and fields. -/
def oddFields : List (Text × Text) :=
  [("title".toList, " 'Table' ".toList), ("---".toList, "---".toList),
    ("ключ \"a\"".toList, "# no: comment".toList),
    ("empty".toList, []), ("quote".toList, "\"".toList)]

/-- A body that starts like front matter. -/
def oddBody : Text :=
  "---\ntitle: \"Other\"\n---\r\n".toList

theorem oddFields_quoted :
    AreFields oddFields ∧
    read
        (List.replicate 2 '\ufeff' ++
          (fieldBlock (oddFields.map fun field => (field.1, quoted field.2)) ++
            oddBody)) =
      .ok (⟨oddFields⟩, oddBody) ∧
    (⟨oddFields⟩ : FrontMatter).size = oddFields.length ∧
    (∀ field ∈ oddFields,
      (⟨oddFields⟩ : FrontMatter).get? field.1 =
        if field.2.isEmpty then none else some field.2) ∧
    ∀ key ∉ oddFields.map Prod.fst,
      (⟨oddFields⟩ : FrontMatter).get? key = none := by
  have proper : AreFields oddFields :=
    ⟨by decide +kernel, by decide +kernel, by decide +kernel⟩
  exact ⟨proper, read_quotedFields proper 2 oddBody⟩

/-! ## Lines that give values -/

/-- A line that gives a key its value: it is neither blank nor a comment, the
key stands before its first colon and the value, with or without quotes, behind
it. -/
structure GivesValue (key value line : Text) : Prop where
  visible : Text.trim line ≠ []
  noComment : (Text.trim line).head? ≠ some '#'
  parts : ∃ before after : Text,
    Text.trim line = before ++ ':' :: after ∧ ':' ∉ before ∧
      Text.trim before = key ∧ unquote (Text.trim after) = value

theorem field?_eq_some_iff {line key value : Text} :
    field? line = some (key, value) ↔ GivesValue key value line := by
  unfold field?
  dsimp only
  constructor
  · intro given
    split at given
    · cases given
    · rename_i counts
      obtain ⟨visible, noComment⟩ : Text.trim line ≠ [] ∧
          (Text.trim line).head? ≠ some '#' := by
        simpa using counts
      cases split : Text.splitOnce ':' (Text.trim line) with
      | none =>
          rw [split] at given
          cases given
      | some sides =>
          obtain ⟨before, after⟩ := sides
          rw [split, Option.some.injEq, Prod.mk.injEq] at given
          obtain ⟨parts, absent⟩ := Text.splitOnce_eq_some_iff.mp split
          exact ⟨visible, noComment, before, after, parts, absent, given⟩
  · rintro ⟨visible, noComment, before, after, parts, absent, rfl, rfl⟩
    have split :
        Text.splitOnce ':' (Text.trim line) = some (before, after) :=
      Text.splitOnce_eq_some_iff.mpr ⟨parts, absent⟩
    rw [if_neg (by simp [visible, noComment]), split]

def Omits (key line : Text) : Prop :=
  ∀ value, ¬ GivesValue key value line

/-- The value that the last line to give the key gives it. -/
def IsLastValue (key : Text) (lines : List Text) (value : Text) : Prop :=
  ∃ before line after, lines = before ++ line :: after ∧
    GivesValue key value line ∧ ∀ later ∈ after, Omits key later

theorem isLastValue_concat_iff {key value last : Text} {lines : List Text} :
    IsLastValue key (lines ++ [last]) value ↔
      GivesValue key value last ∨
        Omits key last ∧ IsLastValue key lines value := by
  constructor
  · rintro ⟨before, line, after, whole, gives, omitted⟩
    rcases List.eq_nil_or_concat' after with rfl | ⟨front, final, rfl⟩
    · obtain ⟨-, isLast⟩ := List.append_inj' whole rfl
      rw [List.cons.injEq] at isLast
      exact .inl (isLast.1 ▸ gives)
    · rw [← List.cons_append, ← List.append_assoc] at whole
      obtain ⟨rfl, isLast⟩ := List.append_inj' whole rfl
      rw [List.cons.injEq] at isLast
      obtain ⟨omittedFront, omittedFinal⟩ := List.forall_mem_append.mp omitted
      refine .inr ⟨?_, before, line, front, rfl, gives, omittedFront⟩
      exact isLast.1 ▸ omittedFinal final List.mem_cons_self
  · rintro (gives | ⟨omitted, before, line, after, rfl, gives, omittedAfter⟩)
    · exact ⟨lines, last, [], rfl, gives, fun _ member => nomatch member⟩
    · refine ⟨before, line, after ++ [last], by simp, gives, ?_⟩
      intro later member
      rcases List.mem_append.mp member with inAfter | isLast
      · exact omittedAfter later inAfter
      · exact List.mem_singleton.mp isLast ▸ omitted

theorem value?_readLine_iff {front : FrontMatter} {line key value : Text} :
    (front.readLine line).value? key = some value ↔
      GivesValue key value line ∨
        Omits key line ∧ front.value? key = some value := by
  simp only [Omits, ← field?_eq_some_iff]
  rw [readLine]
  cases field? line with
  | none =>
      simp
  | some field =>
      obtain ⟨given, written⟩ := field
      dsimp only
      rw [value?_put]
      by_cases same : key = given
      · simp [same]
      · simp [same, Ne.symm same]

/-- The lines of a block give each key the last of its values. -/
theorem value?_foldl_readLine_iff {key value : Text} {lines : List Text} :
    (lines.foldl readLine empty).value? key = some value ↔
      IsLastValue key lines value := by
  induction lines using List.reverseRecOn with
  | nil =>
      constructor
      · intro given
        cases given
      · rintro ⟨before, line, after, whole, -⟩
        simp at whole
  | append_singleton lines last inductionHypothesis =>
      rw [List.foldl_append, List.foldl_cons, List.foldl_nil,
        value?_readLine_iff, inductionHypothesis, isLastValue_concat_iff]

/-! ## The lines of a page -/

/-- The lines of a page, without the byte order marks in front of them. -/
def pageLines (page : Text) : List Text :=
  Text.linesWithEnds (page.dropWhile (· == '\ufeff'))

/-- Whether the first line of a page is a mark. -/
def Opens (page : Text) : Prop :=
  ∃ first ∈ (pageLines page).head?, isMark first = true

/-- Whether a later line of a page is a mark. -/
def Closes (page : Text) : Prop :=
  ∃ line ∈ (pageLines page).tail, isMark line = true

/-- The lines below the first one up to the next mark. -/
def blockLines (page : Text) : List Text :=
  (pageLines page).tail.takeWhile fun line => !isMark line

/-- Reading a page fails when its front matter is opened and not closed. A page
whose front matter is not opened has no fields, and any other page has those
that the lines of the block give. -/
theorem read_cases (page : Text) :
    (¬ Opens page ∧ ∃ body, read page = .ok (empty, body)) ∨
    (Opens page ∧ ¬ Closes page ∧ read page = .error unterminated) ∨
    Opens page ∧ Closes page ∧
      ∃ body, read page = .ok ((blockLines page).foldl readLine empty, body) := by
  unfold read Opens Closes blockLines pageLines
  dsimp only
  cases Text.linesWithEnds (page.dropWhile (· == '\ufeff')) with
  | nil =>
      exact .inl ⟨by simp, _, rfl⟩
  | cons first rest =>
      by_cases opened : isMark first = true
      swap
      · refine .inl ⟨by simpa using opened, page.dropWhile (· == '\ufeff'), ?_⟩
        dsimp only
        rw [if_neg opened]
      right
      have opens : ∃ line ∈ (first :: rest).head?, isMark line = true :=
        ⟨first, rfl, opened⟩
      dsimp only
      rw [if_pos opened, List.tail_cons]
      rcases forall_unmarked_or rest with
        unmarked | ⟨block, mark, below, rfl, unmarked, marked⟩
      · left
        rw [readLines_eq_none unmarked]
        exact ⟨opens, by simpa using unmarked, rfl⟩
      · right
        have isBlock :
            (block ++ mark :: below).takeWhile (fun line => !isMark line) =
              block := by
          rw [List.takeWhile_append_of_pos (by simpa using unmarked)]
          simp [marked]
        rw [readLines_append_cons unmarked marked, isBlock]
        exact ⟨opens, ⟨mark, by simp, marked⟩, below.flatten, rfl⟩

end ComponentDocs.Page.FrontMatter
