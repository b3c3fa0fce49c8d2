import ComponentDocs.Page.FrontMatter
import ComponentDocs.Proofs.Text.Lines
import ComponentDocs.Proofs.Text.Pieces
import ComponentDocs.Proofs.Text.Trim

/-!
Front matter as it is written: the block of lines that give keys their values,
and the body below it. Reading such a page gives back the fields and the body.
-/

namespace ComponentDocs.Page.FrontMatter

/-- The line that opens or closes the block. -/
def markLine : Text :=
  "---\n".toList

/-- A text that can be written as a key. -/
structure IsKey (key : Text) : Prop where
  nonempty : key ≠ []
  noFeed : '\n' ∉ key
  noColon : ':' ∉ key
  noComment : key.head? ≠ some '#'
  trimmed : Text.trim key = key

instance (key : Text) : Decidable (IsKey key) :=
  decidable_of_iff
    (key ≠ [] ∧ '\n' ∉ key ∧ ':' ∉ key ∧ key.head? ≠ some '#' ∧
      Text.trim key = key)
    ⟨fun ⟨nonempty, noFeed, noColon, noComment, trimmed⟩ =>
      ⟨nonempty, noFeed, noColon, noComment, trimmed⟩,
     fun ⟨nonempty, noFeed, noColon, noComment, trimmed⟩ =>
      ⟨nonempty, noFeed, noColon, noComment, trimmed⟩⟩

/-- The line that gives a key its value. -/
def fieldLine (key value : Text) : Text :=
  key ++ [':', ' '] ++ value

/-- The block that gives a key its value. -/
def block (key value : Text) : Text :=
  markLine ++ fieldLine key value ++ '\n' :: markLine

/-- The block that gives each key its value. -/
def fieldBlock (fields : List (Text × Text)) : Text :=
  markLine ++
    (fields.flatMap fun field => fieldLine field.1 field.2 ++ ['\n']) ++
      markLine

/-- Fields that can be written line by line. -/
structure AreFields (fields : List (Text × Text)) : Prop where
  keys : ∀ field ∈ fields, IsKey field.1
  distinct : (fields.map Prod.fst).Nodup
  single : ∀ field ∈ fields, '\n' ∉ field.2

theorem AreFields.tail {field : Text × Text} {fields : List (Text × Text)}
    (proper : AreFields (field :: fields)) : AreFields fields where
  keys := (List.forall_mem_cons.mp proper.keys).2
  distinct := (List.nodup_cons.mp proper.distinct).2
  single := (List.forall_mem_cons.mp proper.single).2

theorem AreFields.key_ne {field other : Text × Text}
    {fields : List (Text × Text)} (proper : AreFields (field :: fields))
    (member : other ∈ fields) : other.1 ≠ field.1 := by
  intro same
  have again : field.1 ∈ fields.map Prod.fst :=
    same ▸ List.mem_map_of_mem member
  exact (List.nodup_cons.mp proper.distinct).1 again

/-! ## Reading a line -/

section Line

variable {key : Text} (proper : IsKey key) (value : Text)

include proper

theorem trim_fieldLine :
    Text.trim (fieldLine key value ++ ['\n']) =
      key ++ [':'] ++
        Text.dropEndWhile Text.isBlank (' ' :: (value ++ ['\n'])) := by
  have parts :
      fieldLine key value ++ ['\n'] =
        (key ++ [':']) ++ ' ' :: (value ++ ['\n']) := by
    simp [fieldLine]
  obtain ⟨first, rest, shape⟩ := List.exists_cons_of_ne_nil proper.nonempty
  have visible : Text.isBlank first = false :=
    Text.head?_trim (by rw [proper.trimmed, shape, List.head?_cons])
  have started (others : Text) :
      Text.trimStart (key ++ [':'] ++ others) = key ++ [':'] ++ others := by
    rw [shape]
    simp [Text.trimStart, visible]
  rw [parts, Text.trim, started, Text.trimEnd,
    Text.dropEndWhile_append_of_stops]
  intro last isLast
  rw [List.getLast?_concat, Option.some.injEq] at isLast
  rw [← isLast]
  rfl

theorem field?_fieldLine :
    field? (fieldLine key value ++ ['\n']) =
      some (key, unquote (Text.trim value)) := by
  have trimmedValue :
      Text.trim (Text.dropEndWhile Text.isBlank
        (' ' :: (value ++ ['\n']))) = Text.trim value := by
    rw [Text.trim_dropEndWhile]
    exact Text.trim_append_append [' ']
      (fun _ => Text.isBlank_of_mem_space) value
      fun _ => Text.isBlank_of_mem_feed
  obtain ⟨first, rest, shape⟩ := List.exists_cons_of_ne_nil proper.nonempty
  have noComment : (key.head? == some '#') = false := by
    simpa using proper.noComment
  unfold field?
  dsimp only
  rw [trim_fieldLine proper]
  generalize Text.dropEndWhile Text.isBlank (' ' :: (value ++ ['\n'])) =
    written at trimmedValue ⊢
  have split : Text.splitOnce ':' (key ++ [':'] ++ written) =
      some (key, written) :=
    Text.splitOnce_eq_some_iff.mpr
      ⟨List.append_assoc key [':'] written, proper.noColon⟩
  have visible :
      ((key ++ [':'] ++ written).isEmpty ||
        (key ++ [':'] ++ written).head? == some '#') = false := by
    rw [shape] at noComment ⊢
    simpa using noComment
  rw [visible, split, if_neg Bool.false_ne_true]
  dsimp only
  rw [proper.trimmed, trimmedValue]

theorem linesWithEnds_fieldLine {value : Text} (plain : '\n' ∉ value)
    (rest : Text) :
    Text.linesWithEnds ((fieldLine key value ++ ['\n']) ++ rest) =
      (fieldLine key value ++ ['\n']) :: Text.linesWithEnds rest := by
  have plainLine : '\n' ∉ fieldLine key value := by
    simp [fieldLine, proper.noFeed, plain]
  rw [List.append_assoc, List.singleton_append,
    Text.linesWithEnds_append plainLine]

/-- A line with a colon is no mark. -/
theorem isMark_fieldLine : isMark (fieldLine key value ++ ['\n']) = false := by
  rw [isMark, trim_fieldLine proper, beq_eq_false_iff_ne]
  intro same
  have colon : ':' ∈ "---".toList := by
    rw [← same]
    simp
  exact absurd colon (by decide)

end Line

/-! ## Reading a page -/

theorem putField_of_not_mem {key : Text} (value : Text)
    {fields : List (Text × Text)} (absent : key ∉ fields.map Prod.fst) :
    putField key value fields = fields ++ [(key, value)] := by
  induction fields with
  | nil =>
      rfl
  | cons field rest inductionHypothesis =>
      obtain ⟨different, absentRest⟩ := not_or.mp (mt List.mem_cons.mpr absent)
      rw [putField, if_neg (Ne.symm different), inductionHypothesis absentRest]
      rfl

theorem isMark_markLine : isMark markLine = true := by
  decide

theorem linesWithEnds_markLine (rest : Text) :
    Text.linesWithEnds (markLine ++ rest) =
      markLine :: Text.linesWithEnds rest := by
  have dashes : '\n' ∉ "---".toList := by
    decide
  exact Text.linesWithEnds_append dashes rest

/-- Lines of fields with new keys are read to the end, field by field. -/
theorem readLines_fields (front : FrontMatter) {fields : List (Text × Text)}
    (proper : AreFields fields)
    (new : ∀ field ∈ fields, field.1 ∉ front.fields.map Prod.fst)
    (rest : Text) :
    readLines front
        (Text.linesWithEnds
          ((fields.flatMap fun field => fieldLine field.1 field.2 ++ ['\n']) ++
            (markLine ++ rest))) =
      some
        (⟨front.fields ++
          fields.map fun field => (field.1, unquote (Text.trim field.2))⟩,
          Text.linesWithEnds rest) := by
  induction fields generalizing front with
  | nil =>
      rw [List.flatMap_nil, List.nil_append, linesWithEnds_markLine, readLines,
        if_pos isMark_markLine, List.map_nil, List.append_nil]
  | cons field others inductionHypothesis =>
      obtain ⟨key, value⟩ := field
      obtain ⟨isKey, -⟩ := List.forall_mem_cons.mp proper.keys
      obtain ⟨plain, -⟩ := List.forall_mem_cons.mp proper.single
      obtain ⟨newKey, newOthers⟩ := List.forall_mem_cons.mp new
      have newer : ∀ field ∈ others,
          field.1 ∉
            (front.fields ++ [(key, unquote (Text.trim value))]).map
              Prod.fst := by
        intro field member
        have different : field.1 ≠ key := proper.key_ne member
        rw [List.map_append, List.mem_append, not_or]
        exact ⟨newOthers field member, by simpa using different⟩
      rw [List.flatMap_cons, List.append_assoc,
        linesWithEnds_fieldLine isKey plain, readLines,
        isMark_fieldLine isKey, if_neg Bool.false_ne_true, readLine,
        field?_fieldLine isKey]
      dsimp only
      rw [put, putField_of_not_mem _ newKey,
        inductionHypothesis _ proper.tail newer]
      simp

/-- A page that starts with a block of fields is these fields and what is below
the block. -/
theorem read_fieldBlock {fields : List (Text × Text)}
    (proper : AreFields fields) (body : Text) :
    read (fieldBlock fields ++ body) =
      .ok
        (⟨fields.map fun field => (field.1, unquote (Text.trim field.2))⟩,
          body) := by
  -- The block starts with a hyphen and not with a byte order mark.
  have started :
      (fieldBlock fields ++ body).dropWhile (· == '\ufeff') =
        fieldBlock fields ++ body :=
    rfl
  have readLines_eq := readLines_fields empty proper
    (fun _ _ => List.not_mem_nil) body
  unfold read
  dsimp only
  rw [started, fieldBlock, List.append_assoc, List.append_assoc,
    linesWithEnds_markLine]
  dsimp only
  rw [if_pos isMark_markLine, readLines_eq]
  dsimp only
  rw [Text.flatten_linesWithEnds]
  rfl

/-- A page that starts with the block of a key is the value of that key and
what is below the block. -/
theorem read_block {key value : Text} (proper : IsKey key)
    (plain : '\n' ∉ value) (body : Text) :
    read (block key value ++ body) =
      .ok (⟨[(key, unquote (Text.trim value))]⟩, body) := by
  have single : AreFields [(key, value)] :=
    ⟨by simpa using proper, by simp, by simpa using plain⟩
  have same : block key value = fieldBlock [(key, value)] := by
    simp [block, fieldBlock]
  rw [same]
  exact read_fieldBlock single body

/-- Byte order marks in front of a page do not count. -/
theorem read_replicate_append (count : Nat) (page : Text) :
    read (List.replicate count '\ufeff' ++ page) = read page := by
  have dropped :
      (List.replicate count '\ufeff' ++ page).dropWhile (· == '\ufeff') =
        page.dropWhile (· == '\ufeff') := by
    apply List.dropWhile_append_of_pos
    intro character member
    rw [List.eq_of_mem_replicate member]
    rfl
  rw [read, read, dropped]

/-! ## Lines up to the mark -/

/-- Lines have no mark, or a first one. -/
theorem forall_unmarked_or (lines : List Text) :
    (∀ line ∈ lines, isMark line = false) ∨
      ∃ block mark rest, lines = block ++ mark :: rest ∧
        (∀ line ∈ block, isMark line = false) ∧ isMark mark = true := by
  cases found : lines.find? isMark with
  | none =>
      left
      simpa using List.find?_eq_none.mp found
  | some mark =>
      obtain ⟨marked, block, rest, whole, unmarked⟩ :=
        List.find?_eq_some_iff_append.mp found
      exact .inr ⟨block, mark, rest, whole, by simpa using unmarked, marked⟩

theorem readLines_append {front : FrontMatter} {lines : List Text}
    (unmarked : ∀ line ∈ lines, isMark line = false) (more : List Text) :
    readLines front (lines ++ more) =
      readLines (lines.foldl readLine front) more := by
  induction lines generalizing front with
  | nil =>
      rfl
  | cons line rest inductionHypothesis =>
      obtain ⟨lineUnmarked, restUnmarked⟩ := List.forall_mem_cons.mp unmarked
      rw [List.cons_append, readLines, lineUnmarked, if_neg Bool.false_ne_true,
        inductionHypothesis restUnmarked, List.foldl_cons]

/-- The lines above the first mark are read, and those below it are left. -/
theorem readLines_append_cons {front : FrontMatter} {block : List Text}
    {mark : Text} (unmarked : ∀ line ∈ block, isMark line = false)
    (marked : isMark mark = true) (rest : List Text) :
    readLines front (block ++ mark :: rest) =
      some (block.foldl readLine front, rest) := by
  rw [readLines_append unmarked, readLines, if_pos marked]

theorem readLines_eq_none {front : FrontMatter} {lines : List Text}
    (unmarked : ∀ line ∈ lines, isMark line = false) :
    readLines front lines = none := by
  rw [← List.append_nil lines, readLines_append unmarked, readLines]

theorem exists_block_of_readLines {front result : FrontMatter}
    {lines rest : List Text}
    (closed : readLines front lines = some (result, rest)) :
    ∃ block mark, lines = block ++ mark :: rest ∧
      (∀ line ∈ block, isMark line = false) ∧ isMark mark = true ∧
        block.foldl readLine front = result := by
  rcases forall_unmarked_or lines with
    unmarked | ⟨block, mark, others, rfl, unmarked, marked⟩
  · rw [readLines_eq_none unmarked] at closed
    cases closed
  · rw [readLines_append_cons unmarked marked, Option.some.injEq,
      Prod.mk.injEq] at closed
    exact ⟨block, mark, by rw [closed.2], unmarked, marked, closed.1⟩

/-! ## Bodies in two parts -/

/-- The byte order marks in front of a line end before its line feed. -/
theorem dropWhile_append_of_feed {text : Text}
    (feed : text.getLast? = some '\n') (rest : Text) :
    (text ++ rest).dropWhile (· == '\ufeff') =
      text.dropWhile (· == '\ufeff') ++ rest := by
  have stops : ¬ (text.dropWhile (· == '\ufeff')).isEmpty = true := by
    rw [List.isEmpty_iff, List.dropWhile_eq_nil_iff]
    intro marks
    exact absurd (marks '\n' (List.mem_of_getLast? feed)) (by decide)
  rw [List.dropWhile_append, if_neg stops]

theorem getLast?_dropWhile_of_feed {text : Text}
    (feed : text.getLast? = some '\n') :
    (text.dropWhile (· == '\ufeff')).getLast? = some '\n' := by
  obtain ⟨front, rfl⟩ := List.getLast?_eq_some_iff.mp feed
  rw [List.dropWhile_append]
  split
  · rfl
  · exact List.getLast?_concat

/-- The lines of a page that ends in a line feed stay the first ones when
something is written below it. -/
theorem linesWithEnds_dropWhile_append {text : Text}
    (feed : text.getLast? = some '\n') (rest : Text) :
    Text.linesWithEnds ((text ++ rest).dropWhile (· == '\ufeff')) =
      Text.linesWithEnds (text.dropWhile (· == '\ufeff')) ++
        Text.linesWithEnds rest := by
  rw [dropWhile_append_of_feed feed,
    Text.linesWithEnds_append_of_feed (getLast?_dropWhile_of_feed feed)]

theorem exists_linesWithEnds_dropWhile {text : Text}
    (feed : text.getLast? = some '\n') :
    ∃ first lines,
      Text.linesWithEnds (text.dropWhile (· == '\ufeff')) = first :: lines := by
  apply List.exists_cons_of_ne_nil
  intro empty
  have ends := getLast?_dropWhile_of_feed feed
  rw [← Text.flatten_linesWithEnds (text.dropWhile _), empty] at ends
  cases ends

/-- What is written below a page stands below its body. -/
theorem read_append_of_ok {page body : Text} {front : FrontMatter}
    (feed : page.getLast? = some '\n') (parts : read page = .ok (front, body))
    (more : Text) : read (page ++ more) = .ok (front, body ++ more) := by
  obtain ⟨first, lines, shape⟩ := exists_linesWithEnds_dropWhile feed
  unfold read at parts ⊢
  dsimp only at parts ⊢
  rw [shape] at parts
  rw [linesWithEnds_dropWhile_append feed, shape, List.cons_append,
    dropWhile_append_of_feed feed]
  dsimp only at parts ⊢
  by_cases opened : isMark first = true
  · rw [if_pos opened] at parts ⊢
    rcases forall_unmarked_or lines with
      unmarked | ⟨block, mark, rest, rfl, unmarked, marked⟩
    · rw [readLines_eq_none unmarked] at parts
      cases parts
    · rw [readLines_append_cons unmarked marked] at parts
      rw [List.append_assoc, List.cons_append,
        readLines_append_cons unmarked marked]
      dsimp only at parts ⊢
      rw [Except.ok.injEq, Prod.mk.injEq] at parts
      rw [List.flatten_append, Text.flatten_linesWithEnds, parts.1, parts.2]
  · rw [if_neg opened] at parts ⊢
    rw [Except.ok.injEq, Prod.mk.injEq] at parts
    rw [parts.1, parts.2]

/-- Front matter that closes above a part of the body closes without it. -/
theorem read_of_read_append {page above below : Text} {front : FrontMatter}
    (feed : page.getLast? = some '\n') (nonempty : above ≠ [])
    (parts : read (page ++ below) = .ok (front, above ++ below)) :
    read page = .ok (front, above) := by
  obtain ⟨first, lines, shape⟩ := exists_linesWithEnds_dropWhile feed
  unfold read at parts ⊢
  dsimp only at parts ⊢
  rw [linesWithEnds_dropWhile_append feed, shape, List.cons_append,
    dropWhile_append_of_feed feed] at parts
  rw [shape]
  dsimp only at parts ⊢
  by_cases opened : isMark first = true
  · rw [if_pos opened] at parts ⊢
    rcases forall_unmarked_or lines with
      unmarked | ⟨block, mark, rest, rfl, unmarked, marked⟩
    · -- A block that closes below leaves less than the body.
      rw [readLines_append unmarked] at parts
      split at parts
      · rename_i result bodyLines closes
        rw [Except.ok.injEq, Prod.mk.injEq] at parts
        obtain ⟨block, mark, isBelow, -⟩ := exists_block_of_readLines closes
        have lengths := congrArg List.length <|
          congrArg List.flatten isBelow
        rw [List.flatten_append, List.flatten_cons, parts.2,
          Text.flatten_linesWithEnds, List.length_append, List.length_append,
          List.length_append] at lengths
        have positive : 0 < above.length := List.length_pos_of_ne_nil nonempty
        omega
      · cases parts
    · rw [List.append_assoc, List.cons_append,
        readLines_append_cons unmarked marked] at parts
      rw [readLines_append_cons unmarked marked]
      dsimp only at parts ⊢
      rw [Except.ok.injEq, Prod.mk.injEq, List.flatten_append,
        Text.flatten_linesWithEnds, List.append_cancel_right_eq] at parts
      rw [parts.1, parts.2]
  · rw [if_neg opened] at parts ⊢
    rw [Except.ok.injEq, Prod.mk.injEq, List.append_cancel_right_eq] at parts
    rw [parts.1, parts.2]

/-- What stands below in the body does not count for the front matter. -/
theorem read_append {head above below : Text} {front : FrontMatter}
    (feed : above.getLast? = some '\n')
    (parts : read (head ++ (above ++ below)) = .ok (front, above ++ below))
    (other : Text) :
    read (head ++ (above ++ other)) = .ok (front, above ++ other) := by
  have aboveFeed : (head ++ above).getLast? = some '\n' := by
    rw [List.getLast?_append, feed, Option.some_or]
  have nonempty : above ≠ [] := by
    rintro rfl
    cases feed
  rw [← List.append_assoc] at parts ⊢
  exact read_append_of_ok aboveFeed
    (read_of_read_append aboveFeed nonempty parts) other

end ComponentDocs.Page.FrontMatter
