import ComponentDocs.Json.Reader
import ComponentDocs.Json.Writer
import ComponentDocs.Proofs.Json.Quoted
import Mathlib.Data.List.Basic

/-!
The indented text of a value is read back as the value.

A step of the reader takes one unit of fuel and at least one character of the
text, so that the length of the text is fuel enough.
-/

namespace ComponentDocs.Json

/-! ## Values that are written -/

/-- What may come after a value: the end of the text, a comma, a new line or a
closing bracket. -/
def EndsValue (rest : Text) : Prop :=
  ∀ first, rest.head? = some first → first ∈ [',', '\n', ']', '\x7d']

/-- A literal that is read up to its end, whatever comes after the value. -/
def Literal.IsWhole (literal : Text) : Prop :=
  ∀ rest, EndsValue rest →
    Literal.read? (literal ++ rest) = some (literal, rest)

mutual

/-- A value that has a text of its own: its strings and keys have content and
its numbers are whole literals. -/
def IsWritten : Json → Prop
  | null => True
  | bool _ => True
  | number literal => Literal.IsWhole literal
  | string content => content.isSome = true
  | array items => AreWritten items
  | object fields => AreWrittenFields fields

def AreWritten : List Json → Prop
  | [] => True
  | item :: items => IsWritten item ∧ AreWritten items

def AreWrittenFields : List (Option Text × Json) → Prop
  | [] => True
  | (key, value) :: fields =>
      key.isSome = true ∧ IsWritten value ∧ AreWrittenFields fields

end

theorem areWritten_iff {items : List Json} :
    AreWritten items ↔ ∀ item ∈ items, item.IsWritten := by
  induction items with
  | nil => simp [AreWritten]
  | cons item items inductionHypothesis =>
      simp [AreWritten, inductionHypothesis]

theorem areWrittenFields_iff {fields : List (Option Text × Json)} :
    AreWrittenFields fields ↔
      ∀ field ∈ fields, field.1.isSome = true ∧ field.2.IsWritten := by
  induction fields with
  | nil => simp [AreWrittenFields]
  | cons field fields inductionHypothesis =>
      obtain ⟨key, value⟩ := field
      simp [AreWrittenFields, inductionHypothesis, and_assoc]

/-! ## Spaces -/

theorem skipSpaces_cons_of_isSpace {first : Char} (space : isSpace first = true)
    (rest : Text) : skipSpaces (first :: rest) = skipSpaces rest := by
  simp [skipSpaces, space]

theorem skipSpaces_cons {first : Char} (visible : isSpace first = false)
    (rest : Text) : skipSpaces (first :: rest) = first :: rest := by
  simp [skipSpaces, visible]

theorem skipSpaces_newLine (depth : Nat) (rest : Text) :
    skipSpaces (newLine depth ++ rest) = skipSpaces rest := by
  apply List.dropWhile_append_of_pos
  intro character member
  rcases List.mem_cons.mp member with rfl | blank
  · rfl
  · rw [List.eq_of_mem_replicate blank]
    rfl

theorem readValue?_of_skipSpaces_eq {text other : Text}
    (same : skipSpaces text = skipSpaces other) (fuel : Nat) :
    readValue? fuel text = readValue? fuel other := by
  cases fuel with
  | zero => rfl
  | succ fuel => rw [readValue?, readValue?, same]

theorem skipSpaces_skipSpaces (text : Text) :
    skipSpaces (skipSpaces text) = skipSpaces text := by
  induction text with
  | nil =>
      rfl
  | cons first rest inductionHypothesis =>
      cases visible : isSpace first with
      | false => rw [skipSpaces_cons visible, skipSpaces_cons visible]
      | true => rw [skipSpaces_cons_of_isSpace visible, inductionHypothesis]

/-! ## Starts -/

/-- A text that starts as a value does: neither with a space nor with the end
of a list. -/
def StartsValue (text : Text) : Prop :=
  ∃ first rest, text = first :: rest ∧ isSpace first = false ∧ first ≠ ']'

theorem StartsValue.skipSpaces_eq {text : Text} (starts : StartsValue text) :
    skipSpaces text = text := by
  obtain ⟨first, rest, rfl, visible, _⟩ := starts
  exact skipSpaces_cons visible rest

theorem StartsValue.append {text : Text} (starts : StartsValue text)
    (rest : Text) : StartsValue (text ++ rest) := by
  obtain ⟨first, others, rfl, visible, notEnd⟩ := starts
  exact ⟨first, others ++ rest, rfl, visible, notEnd⟩

/-- What the first character of a number is. -/
def StartsNumber (first : Char) : Prop :=
  first = '-' ∨ first.isDigit = true

theorem StartsNumber.ne {first other : Char} (starts : StartsNumber first)
    (notMinus : other ≠ '-') (notDigit : other.isDigit = false) :
    first ≠ other := by
  rintro rfl
  rcases starts with minus | digit
  · exact notMinus minus
  · rw [digit] at notDigit
    cases notDigit

theorem StartsNumber.isSpace_eq_false {first : Char}
    (starts : StartsNumber first) : isSpace first = false := by
  have blank : first ≠ ' ' := starts.ne (by decide) rfl
  have tab : first ≠ '\t' := starts.ne (by decide) rfl
  have lineFeed : first ≠ '\n' := starts.ne (by decide) rfl
  have carriageReturn : first ≠ '\r' := starts.ne (by decide) rfl
  simp [isSpace, blank, tab, lineFeed, carriageReturn]

theorem Literal.IsWhole.exists_eq_cons {literal : Text}
    (whole : Literal.IsWhole literal) :
    ∃ first rest, literal = first :: rest ∧ StartsNumber first := by
  have alone := whole [] (by intro first starts; cases starts)
  rw [List.append_nil] at alone
  cases literal with
  | nil =>
      cases alone
  | cons first rest =>
      refine ⟨first, rest, rfl, ?_⟩
      by_contra other
      obtain ⟨notMinus, notDigit⟩ := not_or.mp other
      have notZero : first ≠ '0' := by
        rintro rfl
        exact notDigit rfl
      rw [Literal.read?] at alone
      · simp [Literal.unsigned?, Literal.whole?, notZero, notDigit] at alone
      · intro _ minus
        exact notMinus (List.cons.inj minus).1

theorem startsValue_prettyAt (depth : Nat) {json : Json}
    (written : json.IsWritten) : StartsValue (prettyAt depth json) := by
  cases json with
  | null =>
      exact ⟨'n', "ull".toList, rfl, rfl, by decide⟩
  | bool value =>
      cases value with
      | false => exact ⟨'f', "alse".toList, rfl, rfl, by decide⟩
      | true => exact ⟨'t', "rue".toList, rfl, rfl, by decide⟩
  | number literal =>
      obtain ⟨first, rest, split, starts⟩ :=
        Literal.IsWhole.exists_eq_cons written
      exact ⟨first, rest, split, starts.isSpace_eq_false,
        starts.ne (by decide) rfl⟩
  | string content =>
      exact ⟨'"', _, rfl, rfl, by decide⟩
  | array items =>
      cases items <;> exact ⟨'[', _, rfl, rfl, by decide⟩
  | object fields =>
      cases fields <;> exact ⟨'\x7b', _, rfl, rfl, by decide⟩

/-! ## Single steps of the reader -/

theorem readValue?_of_startsNumber {first : Char} (starts : StartsNumber first)
    (rest : Text) (fuel : Nat) :
    readValue? (fuel + 1) (first :: rest) =
      (Literal.read? (first :: rest)).map fun (literal, after) =>
        (.number literal, after) := by
  have notQuote : first ≠ '"' := starts.ne (by decide) rfl
  have notBracket : first ≠ '[' := starts.ne (by decide) rfl
  have notBrace : first ≠ '\x7b' := starts.ne (by decide) rfl
  have notNull : first ≠ 'n' := starts.ne (by decide) rfl
  have notTrue : first ≠ 't' := starts.ne (by decide) rfl
  have notFalse : first ≠ 'f' := starts.ne (by decide) rfl
  have noWord : word? (first :: rest) = none := by
    simp [word?, notNull.symm, notTrue.symm, notFalse.symm]
  rw [readValue?, skipSpaces_cons starts.isSpace_eq_false]
  simp [notQuote, notBracket, notBrace, scalar?, noWord]

theorem readValue?_writeString (content rest : Text) (fuel : Nat) :
    readValue? (fuel + 1) (writeString (some content) ++ rest) =
      some (.string (some content), rest) := by
  obtain ⟨body, quoted, isRead⟩ := Quoted.read?_write content rest
  rw [writeString, Option.getD_some, quoted, List.cons_append, readValue?,
    skipSpaces_cons rfl]
  simp [isRead]

theorem readKey?_newLine_writeString (depth : Nat) (content value : Text) :
    readKey? (newLine depth ++ writeString (some content) ++ ':' :: value) =
      some (some content, value) := by
  obtain ⟨body, quoted, isRead⟩ := Quoted.read?_write content (':' :: value)
  rw [writeString, Option.getD_some, quoted, List.append_assoc,
    List.cons_append, readKey?, skipSpaces_newLine, skipSpaces_cons rfl]
  simp only [isRead, skipSpaces_cons (show isSpace ':' = false from rfl)]

/-! ## Steps inside arrays and objects -/

theorem readItems?_newLine {text : Text} (starts : StartsValue text)
    (depth fuel : Nat) :
    readItems? (fuel + 1) (newLine depth ++ text) =
      readMoreItems? fuel (newLine depth ++ text) := by
  have same : skipSpaces (newLine depth ++ text) = text := by
    rw [skipSpaces_newLine, starts.skipSpaces_eq]
  rw [readItems?, same]
  split
  · obtain ⟨first, rest, split, _, notEnd⟩ := starts
    cases split
    exact absurd rfl notEnd
  · cases fuel with
    | zero =>
        rfl
    | succ fuel =>
        rw [readMoreItems?, readMoreItems?,
          readValue?_of_skipSpaces_eq (skipSpaces_newLine depth text)]

theorem readMoreItems?_last {text rest : Text} {item : Json} {fuel : Nat}
    (depth : Nat) (isRead : readValue? fuel text =
      some (item, newLine depth ++ ']' :: rest)) :
    readMoreItems? (fuel + 1) text = some ([item], rest) := by
  rw [readMoreItems?, isRead]
  simp only [skipSpaces_newLine,
    skipSpaces_cons (show isSpace ']' = false from rfl)]

theorem readMoreItems?_more {text after rest : Text} {item : Json}
    {items : List Json} {fuel : Nat}
    (isRead : readValue? fuel text = some (item, ',' :: after))
    (others : readMoreItems? fuel after = some (items, rest)) :
    readMoreItems? (fuel + 1) text = some (item :: items, rest) := by
  rw [readMoreItems?, isRead]
  simp only [skipSpaces_cons (show isSpace ',' = false from rfl), others,
    Option.map_some]

theorem readFields?_of_readKey? {text value : Text} {key : Option Text}
    (isKey : readKey? text = some (key, value)) (fuel : Nat) :
    readFields? (fuel + 1) text = readMoreFields? fuel text := by
  rw [readFields?]
  split
  · rename_i ends
    rw [readKey?, ends] at isKey
    cases isKey
  · cases fuel with
    | zero =>
        rfl
    | succ fuel =>
        rw [readMoreFields?, readMoreFields?, readKey?, readKey?,
          skipSpaces_skipSpaces]

theorem readMoreFields?_last {text value rest : Text} {key : Option Text}
    {json : Json} {fuel : Nat} (depth : Nat)
    (isKey : readKey? text = some (key, value))
    (isRead : readValue? fuel value =
      some (json, newLine depth ++ '\x7d' :: rest)) :
    readMoreFields? (fuel + 1) text = some ([(key, json)], rest) := by
  rw [readMoreFields?, isKey]
  simp only [isRead, skipSpaces_newLine,
    skipSpaces_cons (show isSpace '\x7d' = false from rfl)]

theorem readMoreFields?_more {text value after rest : Text}
    {key : Option Text} {json : Json} {fields : List (Option Text × Json)}
    {fuel : Nat} (isKey : readKey? text = some (key, value))
    (isRead : readValue? fuel value = some (json, ',' :: after))
    (others : readMoreFields? fuel after = some (fields, rest)) :
    readMoreFields? (fuel + 1) text = some ((key, json) :: fields, rest) := by
  rw [readMoreFields?, isKey]
  simp only [isRead, skipSpaces_cons (show isSpace ',' = false from rfl),
    others, Option.map_some]

theorem length_newLine (depth : Nat) :
    (newLine depth).length = 2 * depth + 1 := by
  simp [newLine]

theorem endsValue_comma (rest : Text) : EndsValue (',' :: rest) := by
  intro first starts
  obtain rfl := Option.some.inj starts
  decide

theorem endsValue_newLine (depth : Nat) (rest : Text) :
    EndsValue (newLine depth ++ rest) := by
  intro first starts
  obtain rfl := Option.some.inj starts
  decide

/-! ## Values that are read back -/

/-- The text of a value is read up to its end, whatever ends it, with fuel for
each of its characters. -/
def ReadsBack (json : Json) : Prop :=
  ∀ (depth fuel : Nat) (rest : Text), EndsValue rest →
    (prettyAt depth json).length ≤ fuel →
      readValue? fuel (prettyAt depth json ++ rest) = some (json, rest)

theorem prettyItems_singleton (depth : Nat) (item : Json) :
    prettyItems depth [item] =
      newLine (depth + 1) ++ prettyAt (depth + 1) item ++
        newLine depth ++ [']'] :=
  rfl

theorem prettyItems_cons_cons (depth : Nat) (item next : Json)
    (items : List Json) :
    prettyItems depth (item :: next :: items) =
      newLine (depth + 1) ++ prettyAt (depth + 1) item ++
        ',' :: prettyItems depth (next :: items) :=
  rfl

theorem prettyFields_singleton (depth : Nat) (key : Option Text)
    (value : Json) :
    prettyFields depth [(key, value)] =
      newLine (depth + 1) ++ writeString key ++ ':' :: ' ' ::
        prettyAt (depth + 1) value ++ newLine depth ++ ['\x7d'] :=
  rfl

theorem prettyFields_cons_cons (depth : Nat) (key : Option Text) (value : Json)
    (next : Option Text × Json) (fields : List (Option Text × Json)) :
    prettyFields depth ((key, value) :: next :: fields) =
      newLine (depth + 1) ++ writeString key ++ ':' :: ' ' ::
        prettyAt (depth + 1) value ++
          ',' :: prettyFields depth (next :: fields) :=
  rfl

theorem prettyItems_singleton_append (depth : Nat) (item : Json)
    (rest : Text) :
    prettyItems depth [item] ++ rest =
      newLine (depth + 1) ++ (prettyAt (depth + 1) item ++
        (newLine depth ++ ']' :: rest)) := by
  simp [prettyItems_singleton]

theorem prettyItems_cons_cons_append (depth : Nat) (item next : Json)
    (items : List Json) (rest : Text) :
    prettyItems depth (item :: next :: items) ++ rest =
      newLine (depth + 1) ++ (prettyAt (depth + 1) item ++
        ',' :: (prettyItems depth (next :: items) ++ rest)) := by
  simp [prettyItems_cons_cons]

theorem prettyFields_singleton_append (depth : Nat) (key : Option Text)
    (value : Json) (rest : Text) :
    prettyFields depth [(key, value)] ++ rest =
      newLine (depth + 1) ++ writeString key ++ ':' :: ' ' ::
        (prettyAt (depth + 1) value ++ (newLine depth ++ '\x7d' :: rest)) := by
  simp [prettyFields_singleton]

theorem prettyFields_cons_cons_append (depth : Nat) (key : Option Text)
    (value : Json) (next : Option Text × Json)
    (fields : List (Option Text × Json)) (rest : Text) :
    prettyFields depth ((key, value) :: next :: fields) ++ rest =
      newLine (depth + 1) ++ writeString key ++ ':' :: ' ' ::
        (prettyAt (depth + 1) value ++
          ',' :: (prettyFields depth (next :: fields) ++ rest)) := by
  simp [prettyFields_cons_cons]

theorem length_prettyItems_pos (depth : Nat) (item : Json)
    (items : List Json) :
    0 < (prettyItems depth (item :: items)).length := by
  cases items with
  | nil =>
      simp only [prettyItems_singleton, List.length_append, length_newLine]
      omega
  | cons next items =>
      simp only [prettyItems_cons_cons, List.length_append, length_newLine]
      omega

theorem length_prettyFields_pos (depth : Nat) (field : Option Text × Json)
    (fields : List (Option Text × Json)) :
    0 < (prettyFields depth (field :: fields)).length := by
  obtain ⟨key, value⟩ := field
  cases fields with
  | nil =>
      simp only [prettyFields_singleton, List.length_append, length_newLine]
      omega
  | cons next fields =>
      simp only [prettyFields_cons_cons, List.length_append, length_newLine]
      omega

/-! ## Arrays -/

theorem readItems?_prettyItems (depth : Nat) {item : Json}
    (written : item.IsWritten) (items : List Json) (rest : Text)
    (fuel : Nat) :
    readItems? (fuel + 1) (prettyItems depth (item :: items) ++ rest) =
      readMoreItems? fuel (prettyItems depth (item :: items) ++ rest) := by
  have starts := startsValue_prettyAt (depth + 1) written
  cases items with
  | nil =>
      rw [prettyItems_singleton_append]
      exact readItems?_newLine (starts.append _) _ fuel
  | cons next items =>
      rw [prettyItems_cons_cons_append]
      exact readItems?_newLine (starts.append _) _ fuel

theorem readMoreItems?_prettyItems (depth : Nat) {item : Json}
    {items : List Json} (itemReadsBack : ReadsBack item)
    (each : ∀ member ∈ items, ReadsBack member) (rest : Text) {fuel : Nat}
    (enough : (prettyItems depth (item :: items)).length ≤ fuel + 1) :
    readMoreItems? fuel (prettyItems depth (item :: items) ++ rest) =
      some (item :: items, rest) := by
  induction items generalizing item fuel with
  | nil =>
      simp only [prettyItems_singleton, List.length_append, length_newLine,
        List.length_singleton] at enough
      obtain ⟨fuel, rfl⟩ :=
        Nat.exists_eq_add_one.mpr (show 0 < fuel by omega)
      rw [prettyItems_singleton_append]
      refine readMoreItems?_last depth ?_
      rw [readValue?_of_skipSpaces_eq (skipSpaces_newLine _ _)]
      exact itemReadsBack (depth + 1) fuel _ (endsValue_newLine depth _)
        (by omega)
  | cons next items inductionHypothesis =>
      simp only [prettyItems_cons_cons, List.length_append, length_newLine,
        List.length_cons] at enough
      obtain ⟨fuel, rfl⟩ :=
        Nat.exists_eq_add_one.mpr (show 0 < fuel by omega)
      obtain ⟨nextReadsBack, eachOther⟩ := List.forall_mem_cons.mp each
      rw [prettyItems_cons_cons_append]
      refine readMoreItems?_more ?_ <|
        inductionHypothesis nextReadsBack eachOther (by omega)
      rw [readValue?_of_skipSpaces_eq (skipSpaces_newLine _ _)]
      exact itemReadsBack (depth + 1) fuel _ (endsValue_comma _) (by omega)

theorem readsBack_array {items : List Json}
    (written : ∀ item ∈ items, item.IsWritten)
    (each : ∀ item ∈ items, ReadsBack item) : ReadsBack (.array items) := by
  intro depth fuel rest _ enough
  cases items with
  | nil =>
      obtain ⟨fuel, rfl⟩ :=
        Nat.exists_eq_add_of_le (show 2 ≤ fuel from enough)
      rw [Nat.add_comm]
      rfl
  | cons item items =>
      have text : prettyAt depth (.array (item :: items)) =
          '[' :: prettyItems depth (item :: items) :=
        rfl
      have positive := length_prettyItems_pos depth item items
      rw [text, List.length_cons] at enough
      obtain ⟨fuel, rfl⟩ :=
        Nat.exists_eq_add_of_le (show 2 ≤ fuel by omega)
      rw [Nat.add_comm] at enough ⊢
      obtain ⟨itemReadsBack, eachOther⟩ := List.forall_mem_cons.mp each
      have inside := readMoreItems?_prettyItems depth itemReadsBack eachOther
        rest (show (prettyItems depth (item :: items)).length ≤ fuel + 1 by
          omega)
      rw [← readItems?_prettyItems depth
        (written item List.mem_cons_self)] at inside
      rw [text, List.cons_append, readValue?, skipSpaces_cons rfl]
      simp [inside]

/-! ## Objects -/

theorem readFields?_prettyFields (depth : Nat) (key : Text) (value : Json)
    (fields : List (Option Text × Json)) (rest : Text) (fuel : Nat) :
    readFields? (fuel + 1)
        (prettyFields depth ((some key, value) :: fields) ++ rest) =
      readMoreFields? fuel
        (prettyFields depth ((some key, value) :: fields) ++ rest) := by
  cases fields with
  | nil =>
      rw [prettyFields_singleton_append]
      exact readFields?_of_readKey? (readKey?_newLine_writeString _ _ _) fuel
  | cons next fields =>
      rw [prettyFields_cons_cons_append]
      exact readFields?_of_readKey? (readKey?_newLine_writeString _ _ _) fuel

theorem readMoreFields?_prettyFields (depth : Nat) {key : Text} {value : Json}
    {fields : List (Option Text × Json)}
    (keyed : ∀ field ∈ fields, field.1.isSome = true)
    (valueReadsBack : ReadsBack value)
    (each : ∀ field ∈ fields, ReadsBack field.2) (rest : Text) {fuel : Nat}
    (enough :
      (prettyFields depth ((some key, value) :: fields)).length ≤ fuel + 1) :
    readMoreFields? fuel
        (prettyFields depth ((some key, value) :: fields) ++ rest) =
      some ((some key, value) :: fields, rest) := by
  induction fields generalizing key value fuel with
  | nil =>
      simp only [prettyFields_singleton, List.length_append, length_newLine,
        List.length_cons] at enough
      obtain ⟨fuel, rfl⟩ :=
        Nat.exists_eq_add_one.mpr (show 0 < fuel by omega)
      rw [prettyFields_singleton_append]
      refine readMoreFields?_last depth
        (readKey?_newLine_writeString _ _ _) ?_
      rw [readValue?_of_skipSpaces_eq (skipSpaces_cons_of_isSpace rfl _)]
      exact valueReadsBack (depth + 1) fuel _ (endsValue_newLine depth _)
        (by omega)
  | cons next fields inductionHypothesis =>
      obtain ⟨hasKey, keyedOthers⟩ := List.forall_mem_cons.mp keyed
      obtain ⟨_, eachOther⟩ := List.forall_mem_cons.mp each
      obtain ⟨nextKey, nextValue⟩ := next
      obtain ⟨nextKey, rfl⟩ := Option.isSome_iff_exists.mp hasKey
      have nextReadsBack : ReadsBack nextValue := each _ List.mem_cons_self
      simp only [prettyFields_cons_cons, List.length_append, length_newLine,
        List.length_cons] at enough
      obtain ⟨fuel, rfl⟩ :=
        Nat.exists_eq_add_one.mpr (show 0 < fuel by omega)
      rw [prettyFields_cons_cons_append]
      refine readMoreFields?_more (readKey?_newLine_writeString _ _ _) ?_ <|
        inductionHypothesis keyedOthers nextReadsBack eachOther (by omega)
      rw [readValue?_of_skipSpaces_eq (skipSpaces_cons_of_isSpace rfl _)]
      exact valueReadsBack (depth + 1) fuel _ (endsValue_comma _) (by omega)

theorem readsBack_object {fields : List (Option Text × Json)}
    (keyed : ∀ field ∈ fields, field.1.isSome = true)
    (each : ∀ field ∈ fields, ReadsBack field.2) :
    ReadsBack (.object fields) := by
  intro depth fuel rest _ enough
  cases fields with
  | nil =>
      obtain ⟨fuel, rfl⟩ :=
        Nat.exists_eq_add_of_le (show 2 ≤ fuel from enough)
      rw [Nat.add_comm]
      rfl
  | cons field fields =>
      obtain ⟨hasKey, keyedOthers⟩ := List.forall_mem_cons.mp keyed
      obtain ⟨valueReadsBack, eachOther⟩ := List.forall_mem_cons.mp each
      obtain ⟨key, value⟩ := field
      obtain ⟨key, rfl⟩ := Option.isSome_iff_exists.mp hasKey
      have text : prettyAt depth (.object ((some key, value) :: fields)) =
          '\x7b' :: prettyFields depth ((some key, value) :: fields) :=
        rfl
      have positive :=
        length_prettyFields_pos depth (some key, value) fields
      rw [text, List.length_cons] at enough
      obtain ⟨fuel, rfl⟩ :=
        Nat.exists_eq_add_of_le (show 2 ≤ fuel by omega)
      rw [Nat.add_comm] at enough ⊢
      have inside := readMoreFields?_prettyFields depth keyedOthers
        valueReadsBack eachOther rest
        (show (prettyFields depth ((some key, value) :: fields)).length ≤
          fuel + 1 by omega)
      rw [← readFields?_prettyFields] at inside
      rw [text, List.cons_append, readValue?, skipSpaces_cons rfl]
      simp [inside]

/-! ## Whole values -/

theorem readsBack_number {literal : Text} (whole : Literal.IsWhole literal) :
    ReadsBack (.number literal) := by
  intro depth fuel rest ends enough
  obtain ⟨first, others, rfl, starts⟩ := whole.exists_eq_cons
  obtain ⟨fuel, rfl⟩ := Nat.exists_eq_add_one.mpr
    (Nat.lt_of_lt_of_le (Nat.zero_lt_succ _) enough)
  have isRead := whole rest ends
  have text : prettyAt depth (.number (first :: others)) = first :: others :=
    rfl
  rw [List.cons_append] at isRead
  rw [text, List.cons_append, readValue?_of_startsNumber starts, isRead]
  rfl

theorem IsWritten.readsBack {json : Json} (written : json.IsWritten) :
    ReadsBack json := by
  cases json with
  | null =>
      intro depth fuel rest _ enough
      obtain ⟨fuel, rfl⟩ := Nat.exists_eq_add_one.mpr
        (Nat.lt_of_lt_of_le (Nat.zero_lt_succ _) enough)
      rfl
  | bool value =>
      intro depth fuel rest _ enough
      cases value with
      | false =>
          obtain ⟨fuel, rfl⟩ := Nat.exists_eq_add_one.mpr
            (Nat.lt_of_lt_of_le (Nat.zero_lt_succ _) enough)
          rfl
      | true =>
          obtain ⟨fuel, rfl⟩ := Nat.exists_eq_add_one.mpr
            (Nat.lt_of_lt_of_le (Nat.zero_lt_succ _) enough)
          rfl
  | number literal =>
      exact readsBack_number written
  | string content =>
      intro depth fuel rest _ enough
      obtain ⟨content, rfl⟩ := Option.isSome_iff_exists.mp written
      obtain ⟨fuel, rfl⟩ := Nat.exists_eq_add_one.mpr
        (Nat.lt_of_lt_of_le (Nat.zero_lt_succ _) enough)
      exact readValue?_writeString content rest fuel
  | array items =>
      have each := areWritten_iff.mp written
      exact readsBack_array each fun item member =>
        (each item member).readsBack
  | object fields =>
      have each := areWrittenFields_iff.mp written
      exact readsBack_object (fun field member => (each field member).1)
        fun field member => (each field member).2.readsBack
termination_by sizeOf json
decreasing_by
  · rename_i isArray
    have smaller := List.sizeOf_lt_of_mem member
    simp only [isArray, array.sizeOf_spec]
    omega
  · rename_i isObject
    have smaller := List.sizeOf_lt_of_mem member
    have parts : sizeOf field.2 < sizeOf field := by
      obtain ⟨key, value⟩ := field
      simp only [Prod.mk.sizeOf_spec]
      omega
    simp only [isObject, object.sizeOf_spec]
    omega

theorem read?_pretty {json : Json} (written : json.IsWritten) :
    read? json.pretty = some json := by
  have whole :
      readValue? (3 * json.pretty.length + 3) (json.pretty ++ []) =
        some (json, []) :=
    written.readsBack 0 _ [] (by intro first starts; cases starts)
      (by rw [pretty]; omega)
  rw [List.append_nil] at whole
  rw [read?, whole]
  rfl

end ComponentDocs.Json
