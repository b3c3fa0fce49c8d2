import ComponentDocs.Proofs.Toml.Quoted
import ComponentDocs.Toml.Reader

/-!
Documents of tables are read back: strings and lists of strings on their lines,
the lines of a table below its header, and the tables one after another.
-/

namespace ComponentDocs.Toml

/-! ## Values -/

theorem skipSpaces_cons {first : Char} (visible : isSpace first = false)
    (rest : Text) : skipSpaces (first :: rest) = first :: rest :=
  List.dropWhile_cons_of_neg (by simp [visible])

section Text

variable {rest : Text} (content : Text)

theorem skipSpaces_writeText :
    skipSpaces (writeText content ++ rest) = writeText content ++ rest := by
  obtain ⟨first, more, written, rfl | rfl⟩ :=
    Quoted.exists_head_writeText content
  · rw [written]
    rfl
  · rw [written]
    rfl

/-- The blanks before a string are skipped, and nothing of it. -/
theorem skipGap_writeText :
    skipGap false (writeText content ++ rest) =
      writeText content ++ rest := by
  obtain ⟨first, more, written, rfl | rfl⟩ :=
    Quoted.exists_head_writeText content
  · rw [written]
    rfl
  · rw [written]
    rfl

theorem readValue?_writeText (stops : Quoted.Stops rest) (levels fuel : Nat) :
    readValue? levels (fuel + 1) (writeText content ++ rest) =
      some (.text content, rest) := by
  have reads := stops.read?_writeText content
  obtain ⟨first, more, written, isQuote⟩ :=
    Quoted.exists_head_writeText content
  rw [written] at reads ⊢
  rw [List.cons_append] at reads ⊢
  rw [readValue?]
  dsimp only
  rw [if_pos (by simpa using isQuote), reads]
  rfl

end Text

section Items

variable {levels fuel : Nat} {text start after rest : Text} {item : Value}

theorem readItems?_close (closes : skipGap false text = ']' :: rest) :
    readItems? levels (fuel + 1) text = some ([], rest) := by
  rw [readItems?, closes]
  rfl

variable (begins : skipGap false text = start)
  (isItem : ∀ more, start ≠ ']' :: more)
  (reads : readValue? levels fuel start = some (item, after))

include begins isItem reads

theorem readItems?_last (closes : skipGap false after = ']' :: rest) :
    readItems? levels (fuel + 1) text = some ([item], rest) := by
  rw [readItems?, begins]
  split
  · exact absurd rfl (isItem _)
  · simp only [reads, closes]

theorem readItems?_cons (goesOn : skipGap false after = ',' :: rest) :
    readItems? levels (fuel + 1) text =
      (readItems? levels fuel rest).map fun (items, remaining) =>
        (item :: items, remaining) := by
  rw [readItems?, begins]
  split
  · exact absurd rfl (isItem _)
  · simp only [reads, goesOn]

end Items

theorem writeText_append_ne (content rest more : Text) :
    writeText content ++ rest ≠ ']' :: more := by
  obtain ⟨first, others, written, rfl | rfl⟩ :=
    Quoted.exists_head_writeText content
  · simp [written]
  · simp [written]

theorem writeItem_eq (content : Text) :
    writeItem content =
      '\n' :: ' ' :: ' ' :: ' ' :: ' ' :: (writeText content ++ [',']) :=
  rfl

/-- The items of a list, each on a line of its own. -/
theorem readItems?_flatMap (levels : Nat) {fuel : Nat} {contents : List Text}
    (enough : contents.length < fuel) (rest : Text) :
    readItems? levels fuel (contents.flatMap writeItem ++ '\n' :: ']' :: rest) =
      some (contents.map .text, rest) := by
  induction contents generalizing fuel with
  | nil =>
      obtain ⟨fuel, rfl⟩ := Nat.exists_eq_add_one.mpr enough
      exact readItems?_close rfl
  | cons content contents inductionHypothesis =>
      obtain ⟨fuel, rfl⟩ : ∃ more, fuel = more + 1 + 1 :=
        ⟨fuel - 2, by rw [List.length_cons] at enough; omega⟩
      set others := contents.flatMap writeItem ++ '\n' :: ']' :: rest
      have shape :
          (content :: contents).flatMap writeItem ++ '\n' :: ']' :: rest =
            '\n' :: ' ' :: ' ' :: ' ' :: ' ' ::
              (writeText content ++ ',' :: others) := by
        simp only [others, List.flatMap_cons, writeItem_eq, List.cons_append,
          List.append_assoc, List.nil_append]
      have begins :
          skipGap false ('\n' :: ' ' :: ' ' :: ' ' :: ' ' ::
              (writeText content ++ ',' :: others)) =
            writeText content ++ ',' :: others :=
        skipGap_writeText content
      have stops : Quoted.Stops (',' :: others) := by
        simp [Quoted.Stops]
      rw [shape, readItems?_cons begins (writeText_append_ne _ _)
        (readValue?_writeText content stops levels fuel) rfl,
        inductionHypothesis (by rw [List.length_cons] at enough; omega)]
      rfl

/-! ## Written values -/

/-- A value is read from what is written for it behind a blank, up to the end
of the line. -/
def IsWritten (written : Text) (value : Value) : Prop :=
  ∀ fuel rest, written.length < fuel →
    readValue? greatestDepth fuel
        (skipSpaces (' ' :: (written ++ '\n' :: rest))) =
      some (value, '\n' :: rest)

theorem isWritten_writeText (content : Text) :
    IsWritten (writeText content) (.text content) := by
  intro fuel rest enough
  obtain ⟨fuel, rfl⟩ := Nat.exists_eq_add_one.mpr (Nat.zero_lt_of_lt enough)
  have stops : Quoted.Stops ('\n' :: rest) := by
    simp [Quoted.Stops]
  have skipped : skipSpaces (' ' :: (writeText content ++ '\n' :: rest)) =
      writeText content ++ '\n' :: rest := skipSpaces_writeText content
  rw [skipped, readValue?_writeText content stops]

theorem readValue?_list {items : List Value} {fuel : Nat} {text rest : Text}
    (reads : readItems? (greatestDepth - 1) fuel text = some (items, rest)) :
    readValue? greatestDepth (fuel + 1) ('[' :: text) =
      some (.array items, rest) := by
  rw [readValue?]
  dsimp only
  rw [if_neg (by decide), if_pos rfl, if_neg (by decide), reads]
  rfl

theorem length_le_length_flatMap_writeItem (contents : List Text) :
    contents.length ≤ (contents.flatMap writeItem).length := by
  induction contents with
  | nil => simp
  | cons content contents inductionHypothesis =>
      rw [List.flatMap_cons, List.length_append, List.length_cons]
      have item : 0 < (writeItem content).length := by
        rw [writeItem_eq, List.length_cons]
        omega
      omega

theorem writeTexts_cons_cons (first second : Text) (others : List Text) :
    writeTexts (first :: second :: others) =
      '[' :: ((first :: second :: others).flatMap writeItem ++ ['\n', ']']) :=
  rfl

theorem isWritten_writeTexts (contents : List Text) :
    IsWritten (writeTexts contents) (.array (contents.map .text)) := by
  intro fuel rest enough
  obtain ⟨fuel, rfl⟩ := Nat.exists_eq_add_one.mpr (Nat.zero_lt_of_lt enough)
  rcases contents with _ | ⟨first, _ | ⟨second, others⟩⟩
  · have length : (writeTexts []).length = 2 := rfl
    obtain ⟨fuel, rfl⟩ : ∃ more, fuel = more + 1 :=
      ⟨fuel - 1, by omega⟩
    exact readValue?_list (readItems?_close rfl)
  · have length : 2 ≤ (writeTexts [first]).length := by
      simp [writeTexts]
    obtain ⟨fuel, rfl⟩ : ∃ more, fuel = more + 1 + 1 :=
      ⟨fuel - 2, by omega⟩
    have stops : Quoted.Stops (']' :: '\n' :: rest) := by
      simp [Quoted.Stops]
    have shape :
        skipSpaces (' ' :: (writeTexts [first] ++ '\n' :: rest)) =
          '[' :: (writeText first ++ ']' :: '\n' :: rest) := by
      rw [writeTexts, List.append_assoc, List.append_assoc]
      rfl
    rw [shape]
    exact readValue?_list <| readItems?_last (skipGap_writeText first)
      (writeText_append_ne _ _) (readValue?_writeText first stops _ _) rfl
  · have lengths := length_le_length_flatMap_writeItem (first :: second :: others)
    have shape :
        skipSpaces (' ' :: (writeTexts (first :: second :: others) ++
            '\n' :: rest)) =
          '[' :: ((first :: second :: others).flatMap writeItem ++
            '\n' :: ']' :: '\n' :: rest) := by
      rw [writeTexts_cons_cons, List.cons_append, List.append_assoc]
      rfl
    rw [writeTexts_cons_cons, List.length_cons, List.length_append] at enough
    rw [shape]
    exact readValue?_list (readItems?_flatMap _ (by omega) _)

/-! ## Keys -/

/-- A key that is written without quotes. -/
def IsBareKey (key : Text) : Prop :=
  key ≠ [] ∧ ∀ character ∈ key, isBare character = true

instance (key : Text) : Decidable (IsBareKey key) :=
  inferInstanceAs (Decidable (_ ∧ _))

section Key

variable {key rest : Text}

theorem IsBareKey.exists_cons (isKey : IsBareKey key) :
    ∃ first more, key = first :: more ∧ isBare first = true := by
  obtain ⟨first, more, rfl⟩ := List.exists_cons_of_ne_nil isKey.1
  exact ⟨first, more, rfl, isKey.2 first List.mem_cons_self⟩

theorem ne_of_isBare {character other : Char}
    (bare : isBare character = true) (notBare : isBare other = false) :
    character ≠ other := by
  rintro rfl
  rw [bare] at notBare
  cases notBare

theorem isSpace_of_isBare {character : Char}
    (bare : isBare character = true) : isSpace character = false := by
  have noBlank : character ≠ ' ' := ne_of_isBare bare rfl
  have noTab : character ≠ '\t' := ne_of_isBare bare rfl
  simp [isSpace, noBlank, noTab]

theorem skipSpaces_key (isKey : IsBareKey key) (rest : Text) :
    skipSpaces (key ++ rest) = key ++ rest := by
  obtain ⟨first, more, rfl, bare⟩ := isKey.exists_cons
  exact skipSpaces_cons (isSpace_of_isBare bare) (more ++ rest)

variable {stop : Char} (isKey : IsBareKey key) (stops : isBare stop = false)

include isKey stops

theorem name?_append :
    name? (key ++ stop :: rest) = some (key, stop :: rest) := by
  obtain ⟨first, more, shape, bare⟩ := isKey.exists_cons
  have quotes : ¬ (first = '"' ∨ first = '\'') := by
    rintro (rfl | rfl)
    · cases bare
    · cases bare
  have taken : (key ++ stop :: rest).takeWhile isBare = key := by
    rw [List.takeWhile_append_of_pos isKey.2,
      List.takeWhile_cons_of_neg (by simp [stops]), List.append_nil]
  have dropped : (key ++ stop :: rest).dropWhile isBare = stop :: rest := by
    rw [List.dropWhile_append_of_pos isKey.2,
      List.dropWhile_cons_of_neg (by simp [stops])]
  rw [shape, List.cons_append] at taken dropped ⊢
  rw [name?, if_neg (by simpa using quotes), if_pos bare, taken, dropped]

/-- A key alone is a dotted key of one name. -/
theorem key?_append (last : ∀ more, skipSpaces (stop :: rest) ≠ '.' :: more)
    (fuel : Nat) :
    key? (fuel + 1) (key ++ stop :: rest) =
      some ([], key, skipSpaces (stop :: rest)) := by
  have names : names? (fuel + 1) (key ++ stop :: rest) =
      some ([key], skipSpaces (stop :: rest)) := by
    rw [names?, skipSpaces_key isKey, name?_append isKey stops]
    simp only [Option.bind_eq_bind, Option.bind_some]
    rfl
  rw [key?, names]
  rfl

end Key

/-! ## Tables under construction -/

namespace Entries

variable {entries front : Entries} {key : Text}

theorem item?_eq_none (absent : key ∉ entries.map Prod.fst) :
    entries.item? key = none := by
  rw [item?, Option.map_eq_none_iff, List.find?_eq_none]
  intro entry isEntry same
  exact absent (List.mem_map.mpr ⟨entry, isEntry, by simpa using same⟩)

theorem item?_append (absent : key ∉ front.map Prod.fst) (rest : Entries) :
    item? (front ++ rest) key = rest.item? key := by
  have notFound : front.find? (fun entry => entry.1 == key) = none := by
    simpa [item?] using item?_eq_none absent
  rw [item?, List.find?_append, notFound, Option.none_or, item?]

theorem put_append (absent : key ∉ front.map Prod.fst) (rest : Entries)
    (item : Item) : put (front ++ rest) key item = front ++ rest.put key item := by
  induction front with
  | nil => rfl
  | cons entry front inductionHypothesis =>
      rw [List.map_cons, List.mem_cons, not_or] at absent
      rw [List.cons_append, put, if_neg (Ne.symm absent.1),
        inductionHypothesis absent.2, List.cons_append]

theorem put_of_absent (absent : key ∉ entries.map Prod.fst) (item : Item) :
    entries.put key item = entries ++ [(key, item)] := by
  simpa [put] using put_append absent [] item

theorem openTable_of_absent (absent : key ∉ entries.map Prod.fst) :
    entries.openTable [] key =
      some (entries ++ [(key, .table .stated [])]) := by
  rw [openTable, within, item?_eq_none absent]
  exact congrArg some (put_of_absent absent _)

/-- A value is put at the end of the table that was opened last. -/
theorem addUnder_last {name : Text} {inner : Entries}
    (absentTable : name ∉ front.map Prod.fst)
    (absent : key ∉ inner.map Prod.fst) (value : Value) :
    addUnder [name] [] key value (front ++ [(name, .table .stated inner)]) =
      some (front ++
        [(name, .table .stated (inner ++ [(key, .value value)]))]) := by
  have found : item? (front ++ [(name, .table .stated inner)]) name =
      some (.table .stated inner) := by
    rw [item?_append absentTable]
    simp [item?]
  have added : addDotted [] key value inner =
      some (inner ++ [(key, .value value)]) := by
    rw [addDotted, List.isEmpty_nil, if_pos rfl, addValue,
      item?_eq_none absent]
    exact congrArg some (put_of_absent absent _)
  rw [addUnder, within, found]
  simp only [within, added, Option.map_some, put_append absentTable]
  simp [put]

end Entries

/-! ## Lines -/

section Step

variable {fuel : Nat} {progress changed : Progress} {after : Text}

theorem readLines?_header {text : Text}
    (notRow : ∀ more, text ≠ '[' :: more)
    (reads : readHeader? (fuel + 1) progress text = some (changed, after)) :
    readLines? (fuel + 1) progress ('[' :: text) =
      readLines? fuel changed after := by
  rw [readLines?, skipSpaces_cons rfl]
  split
  · contradiction
  · rename_i isRow
    exact absurd (List.cons.inj isRow).2 (notRow _)
  · rename_i isHeader
    obtain rfl := (List.cons.inj isHeader).2
    simp only [reads]
  · rename_i notBracket isFirst
    exact absurd (List.cons.inj isFirst).1.symm notBracket

theorem readLines?_pair {first : Char} {more : Text}
    (bare : isBare first = true)
    (reads : readPair? (fuel + 1) progress (first :: more) =
      some (changed, after)) :
    readLines? (fuel + 1) progress (first :: more) =
      readLines? fuel changed after := by
  have notSpecial : ¬ (first = '#' ∨ first = '\n' ∨ first = '\r') := by
    rintro (rfl | rfl | rfl)
    · cases bare
    · cases bare
    · cases bare
  rw [readLines?, skipSpaces_cons (isSpace_of_isBare bare)]
  split
  · contradiction
  · rename_i isRow
    cases (List.cons.inj isRow).1
    cases bare
  · rename_i isHeader
    cases (List.cons.inj isHeader).1
    cases bare
  · rename_i isFirst
    obtain ⟨rfl, rfl⟩ := List.cons.inj isFirst
    rw [if_neg (by simpa [or_assoc] using notSpecial), reads]

end Step

/-- A text is read to its end with any fuel that is more than its length. -/
def ReadsTo (progress : Progress) (text : Text) (result : Progress) : Prop :=
  ∀ fuel, text.length < fuel → readLines? fuel progress text = some result

namespace ReadsTo

variable {progress result : Progress} {entries : Entries} {key rest : Text}

theorem nil (progress : Progress) : ReadsTo progress [] progress := by
  intro fuel enough
  obtain ⟨fuel, rfl⟩ := Nat.exists_eq_add_one.mpr (Nat.zero_lt_of_lt enough)
  rfl

theorem blankLine (reads : ReadsTo progress rest result) :
    ReadsTo progress ('\n' :: rest) result := by
  intro fuel enough
  obtain ⟨fuel, rfl⟩ := Nat.exists_eq_add_one.mpr (Nat.zero_lt_of_lt enough)
  rw [List.length_cons] at enough
  have goesOn : readLines? (fuel + 1) progress ('\n' :: rest) =
      readLines? fuel progress rest := rfl
  rw [goesOn, reads fuel (by omega)]

theorem header (isKey : IsBareKey key)
    (opened : progress.entries.openTable [] key = some entries)
    (reads : ReadsTo ⟨entries, [key]⟩ rest result) :
    ReadsTo progress (writeHeader key ++ rest) result := by
  intro fuel enough
  obtain ⟨fuel, rfl⟩ := Nat.exists_eq_add_one.mpr (Nat.zero_lt_of_lt enough)
  have shape : writeHeader key ++ rest =
      '[' :: (key ++ ']' :: '\n' :: rest) := by
    simp [writeHeader]
  have atKey : key? (fuel + 1) (key ++ ']' :: '\n' :: rest) =
      some ([], key, ']' :: '\n' :: rest) :=
    key?_append isKey rfl (by simp [skipSpaces, isSpace]) fuel
  have atHeader : readHeader? (fuel + 1) progress (key ++ ']' :: '\n' :: rest) =
      some (⟨entries, [key]⟩, rest) := by
    rw [readHeader?, atKey]
    simp only [Option.bind_eq_bind, Option.bind_some, opened]
    rfl
  -- A second bracket would be the first character of the key.
  have notRow (more : Text) : key ++ ']' :: '\n' :: rest ≠ '[' :: more := by
    obtain ⟨first, others, rfl, bare⟩ := isKey.exists_cons
    intro same
    exact ne_of_isBare bare rfl (List.cons.inj same).1
  rw [shape] at enough ⊢
  simp only [List.length_append, List.length_cons] at enough
  rw [readLines?_header notRow atHeader, reads fuel (by omega)]

theorem line {written : Text} {value : Value} (isKey : IsBareKey key)
    (isWritten : IsWritten written value)
    (added : progress.entries.addUnder progress.header [] key value =
      some entries)
    (reads : ReadsTo { progress with entries } rest result) :
    ReadsTo progress (writeLine key written ++ rest) result := by
  intro fuel enough
  obtain ⟨fuel, rfl⟩ := Nat.exists_eq_add_one.mpr (Nat.zero_lt_of_lt enough)
  have shape : writeLine key written ++ rest =
      key ++ ' ' :: '=' :: ' ' :: (written ++ '\n' :: rest) := by
    simp [writeLine]
  have atKey : key? (fuel + 1)
      (key ++ ' ' :: '=' :: ' ' :: (written ++ '\n' :: rest)) =
      some ([], key, '=' :: ' ' :: (written ++ '\n' :: rest)) :=
    key?_append isKey rfl (by simp [skipSpaces, isSpace]) fuel
  rw [shape] at enough ⊢
  simp only [List.length_append, List.length_cons] at enough
  have atPair : readPair? (fuel + 1) progress
      (key ++ ' ' :: '=' :: ' ' :: (written ++ '\n' :: rest)) =
      some ({ progress with entries }, rest) := by
    rw [readPair?, atKey]
    simp only [Option.bind_eq_bind, Option.bind_some,
      isWritten (fuel + 1) rest (by omega), added]
    rfl
  obtain ⟨first, more, rfl, bare⟩ := isKey.exists_cons
  rw [List.cons_append] at atPair ⊢
  rw [readLines?_pair bare atPair, reads fuel (by omega)]

end ReadsTo

/-! ## Tables -/

/-- A line of a table: a key without quotes and a value as it is written. -/
structure Line where
  key : Text
  written : Text
  value : Value
  isKey : IsBareKey key
  isWritten : IsWritten written value

namespace Line

def text (line : Line) : Text :=
  writeLine line.key line.written

def entry (line : Line) : Text × Item :=
  (line.key, .value line.value)

def ofText (key : Text) (isKey : IsBareKey key) (content : Text) : Line :=
  ⟨key, writeText content, .text content, isKey, isWritten_writeText content⟩

def ofTexts (key : Text) (isKey : IsBareKey key) (contents : List Text) :
    Line :=
  ⟨key, writeTexts contents, .array (contents.map .text), isKey,
    isWritten_writeTexts contents⟩

end Line

theorem Item.tableEntries_lines (lines : List Line) :
    Item.tableEntries (lines.map Line.entry) =
      lines.map fun line => (line.key, line.value) := by
  induction lines with
  | nil => rfl
  | cons line lines inductionHypothesis =>
      rw [List.map_cons, List.map_cons, Line.entry, Item.tableEntries,
        inductionHypothesis, Item.toValue]

namespace ReadsTo

variable {result : Progress} {front : Entries} {name rest : Text}
  {lines : List Line}

/-- The lines of a table go to the end of it, in their order. -/
theorem tableLines {inner : Entries} (absent : name ∉ front.map Prod.fst)
    (distinct : (inner.map Prod.fst ++ lines.map Line.key).Nodup)
    (reads : ReadsTo
      ⟨front ++ [(name, .table .stated (inner ++ lines.map Line.entry))],
        [name]⟩ rest result) :
    ReadsTo ⟨front ++ [(name, .table .stated inner)], [name]⟩
      (lines.flatMap Line.text ++ rest) result := by
  induction lines generalizing inner with
  | nil =>
      simpa using reads
  | cons line lines inductionHypothesis =>
      have absentKey : line.key ∉ inner.map Prod.fst := fun isKey =>
        (List.nodup_append.mp distinct).2.2 _ isKey _
          (List.mem_map.mpr ⟨line, List.mem_cons_self, rfl⟩) rfl
      have readsLines : ReadsTo
          ⟨front ++ [(name, .table .stated (inner ++ [line.entry]))], [name]⟩
          (lines.flatMap Line.text ++ rest) result :=
        inductionHypothesis (by simpa [Line.entry] using distinct)
          (by simpa using reads)
      rw [List.flatMap_cons, List.append_assoc, Line.text]
      exact .line line.isKey line.isWritten
        (Entries.addUnder_last absent absentKey line.value) readsLines

theorem table {header : List Text} (isKey : IsBareKey name)
    (absent : name ∉ front.map Prod.fst)
    (distinct : (lines.map Line.key).Nodup)
    (reads : ReadsTo
      ⟨front ++ [(name, .table .stated (lines.map Line.entry))], [name]⟩
      rest result) :
    ReadsTo ⟨front, header⟩
      (writeHeader name ++ (lines.flatMap Line.text ++ rest)) result :=
  .header isKey (Entries.openTable_of_absent absent)
    (tableLines absent distinct reads)

end ReadsTo

theorem read?_eq {document : Text} {result : Progress}
    (noMark : document.head? ≠ some '\ufeff')
    (reads : ReadsTo ⟨[], []⟩ document result) :
    read? document = some (Item.tableEntries result.entries) := by
  have whole : Text.dropOneStart '\ufeff' document = document :=
    if_neg noMark
  rw [read?, whole, reads (3 * document.length + 3) (by omega)]
  rfl

end ComponentDocs.Toml
