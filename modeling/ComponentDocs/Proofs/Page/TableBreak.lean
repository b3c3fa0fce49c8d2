import ComponentDocs.Page.Table
import ComponentDocs.Proofs.Page.OpenSection
import ComponentDocs.Proofs.Text.Join

/-!
The table of a text with a code block in it. The rows are the same when no
table is open where the code block stands and none of its lines can be the
header row of one.
-/

namespace ComponentDocs.Page

open ComponentDocs.Markdown

/-! ## Visible lines in two parts -/

theorem visibleLines_nil : visibleLines [] = [] := by
  rfl

theorem visibleLines_append_feed (before after : Text) :
    visibleLines (before ++ '\n' :: after) =
      visibleLines before ++ visibleLines after := by
  rw [visibleLines, List.splitOn_append_cons_self, List.map_append,
    List.filter_append]
  rfl

theorem visibleLines_append {before : Text} (starts : StartsLine before)
    (after : Text) :
    visibleLines (before ++ after) =
      visibleLines before ++ visibleLines after := by
  rcases starts with rfl | feed
  · rfl
  · obtain ⟨front, rfl⟩ := List.getLast?_eq_some_iff.mp feed
    rw [List.append_assoc, List.singleton_append, visibleLines_append_feed,
      visibleLines_append_feed, visibleLines_nil, List.append_nil]

theorem visibleLines_of_line {line : Text} (plain : '\n' ∉ line) :
    visibleLines line = [Text.trim line].filter (!·.isEmpty) := by
  rw [visibleLines, List.splitOn_eq_singleton plain, List.map_singleton]

/-- A blank at the end of a text shows on none of its lines. -/
theorem visibleLines_concat_blank {text : Text} {character : Char}
    (blank : Text.isBlank character = true) :
    visibleLines (text ++ [character]) = visibleLines text := by
  by_cases isFeed : character = '\n'
  · rw [isFeed, visibleLines_append_feed, visibleLines_nil, List.append_nil]
  -- The blank stands on the last line, which is below the last line feed.
  induction size : text.length using Nat.strongRecOn
    generalizing text with
  | ind length inductionHypothesis =>
    by_cases occurs : '\n' ∈ text
    · obtain ⟨before, after, rfl⟩ := List.append_of_mem occurs
      rw [List.length_append, List.length_cons] at size
      rw [List.append_assoc, List.cons_append, visibleLines_append_feed,
        visibleLines_append_feed,
        inductionHypothesis after.length (by omega) rfl]
    · have plain : '\n' ∉ text ++ [character] := by
        simp [occurs, Ne.symm isFeed]
      have sameTrim : Text.trim (text ++ [character]) = Text.trim text :=
        Text.trim_append_append [] (fun _ member => nomatch member) text
          fun _ member => by rwa [List.mem_singleton.mp member]
      rw [visibleLines_of_line plain, visibleLines_of_line occurs, sameTrim]

theorem visibleLines_append_blank {text ends : Text}
    (blank : ∀ character ∈ ends, Text.isBlank character = true) :
    visibleLines (text ++ ends) = visibleLines text := by
  induction ends generalizing text with
  | nil =>
      rw [List.append_nil]
  | cons first rest inductionHypothesis =>
      rw [List.forall_mem_cons] at blank
      rw [List.append_cons, inductionHypothesis blank.2,
        visibleLines_concat_blank blank.1]

theorem visibleLines_trimLineEnds (text : Text) :
    visibleLines (trimLineEnds text) = visibleLines text := by
  obtain ⟨ends, parts, areEnds, -⟩ := exists_trimLineEnds text
  conv_rhs => rw [parts]
  refine (visibleLines_append_blank fun character member => ?_).symm
  rcases areEnds character member with rfl | rfl <;> rfl

/-! ## Tables in two parts -/

/-- The lines of the first table among lines: from the first header row on, as
long as there are pipes. -/
def tableLines (options : TableOptions) (lines : List Text) : List Text :=
  (lines.dropWhile fun line => !isHeaderLine options line).takeWhile
    (·.contains '|')

theorem readTable_eq_rowsOfLines (options : TableOptions) (text : Text) :
    readTable options text =
      if (visibleLines text).length < 3 then []
      else rowsOfLines (tableLines options (visibleLines text)) :=
  rfl

theorem readTable_trimLineEnds (options : TableOptions) (text : Text) :
    readTable options (trimLineEnds text) = readTable options text := by
  rw [readTable_eq_rowsOfLines, readTable_eq_rowsOfLines,
    visibleLines_trimLineEnds]

/-- Whether lines end within a table. -/
def endsInTable (options : TableOptions) (lines : List Text) : Bool :=
  let table := lines.dropWhile fun line => !isHeaderLine options line
  !table.isEmpty && table.all (·.contains '|')

/-- Above its table a section ends in none. -/
theorem endsInTable_of_headless {options : TableOptions} {lines : List Text}
    (headless : ∀ line ∈ lines, isHeaderLine options line = false) :
    endsInTable options lines = false := by
  have skipped :
      lines.dropWhile (fun line => !isHeaderLine options line) = [] :=
    List.dropWhile_eq_nil_iff.mpr fun line member => by
      simp [headless line member]
  rw [endsInTable, skipped]
  rfl

/-- Below a table that has ended no line counts. -/
theorem tableLines_append_of_headed {options : TableOptions}
    {before : List Text} (apart : endsInTable options before = false)
    (headed : before.any (isHeaderLine options) = true) (after : List Text) :
    tableLines options (before ++ after) = tableLines options before := by
  have started :
      (before.dropWhile fun line => !isHeaderLine options line).isEmpty =
        false := by
    obtain ⟨line, member, isHeader⟩ := List.any_eq_true.mp headed
    rw [Bool.eq_false_iff, ne_eq, List.isEmpty_iff, List.dropWhile_eq_nil_iff]
    intro headless
    simpa [isHeader] using headless line member
  unfold endsInTable at apart
  rw [tableLines, tableLines, List.dropWhile_append, started,
    if_neg Bool.false_ne_true]
  dsimp only at apart
  generalize before.dropWhile _ = table at apart started ⊢
  have ended : ¬ table.all (·.contains '|') = true := by
    simpa [started] using apart
  have short :
      ¬ (table.takeWhile (·.contains '|')).length = table.length := by
    intro whole
    apply ended
    rw [List.all_eq_true]
    exact List.takeWhile_eq_self_iff.mp
      ((List.takeWhile_prefix _).eq_of_length whole)
  rw [List.takeWhile_append, if_neg short]

/-- Above its header row a table has no lines. -/
theorem tableLines_append_of_headless {options : TableOptions}
    {before : List Text}
    (headless : ∀ line ∈ before, isHeaderLine options line = false)
    (after : List Text) :
    tableLines options (before ++ after) = tableLines options after := by
  rw [tableLines, tableLines, List.dropWhile_append_of_pos]
  intro line member
  simp [headless line member]

/-- Lines between two tables, or before the first one, belong to none when
they hold no header row. -/
theorem tableLines_insert {options : TableOptions}
    {before inside : List Text} (after : List Text)
    (apart : endsInTable options before = false)
    (headless : ∀ line ∈ inside, isHeaderLine options line = false) :
    tableLines options (before ++ (inside ++ after)) =
      tableLines options (before ++ after) := by
  cases headed : before.any (isHeaderLine options) with
  | true =>
      rw [tableLines_append_of_headed apart headed,
        tableLines_append_of_headed apart headed]
  | false =>
      have headlessBefore :
          ∀ line ∈ before, isHeaderLine options line = false := by
        simpa using headed
      rw [tableLines_append_of_headless headlessBefore,
        tableLines_append_of_headless headlessBefore,
        tableLines_append_of_headless headless]

/-- No table of a text reaches across the place between its parts, and the
text has the three lines of a table or no row below its header row. -/
structure TableStands (options : TableOptions) (lead rest : Text) : Prop where
  apart : endsInTable options (visibleLines lead) = false
  enough : 3 ≤ (visibleLines (lead ++ rest)).length ∨
    rowsOfLines (tableLines options (visibleLines (lead ++ rest))) = []

theorem readTable_insert {options : TableOptions} {fenced : FencedCode}
    {lead rest : Text} (starts : StartsLine lead)
    (stands : TableStands options lead rest)
    (headless : ∀ line ∈ visibleLines fenced.text,
      isHeaderLine options line = false) :
    readTable options (lead ++ (fenced.text ++ rest)) =
      readTable options (lead ++ rest) := by
  have sameTable :
      tableLines options (visibleLines (lead ++ (fenced.text ++ rest))) =
        tableLines options (visibleLines (lead ++ rest)) := by
    rw [visibleLines_append starts, visibleLines_append starts,
      visibleLines_append fenced.startsLine_text]
    exact tableLines_insert _ stands.apart headless
  have longer :
      (visibleLines (lead ++ rest)).length ≤
        (visibleLines (lead ++ (fenced.text ++ rest))).length := by
    rw [visibleLines_append starts, visibleLines_append starts,
      visibleLines_append fenced.startsLine_text]
    simp only [List.length_append]
    omega
  rw [readTable_eq_rowsOfLines, readTable_eq_rowsOfLines, sameTable]
  rcases stands.enough with enough | noRows
  · rw [if_neg (by omega), if_neg (by omega)]
  · rw [noRows, ite_self, ite_self]

/-- A code block in a section changes no table of a section inside it, when
none reaches across its place and none of its lines can be a header row. -/
theorem readTable_sectionText_insert {options : TableOptions}
    {fenced : FencedCode} {above below outer lead : Text} {level : Nat}
    (sample : SectionTakesCode fenced above below outer level lead)
    {inner : Text}
    (stands : ∀ deeper text,
      openSection? lead inner = some (deeper, text) →
        TableStands options text
          (sectionRest deeper (shownRest level below)))
    (headless : ∀ line ∈ visibleLines fenced.text,
      isHeaderLine options line = false) :
    readTable options
        (sectionText (above ++ (fenced.text ++ below)) outer inner) =
      readTable options (sectionText (above ++ below) outer inner) := by
  rw [sectionText, sectionText,
    block?_insert_of_shown sample.place sample.opened sample.shown,
    block?_of_shown sample.place.splits sample.opened sample.shown]
  dsimp only
  cases opened : openSection? lead inner with
  | none =>
      rw [block?_insert sample.inside opened]
  | some found =>
      obtain ⟨deeper, text⟩ := found
      have starts : StartsLine text :=
        startsLine_of_openSection? sample.inside.starts opened
      rw [block?_of_open sample.inside.splits_insert opened,
        block?_of_open sample.inside.splits opened, sectionRest_insert,
        Option.getD_some, Option.getD_some, readTable_trimLineEnds,
        readTable_trimLineEnds]
      exact readTable_insert starts (stands deeper text opened) headless

end ComponentDocs.Page
