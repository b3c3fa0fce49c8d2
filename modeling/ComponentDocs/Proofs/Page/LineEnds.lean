import ComponentDocs.Proofs.Page.FrontMatter
import ComponentDocs.Proofs.Page.TableBreak
import ComponentDocs.Proofs.Text.LineEnds

/-!
Pages with carriage returns before their line feeds: their tables have the same
rows, their front matter has the same fields or the same failure, and their
bodies differ in the line ends alone.
-/

namespace ComponentDocs.Page

open Text (withReturns)

/-! ## Tables -/

theorem visibleLines_withReturns (text : Text) :
    visibleLines (withReturns text) = visibleLines text := by
  induction text using Text.line_induction with
  | last line plain =>
      rw [Text.withReturns_of_line plain]
  | above line rest plain inductionHypothesis =>
      rw [Text.withReturns_line_append plain, visibleLines_append_feed,
        visibleLines_append_feed, visibleLines_concat_blank (by decide),
        inductionHypothesis]

theorem readTable_withReturns (options : TableOptions) (text : Text) :
    readTable options (withReturns text) = readTable options text := by
  rw [readTable, visibleLines_withReturns, readTable]

/-! ## Front matter -/

namespace FrontMatter

section Line

variable {line other : Text} (same : Text.trim line = Text.trim other)

include same

theorem isMark_congr : isMark line = isMark other := by
  rw [isMark, same, isMark]

/-- Of a line only what trimming leaves is read. -/
theorem readLine_congr (front : FrontMatter) :
    front.readLine line = front.readLine other := by
  rw [readLine, field?, same, readLine, field?]

end Line

theorem readLines_map_withReturns (front : FrontMatter) {lines : List Text}
    (each : ∀ line ∈ lines, Text.trim (withReturns line) = Text.trim line) :
    readLines front (lines.map withReturns) =
      (readLines front lines).map (Prod.map id (List.map withReturns)) := by
  induction lines generalizing front with
  | nil =>
      rfl
  | cons line rest inductionHypothesis =>
      obtain ⟨ofLine, ofRest⟩ := List.forall_mem_cons.mp each
      rw [List.map_cons, readLines, readLines, isMark_congr ofLine,
        readLine_congr ofLine]
      by_cases marked : isMark line = true
      · rw [if_pos marked, if_pos marked]
        rfl
      · rw [if_neg marked, if_neg marked, inductionHypothesis _ ofRest]

theorem read_withReturns (page : Text) :
    read (withReturns page) =
      (read page).map (Prod.map id withReturns) := by
  have marks :
      (withReturns page).dropWhile (· == '\ufeff') =
        withReturns (page.dropWhile (· == '\ufeff')) :=
    Text.dropWhile_withReturns (by decide) (by decide) page
  unfold read
  rw [marks]
  generalize page.dropWhile (· == '\ufeff') = text
  dsimp only
  rw [Text.linesWithEnds_withReturns]
  have each (line : Text) (member : line ∈ Text.linesWithEnds text) :
      Text.trim (withReturns line) = Text.trim line :=
    Text.trim_withReturns member
  cases shape : Text.linesWithEnds text with
  | nil =>
      rfl
  | cons first rest =>
      rw [shape] at each
      obtain ⟨ofFirst, ofRest⟩ := List.forall_mem_cons.mp each
      simp only [List.map_cons, isMark_congr ofFirst,
        readLines_map_withReturns _ ofRest]
      by_cases marked : isMark first = true
      · rw [if_pos marked, if_pos marked]
        cases readLines empty rest with
        | none =>
            rfl
        | some parts =>
            rw [Option.map_some]
            exact congrArg (fun body => Except.ok (parts.1, body))
              (Text.withReturns_flatten parts.2).symm
      · rw [if_neg marked, if_neg marked]
        rfl

end FrontMatter

/-- A carriage return before each line feed changes no row of a table and no
field of a front matter, and no failure of reading one; the body has the same
carriage returns. -/
theorem read_alike_withReturns (text : Text) :
    (∀ options, readTable options (withReturns text) =
        readTable options text) ∧
      FrontMatter.read (withReturns text) =
        match FrontMatter.read text with
        | .ok (front, body) => .ok (front, withReturns body)
        | .error failure => .error failure := by
  refine ⟨fun options => readTable_withReturns options text, ?_⟩
  rw [FrontMatter.read_withReturns]
  cases FrontMatter.read text <;> rfl

/-- A quoted value, a closing mark and a body without a line feed at its end. -/
example :
    FrontMatter.read "---\r\ntitle: \"A: b\"\r\n---\r\n# A\r\nb".toList =
      .ok (⟨[("title".toList, "A: b".toList)]⟩, "# A\r\nb".toList) := by
  decide +kernel

end ComponentDocs.Page
