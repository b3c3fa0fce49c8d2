import ComponentDocs.Proofs.Text.Lines
import ComponentDocs.Proofs.Text.Trim

/-!
Two kinds of line ends: the same text with a carriage return before each line
feed has the same lines with the same trimmed text.
-/

namespace ComponentDocs.Text

/-- A text is a line without line feed, or such a line and a text below it. -/
theorem line_induction {motive : Text → Prop} (text : Text)
    (last : ∀ line, '\n' ∉ line → motive line)
    (above : ∀ line rest, '\n' ∉ line → motive rest →
      motive (line ++ '\n' :: rest)) : motive text := by
  induction size : text.length using Nat.strongRecOn generalizing text with
  | ind length inductionHypothesis =>
    by_cases occurs : '\n' ∈ text
    · obtain ⟨line, rest, rfl, plain⟩ := List.eq_append_cons_of_mem occurs
      rw [List.length_append, List.length_cons] at size
      exact above line rest plain
        (inductionHypothesis rest.length (by omega) rest rfl)
    · exact last text occurs

/-- The text with a carriage return before each line feed. -/
def withReturns (text : Text) : Text :=
  text.flatMap fun character =>
    if character = '\n' then ['\r', '\n'] else [character]

theorem withReturns_append (first second : Text) :
    withReturns (first ++ second) = withReturns first ++ withReturns second :=
  List.flatMap_append

theorem withReturns_flatten (lines : List Text) :
    withReturns lines.flatten = (lines.map withReturns).flatten := by
  induction lines with
  | nil =>
      rfl
  | cons line rest inductionHypothesis =>
      rw [List.flatten_cons, withReturns_append, inductionHypothesis,
        List.map_cons, List.flatten_cons]

theorem withReturns_of_line {line : Text} (plain : '\n' ∉ line) :
    withReturns line = line := by
  induction line with
  | nil =>
      rfl
  | cons first rest inductionHypothesis =>
      obtain ⟨notFeed, plainRest⟩ := not_or.mp (mt List.mem_cons.mpr plain)
      have single : withReturns [first] = [first] := by
        simp [withReturns, Ne.symm notFeed]
      rw [← List.singleton_append, withReturns_append, single,
        inductionHypothesis plainRest]

theorem withReturns_line_append {line : Text} (plain : '\n' ∉ line)
    (rest : Text) :
    withReturns (line ++ '\n' :: rest) =
      line ++ ['\r'] ++ '\n' :: withReturns rest := by
  rw [withReturns_append, withReturns_of_line plain, List.append_assoc]
  rfl

theorem dropWhile_withReturns {test : Char → Bool}
    (notReturn : test '\r' = false) (notFeed : test '\n' = false)
    (text : Text) :
    (withReturns text).dropWhile test = withReturns (text.dropWhile test) := by
  induction text with
  | nil =>
      rfl
  | cons first rest inductionHypothesis =>
      by_cases isFeed : first = '\n'
      · subst isFeed
        rw [List.dropWhile_cons_of_neg (by simp [notFeed])]
        exact List.dropWhile_cons_of_neg (by simp [notReturn])
      · have shape : withReturns (first :: rest) = first :: withReturns rest := by
          simp [withReturns, isFeed]
        rw [shape]
        by_cases passes : test first = true
        · rw [List.dropWhile_cons_of_pos passes,
            List.dropWhile_cons_of_pos passes, inductionHypothesis]
        · rw [List.dropWhile_cons_of_neg passes,
            List.dropWhile_cons_of_neg passes, shape]

/-! ## Lines -/

theorem not_mem_of_mem_linesWithEnds {text line : Text} (plain : '\n' ∉ text)
    (member : line ∈ linesWithEnds text) : '\n' ∉ line := by
  intro inLine
  rw [← flatten_linesWithEnds text] at plain
  exact plain (List.mem_flatten.mpr ⟨line, member, inLine⟩)

theorem linesWithEnds_withReturns (text : Text) :
    linesWithEnds (withReturns text) =
      (linesWithEnds text).map withReturns := by
  induction text using line_induction with
  | last line plain =>
      have same (each : Text) (member : each ∈ linesWithEnds line) :
          withReturns each = each :=
        withReturns_of_line (not_mem_of_mem_linesWithEnds plain member)
      rw [withReturns_of_line plain, List.map_congr_left same, List.map_id']
  | above line rest plain inductionHypothesis =>
      have plainReturn : '\n' ∉ line ++ ['\r'] := by
        simp [plain]
      rw [withReturns_line_append plain, linesWithEnds_append plainReturn,
        linesWithEnds_append plain, List.map_cons, inductionHypothesis,
        withReturns_line_append plain]
      rfl

/-- The carriage return of a line is trimmed as its line feed is. -/
theorem trim_withReturns {text line : Text}
    (member : line ∈ linesWithEnds text) :
    trim (withReturns line) = trim line := by
  induction text using line_induction with
  | last text plain =>
      rw [withReturns_of_line (not_mem_of_mem_linesWithEnds plain member)]
  | above first rest plain inductionHypothesis =>
      rw [linesWithEnds_append plain] at member
      rcases List.mem_cons.mp member with rfl | isLater
      · have withoutEnd (ending : Text)
            (blank : ∀ character ∈ ending, isBlank character = true) :
            trim (first ++ ending) = trim first :=
          trim_append_append [] (by simp) first blank
        rw [withReturns_line_append plain, List.append_assoc,
          withoutEnd _ (by decide), withoutEnd _ (by decide)]
      · exact inductionHypothesis isLater

end ComponentDocs.Text
