import ComponentDocs.Markdown.Line
import Mathlib.Data.List.Basic
import Mathlib.Data.List.Induction

/-!
The lines of a text as a relation: which lines a text has from an offset on.
-/

namespace ComponentDocs.Markdown

/-- Whether every carriage return in a text stands before a line feed. -/
def returnsFed : Text → Bool
  | [] => true
  | '\r' :: '\n' :: rest => returnsFed rest
  | '\r' :: _ => false
  | _ :: rest => returnsFed rest

theorem returnsFed_append {first : Text} (second : Text)
    (closed : first.getLast? ≠ some '\r') :
    returnsFed (first ++ second) = (returnsFed first && returnsFed second) := by
  fun_induction returnsFed first with
  | case1 =>
      rfl
  | case2 rest inductionHypothesis =>
      rw [List.cons_append, List.cons_append, returnsFed,
        inductionHypothesis]
      intro ends
      apply closed
      simp [List.getLast?_cons, ends]
  | case3 rest notFed =>
      cases rest with
      | nil =>
          exact absurd rfl closed
      | cons head tail =>
          have notFeed : head ≠ '\n' := fun equality =>
            notFed tail (by rw [equality])
          rw [List.cons_append, List.cons_append,
            returnsFed.eq_3 _ fun _ equality =>
              notFeed (List.cons.inj equality).1]
          rfl
  | case4 character rest notFed notReturn inductionHypothesis =>
      have closedRest : rest.getLast? ≠ some '\r' := by
        intro ends
        apply closed
        simp [List.getLast?_cons, ends]
      rw [List.cons_append, returnsFed.eq_4 character _
        (fun _ equality => absurd equality notReturn) notReturn,
        inductionHypothesis closedRest]

def Line.shift (amount : Nat) (line : Line) : Line :=
  { line with start := line.start + amount }

/-- A text on a single line. -/
structure IsPlain (content : Text) : Prop where
  noFeed : '\n' ∉ content
  noReturn : '\r' ∉ content

theorem isPlain_nil : IsPlain [] :=
  ⟨List.not_mem_nil, List.not_mem_nil⟩

theorem IsPlain.cons {content : Text} {character : Char}
    (plain : IsPlain content) (notFeed : character ≠ '\n')
    (notReturn : character ≠ '\r') : IsPlain (character :: content) := by
  constructor
  · simpa using ⟨notFeed.symm, plain.noFeed⟩
  · simpa using ⟨notReturn.symm, plain.noReturn⟩

theorem IsPlain.reverse {content : Text} (plain : IsPlain content) :
    IsPlain content.reverse := by
  constructor
  · simpa using plain.noFeed
  · simpa using plain.noReturn

theorem IsPlain.isFed {content : Text} (plain : IsPlain content) :
    returnsFed content = true := by
  induction content with
  | nil =>
      rfl
  | cons head tail inductionHypothesis =>
      have notReturn : head ≠ '\r' := fun equality =>
        plain.noReturn (by simp [equality])
      have plainTail : IsPlain tail :=
        ⟨fun member => plain.noFeed (List.mem_cons_of_mem _ member),
          fun member => plain.noReturn (List.mem_cons_of_mem _ member)⟩
      rw [returnsFed.eq_4 head tail
        (fun _ equality => absurd equality notReturn) notReturn,
        inductionHypothesis plainTail]

/-- What ends a line: a line feed, or a carriage return and a line feed. -/
def IsEnding (ending : Text) : Prop :=
  ending = ['\n'] ∨ ending = ['\r', '\n']

/-- The lines of a text that starts at an offset, where every carriage return
stands before a line feed. -/
inductive HasLines : Nat → Text → List Line → Prop
  | nil (start : Nat) : HasLines start [] []
  | last (start : Nat) {content : Text} (plain : IsPlain content)
      (nonempty : content ≠ []) :
      HasLines start content [⟨start, content, []⟩]
  | line (start : Nat) {content ending rest : Text} {lines : List Line}
      (plain : IsPlain content) (ends : IsEnding ending)
      (below :
        HasLines (start + content.length + ending.length) rest lines) :
      HasLines start (content ++ ending ++ rest)
        (⟨start, content, ending⟩ :: lines)

/-! ## Cutting -/

theorem hasLines_cut (start : Nat) {text : Text}
    (fed : returnsFed text = true) :
    HasLines start text (Line.cut start [] text) := by
  -- Cutting holds the line so far, in reverse.
  have general (held : Text) (plain : IsPlain held) :
      HasLines start (held.reverse ++ text) (Line.cut start held text) := by
    fun_induction returnsFed text generalizing start held with
    | case1 =>
        rw [Line.cut, List.append_nil]
        cases held with
        | nil =>
            exact .nil start
        | cons last before =>
            exact .last start plain.reverse (by simp)
    | case2 rest inductionHypothesis =>
        have below := inductionHypothesis
          (start + held.length + 2) fed [] isPlain_nil
        rw [Line.cut]
        have parts : held.reverse ++ '\r' :: '\n' :: rest =
            held.reverse ++ ['\r', '\n'] ++ rest := by
          simp
        rw [parts]
        refine .line start plain.reverse (.inr rfl) ?_
        simpa using below
    | case3 rest =>
        exact absurd fed (by decide)
    | case4 character rest notFed notReturn inductionHypothesis =>
        by_cases isFeed : character = '\n'
        · subst isFeed
          have below := inductionHypothesis
            (start + held.length + 1) fed [] isPlain_nil
          rw [Line.cut]
          have parts : held.reverse ++ '\n' :: rest =
              held.reverse ++ ['\n'] ++ rest := by
            simp
          rw [parts]
          refine .line start plain.reverse (.inl rfl) ?_
          simpa using below
        · have isReturn : character ≠ '\r' := fun equality =>
            notReturn equality
          have longer := inductionHypothesis start fed (character :: held)
            (plain.cons isFeed isReturn)
          rw [Line.cut.eq_5 start held character rest isFeed
            (fun _ equality => absurd equality isReturn) isReturn]
          simpa using longer
  exact general [] isPlain_nil

theorem cut_append_of_isPlain (start : Nat) (held : Text) {content : Text}
    (plain : IsPlain content) (rest : Text) :
    Line.cut start held (content ++ rest) =
      Line.cut start (content.reverse ++ held) rest := by
  induction content generalizing held with
  | nil =>
      rfl
  | cons head tail inductionHypothesis =>
      have notFeed : head ≠ '\n' := fun equality =>
        plain.noFeed (by simp [equality])
      have notReturn : head ≠ '\r' := fun equality =>
        plain.noReturn (by simp [equality])
      have plainTail : IsPlain tail :=
        ⟨fun member => plain.noFeed (List.mem_cons_of_mem _ member),
          fun member => plain.noReturn (List.mem_cons_of_mem _ member)⟩
      rw [List.cons_append, Line.cut.eq_5 start held head _ notFeed
          (fun _ equality => absurd equality notReturn) notReturn,
        inductionHypothesis _ plainTail]
      simp

/-! ## Lines one after another -/

/-- Lines that stand one after another between two offsets. -/
def Successive : Nat → Nat → List Line → Prop
  | start, stop, [] => start ≤ stop
  | start, stop, line :: rest =>
      start ≤ line.start ∧ line.start < line.finish ∧
        Successive line.finish stop rest

namespace Successive

variable {start stop : Nat} {lines : List Line}

theorem mono {low : Nat} (successive : Successive start stop lines)
    (le : low ≤ start) : Successive low stop lines := by
  cases lines with
  | nil => exact Nat.le_trans le successive
  | cons line rest => exact ⟨Nat.le_trans le successive.1, successive.2⟩

theorem of_suffix {others : List Line}
    (successive : Successive start stop lines) (isSuffix : others <:+ lines) :
    Successive start stop others := by
  induction lines generalizing start with
  | nil =>
      rwa [List.suffix_nil.mp isSuffix]
  | cons line rest inductionHypothesis =>
      rcases List.suffix_cons_iff.mp isSuffix with rfl | isSuffix
      · exact successive
      · obtain ⟨after, proper, below⟩ := successive
        exact (inductionHypothesis below isSuffix).mono
          (Nat.le_trans after (Nat.le_of_lt proper))

theorem le (successive : Successive start stop lines) : start ≤ stop := by
  induction lines generalizing start with
  | nil =>
      exact successive
  | cons line rest inductionHypothesis =>
      obtain ⟨after, proper, below⟩ := successive
      exact Nat.le_trans after
        (Nat.le_trans (Nat.le_of_lt proper) (inductionHypothesis below))

theorem bounds (successive : Successive start stop lines) :
    ∀ line ∈ lines, start ≤ line.start ∧ line.start < line.finish ∧
      line.finish ≤ stop := by
  induction lines generalizing start with
  | nil =>
      simp
  | cons line rest inductionHypothesis =>
      obtain ⟨after, proper, below⟩ := successive
      refine List.forall_mem_cons.mpr ⟨⟨after, proper, below.le⟩, ?_⟩
      intro later member
      exact inductionHypothesis
        (below.mono (Nat.le_trans after (Nat.le_of_lt proper))) later member

/-- A line with an end stands before those that start where it ends. -/
theorem cons_ended {content ending : Text} (ended : 0 < ending.length)
    (below :
      Successive (start + content.length + ending.length) stop lines) :
    Successive start stop (⟨start, content, ending⟩ :: lines) := by
  refine ⟨Nat.le_refl _, ?_, below⟩
  simp only [Line.finish, Line.contentEnd]
  omega

end Successive

theorem successive_cut {start stop : Nat} {held text : Text}
    (place : stop = start + held.length + text.length) :
    Successive start stop (Line.cut start held text) := by
  fun_induction Line.cut start held text with
  | case1 start held empty =>
      simp only [Successive]
      omega
  | case2 start held nonempty =>
      have positive : 0 < held.length :=
        List.length_pos_iff.mpr (by simpa using nonempty)
      simp [Successive, Line.finish, Line.contentEnd, place, positive]
  | case3 start held rest inductionHypothesis =>
      apply Successive.cons_ended (by simp)
      simpa using inductionHypothesis (by simp [place]; omega)
  | case4 start held rest inductionHypothesis =>
      apply Successive.cons_ended (by simp)
      simpa using inductionHypothesis (by simp [place]; omega)
  | case5 start held rest notFed inductionHypothesis =>
      apply Successive.cons_ended (by simp)
      simpa using inductionHypothesis (by simp [place]; omega)
  | case6 start held first rest notFeed notFed notReturn
      inductionHypothesis =>
      exact inductionHypothesis (by simp [place]; omega)

/-! ## Lines as a relation -/

namespace HasLines

variable {start : Nat} {text : Text} {lines : List Line}

theorem cut_eq (has : HasLines start text lines) :
    Line.cut start [] text = lines := by
  induction has with
  | nil start =>
      rfl
  | @last start content plain nonempty =>
      rw [← List.append_nil content, cut_append_of_isPlain _ _ plain]
      simp [Line.cut, nonempty]
  | line start plain ends below inductionHypothesis =>
      rw [List.append_assoc, cut_append_of_isPlain _ _ plain]
      rcases ends with rfl | rfl
      · rw [List.singleton_append, Line.cut]
        simpa using inductionHypothesis
      · rw [List.cons_append, List.singleton_append, Line.cut]
        simpa using inductionHypothesis

/-- A text that has lines has every carriage return before a line feed. -/
theorem isFed (has : HasLines start text lines) :
    returnsFed text = true := by
  induction has with
  | nil start =>
      rfl
  | last start plain nonempty =>
      exact plain.isFed
  | @line start content ending rest lines plain ends below
      inductionHypothesis =>
      have closed : content.getLast? ≠ some '\r' := fun isLast =>
        plain.noReturn (List.mem_of_getLast? isLast)
      rw [List.append_assoc, returnsFed_append _ closed, plain.isFed,
        Bool.true_and]
      rcases ends with rfl | rfl
      · simpa [returnsFed] using inductionHypothesis
      · simpa [returnsFed] using inductionHypothesis

theorem unique {others : List Line} (has : HasLines start text lines)
    (hasOthers : HasLines start text others) : lines = others := by
  rw [← has.cut_eq, hasOthers.cut_eq]

/-! ## Places of lines -/

theorem shift (amount : Nat) (has : HasLines start text lines) :
    HasLines (start + amount) text (lines.map (Line.shift amount)) := by
  induction has with
  | nil start =>
      exact .nil _
  | last start plain nonempty =>
      exact .last _ plain nonempty
  | line start plain ends below inductionHypothesis =>
      refine .line _ plain ends ?_
      convert inductionHypothesis using 1
      omega

theorem append {first second : Text} {others : List Line}
    (has : HasLines start first lines)
    (ended : first = [] ∨ first.getLast? = some '\n')
    (hasOthers : HasLines (start + first.length) second others) :
    HasLines start (first ++ second) (lines ++ others) := by
  induction has with
  | nil start =>
      exact hasOthers
  | last start plain nonempty =>
      refine absurd ?_ plain.noFeed
      exact List.mem_of_getLast? (ended.resolve_left nonempty)
  | @line start content ending rest lines plain ends below
      inductionHypothesis =>
      have endedRest : rest = [] ∨ rest.getLast? = some '\n' := by
        cases rest using List.reverseRecOn with
        | nil => exact .inl rfl
        | append_singleton before last _ =>
            right
            rcases ended with empty | feed
            · simp at empty
            · rw [← List.append_assoc, List.getLast?_concat] at feed
              rw [List.getLast?_concat, feed]
      rw [List.append_assoc _ rest, List.cons_append]
      refine .line start plain ends (inductionHypothesis endedRest ?_)
      convert hasOthers using 1
      simp only [List.length_append]
      omega

/-- Lines stand one after another. -/
theorem successive (has : HasLines start text lines) :
    Successive start (start + text.length) lines := by
  rw [← has.cut_eq]
  exact successive_cut (by simp)

theorem bounds (has : HasLines start text lines) :
    ∀ line ∈ lines, start ≤ line.start ∧ line.start < line.finish ∧
      line.finish ≤ start + text.length :=
  has.successive.bounds

theorem uncons {line : Line} (has : HasLines start text (line :: lines)) :
    line.start = start ∧ line.start < line.finish ∧
      ∃ below, text = line.content ++ line.ending ++ below ∧
        HasLines line.finish below lines := by
  have proper := (has.bounds line List.mem_cons_self).2.1
  cases has with
  | last _ plain nonempty => exact ⟨rfl, proper, [], by simp, .nil _⟩
  | line _ plain ends below => exact ⟨rfl, proper, _, rfl, below⟩

/-- Around a line stand the texts of the lines before and after it, and only the
last line has no end. -/
theorem split {before after : List Line} {line : Line}
    (has : HasLines start text (before ++ line :: after)) :
    ∃ above below : Text,
      text = above ++ (line.content ++ line.ending ++ below) ∧
        line.start = start + above.length ∧
        HasLines line.finish below after ∧
        (IsEnding line.ending ∨ line.ending = [] ∧ below = []) := by
  induction before generalizing start text with
  | nil =>
      rw [List.nil_append] at has
      cases has with
      | last _ plain nonempty =>
          exact ⟨[], [], by simp, rfl, .nil _, .inr ⟨rfl, rfl⟩⟩
      | line _ plain ends below =>
          exact ⟨[], _, by simp, rfl, below, .inl ends⟩
  | cons head tail inductionHypothesis =>
      rw [List.cons_append] at has
      generalize following : tail ++ line :: after = others at has
      cases has with
      | last _ plain nonempty =>
          simp at following
      | @line _ content ending rest _ plain ends below =>
          obtain ⟨above, under, parts, place, others, closing⟩ :=
            inductionHypothesis (following ▸ below)
          refine ⟨content ++ ending ++ above, under, ?_, ?_, others, closing⟩
          · rw [parts]
            simp only [List.append_assoc]
          · rw [place]
            simp only [List.length_append]
            omega

/-- Lines at the end of the lines of a text are the lines of its end. -/
theorem of_suffix {before after : List Line}
    (has : HasLines start text (before ++ after)) :
    ∃ first second : Text, text = first ++ second ∧
      HasLines (start + first.length) second after := by
  induction before generalizing start text with
  | nil =>
      exact ⟨[], text, rfl, has⟩
  | cons head tail inductionHypothesis =>
      rw [List.cons_append] at has
      generalize tail ++ after = others at has inductionHypothesis
      cases has with
      | last _ plain nonempty =>
          obtain ⟨first, second, parts, hasSecond⟩ :=
            inductionHypothesis (.nil (start + text.length))
          obtain ⟨rfl, rfl⟩ := List.append_eq_nil_iff.mp parts.symm
          exact ⟨text, [], (List.append_nil text).symm, hasSecond⟩
      | @line _ content ending rest _ plain ends below =>
          obtain ⟨first, second, parts, hasSecond⟩ :=
            inductionHypothesis below
          refine ⟨content ++ ending ++ first, second, ?_, ?_⟩
          · rw [parts, List.append_assoc _ first]
          · convert hasSecond using 1
            simp only [List.length_append]
            omega

/-! ## Dropping the end of a text -/

/-- A text of line ends has only empty lines. -/
theorem content_eq_nil (has : HasLines start text lines)
    (ends : ∀ character ∈ text, character = '\n' ∨ character = '\r') :
    ∀ line ∈ lines, line.content = [] := by
  have empty {content : Text} (plain : IsPlain content)
      (inside : ∀ character ∈ content,
        character = '\n' ∨ character = '\r') : content = [] := by
    apply List.eq_nil_iff_forall_not_mem.mpr
    intro character member
    rcases inside character member with rfl | rfl
    · exact plain.noFeed member
    · exact plain.noReturn member
  induction has with
  | nil start =>
      simp
  | last start plain nonempty =>
      exact absurd (empty plain ends) nonempty
  | line start plain lineEnds below inductionHypothesis =>
      intro line member
      rcases List.mem_cons.mp member with rfl | member
      · exact empty plain fun character inside =>
          ends character (by simp [inside])
      · exact inductionHypothesis
          (fun character inside => ends character (by simp [inside])) line
          member

theorem exists_ending {ends : Text} (nonempty : ends ≠ [])
    (fed : returnsFed ends = true)
    (areEnds : ∀ character ∈ ends, character = '\n' ∨ character = '\r') :
    ∃ ending rest, ends = ending ++ rest ∧ IsEnding ending ∧
      returnsFed rest = true := by
  fun_cases returnsFed ends with
  | case1 =>
      exact absurd rfl nonempty
  | case2 rest =>
      exact ⟨['\r', '\n'], rest, rfl, .inr rfl, fed⟩
  | case3 rest notFed =>
      rw [returnsFed.eq_3 rest notFed] at fed
      exact absurd fed (by decide)
  | case4 character rest notFed notReturn =>
      have isFeed : character = '\n' :=
        (areEnds character List.mem_cons_self).resolve_right notReturn
      rw [returnsFed.eq_4 character rest notFed notReturn] at fed
      exact ⟨['\n'], rest, by rw [isFeed]; rfl, .inl rfl, fed⟩

/-- The last line of a text that does not end in a line end has no end. After
it line ends give it one and add empty lines. -/
theorem append_ends {ends : Text} (has : HasLines start text lines)
    (nonempty : text ≠ [])
    (visible : ∀ last, text.getLast? = some last →
      last ≠ '\n' ∧ last ≠ '\r')
    (fed : returnsFed ends = true)
    (areEnds : ∀ character ∈ ends, character = '\n' ∨ character = '\r') :
    ∃ (before : List Line) (last : Line) (ending rest : Text)
        (blanks : List Line),
      lines = before ++ [last] ∧ last.ending = [] ∧
        last.finish = start + text.length ∧ ends = ending ++ rest ∧
        HasLines start (text ++ ends)
          (before ++ { last with ending } :: blanks) ∧
        (∀ blank ∈ blanks, blank.content = []) := by
  -- Only the last line meets the line ends; those before it stay.
  induction has with
  | nil start =>
      exact absurd rfl nonempty
  | @last start content plain nonemptyContent =>
      refine ⟨[], ⟨start, content, []⟩, ?_⟩
      by_cases none : ends = []
      · refine ⟨[], [], [], rfl, rfl, rfl, none, ?_, by simp⟩
        rw [none, List.append_nil]
        exact .last start plain nonemptyContent
      · obtain ⟨ending, rest, parts, isEnding, fedRest⟩ :=
          exists_ending none fed areEnds
        have below :=
          hasLines_cut (start + content.length + ending.length) fedRest
        refine ⟨ending, rest, _, rfl, rfl, rfl, parts, ?_,
          below.content_eq_nil fun character member =>
            areEnds character (by simp [parts, member])⟩
        rw [parts, ← List.append_assoc]
        exact .line start plain isEnding below
  | @line start content lineEnding rest lines plain lineEnds below
      inductionHypothesis =>
      have feed : (content ++ lineEnding).getLast? = some '\n' := by
        rcases lineEnds with rfl | rfl <;> simp
      have nonemptyRest : rest ≠ [] := by
        rintro rfl
        rw [List.append_nil] at visible
        exact (visible '\n' feed).1 rfl
      have visibleRest (last : Char) (isLast : rest.getLast? = some last) :
          last ≠ '\n' ∧ last ≠ '\r' := by
        apply visible
        rw [List.getLast?_append, isLast, Option.some_or]
      obtain ⟨before, last, ending, others, blanks, shape, unended, place,
        parts, longer, blank⟩ := inductionHypothesis nonemptyRest visibleRest
      refine ⟨⟨start, content, lineEnding⟩ :: before, last, ending, others,
        blanks, by rw [shape, List.cons_append], unended, ?_, parts, ?_,
        blank⟩
      · rw [place]
        simp only [List.length_append]
        omega
      · rw [List.append_assoc _ rest, List.cons_append]
        exact .line start plain lineEnds longer

end HasLines

/-- A text may be cut after a line feed. -/
theorem cut_append (start : Nat) {first second : Text}
    (ended : first = [] ∨ first.getLast? = some '\n')
    (fed : returnsFed (first ++ second) = true) :
    Line.cut start [] (first ++ second) =
      Line.cut start [] first ++
        Line.cut (start + first.length) [] second := by
  have closed : first.getLast? ≠ some '\r' := by
    rcases ended with rfl | feed
    · simp
    · simp [feed]
  rw [returnsFed_append second closed, Bool.and_eq_true] at fed
  exact ((hasLines_cut start fed.1).append ended
    (hasLines_cut _ fed.2)).cut_eq

end ComponentDocs.Markdown
