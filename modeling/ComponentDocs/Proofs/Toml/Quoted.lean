import ComponentDocs.Toml.Quoted
import ComponentDocs.Toml.Writer
import Mathlib.Data.List.Infix

/-!
A TOML string is read back from the text that is written for it, whichever of
the forms it is written in and whatever it holds.
-/

namespace ComponentDocs.Toml

/-! ## One character -/

theorem isPlain_of_not_isControl {character : Char}
    (visible : isControl character = false) (notFeed : character ≠ '\n') :
    isPlain character = true := by
  simp only [isControl, isPlain, Bool.or_eq_false_iff, Bool.and_eq_false_iff,
    bne_eq_false_iff_eq, decide_eq_false_iff_not, beq_eq_false_iff_ne,
    Bool.or_eq_true, Bool.and_eq_true, beq_iff_eq, bne_iff_ne,
    decide_eq_true_eq] at visible ⊢
  grind

theorem isPlain_return : isPlain '\r' = false := by
  decide

theorem isPlain_feed : isPlain '\n' = false := by
  decide

/-- The ways to write a character with a backslash: by a letter, or by the code
of the character. -/
inductive IsEscape (character : Char) : Text → Prop
  | letter {letter : Char}
      (reads : Quoted.simpleEscape? letter = some character) :
      IsEscape character ['\\', letter]
  | code {a b c d : Char}
      (reads : Quoted.scalar? [a, b, c, d] = some character) :
      IsEscape character ['\\', 'u', a, b, c, d]

theorem IsEscape.exists_cons {character : Char} {written : Text}
    (isEscape : IsEscape character written) :
    ∃ others, written = '\\' :: others := by
  cases isEscape with
  | letter reads => exact ⟨_, rfl⟩
  | code reads => exact ⟨_, rfl⟩

theorem isEscape_escapeCode {character : Char}
    (control : isControl character = true) :
    IsEscape character (escapeCode character) := by
  have small : character.toNat < 128 := by
    simp only [isControl, Bool.or_eq_true, Bool.and_eq_true, bne_iff_ne,
      decide_eq_true_eq, beq_iff_eq] at control
    omega
  have each : ∀ code < 128,
      (escapeCode (Char.ofNat code)).length = 6 ∧
        (escapeCode (Char.ofNat code)).take 2 = ['\\', 'u'] ∧
          Quoted.scalar? ((escapeCode (Char.ofNat code)).drop 2) =
            some (Char.ofNat code) := by
    decide +kernel
  obtain ⟨six, starts, reads⟩ := each _ small
  rw [Char.ofNat_toNat] at six starts reads
  match written : escapeCode character, six, starts, reads with
  | [first, second, a, b, c, d], _, starts, reads =>
      obtain ⟨rfl, rfl⟩ : first = '\\' ∧ second = 'u' := by
        simpa using starts
      exact .code reads

/-- How a character other than a quote is written between quotes: a line feed
over lines as it is, another one by an escape, or as it stands. -/
theorem escapeOne_cases (overLines : Bool) {character : Char}
    (notQuote : character ≠ '"') :
    (overLines = true ∧ character = '\n' ∧
        escapeOne overLines character = ['\n']) ∨
      IsEscape character (escapeOne overLines character) ∨
      (escapeOne overLines character = [character] ∧
        character ≠ '\\' ∧ isPlain character = true) := by
  unfold escapeOne
  by_cases isFeed : character = '\n'
  · subst isFeed
    cases overLines with
    | true => exact .inl ⟨rfl, rfl, rfl⟩
    | false => exact .inr (.inl (.letter rfl))
  rw [if_neg isFeed]
  right
  by_cases isBackslash : character = '\\'
  · subst isBackslash
    exact .inl (.letter rfl)
  rw [if_neg isBackslash]
  by_cases isTab : character = '\t'
  · subst isTab
    exact .inl (.letter rfl)
  rw [if_neg isTab]
  by_cases isBackspace : character = '\x08'
  · subst isBackspace
    exact .inl (.letter rfl)
  rw [if_neg isBackspace]
  by_cases isFormFeed : character = '\x0c'
  · subst isFormFeed
    exact .inl (.letter rfl)
  rw [if_neg isFormFeed]
  by_cases isReturn : character = '\r'
  · subst isReturn
    exact .inl (.letter rfl)
  rw [if_neg isReturn]
  cases control : isControl character with
  | true =>
      exact .inl (isEscape_escapeCode control)
  | false =>
      exact .inr
        ⟨rfl, isBackslash, isPlain_of_not_isControl control isFeed⟩

/-- A character other than a quote is written without a quote in front, and no
line end comes in unless it is one. -/
theorem exists_head_escapeOne (overLines : Bool) {character : Char}
    (notQuote : character ≠ '"') :
    ∃ first others, escapeOne overLines character = first :: others ∧
      first ≠ '"' ∧ (character ≠ '\n' → first ≠ '\n') ∧ first ≠ '\r' := by
  rcases escapeOne_cases overLines notQuote with
    ⟨-, rfl, written⟩ | isEscape | ⟨written, -, plain⟩
  · exact ⟨'\n', [], written, by decide, fun other => other, by decide⟩
  · obtain ⟨others, written⟩ := isEscape.exists_cons
    exact ⟨'\\', others, written, by decide, fun _ => by decide, by decide⟩
  · refine ⟨character, [], written, notQuote, id, ?_⟩
    rintro rfl
    cases isPlain_return.symm.trans plain

namespace Quoted

/-! ## Strings in one line -/

theorem letter_ne_of_simpleEscape? {letter character : Char}
    (escapes : simpleEscape? letter = some character) :
    letter ≠ 'u' ∧ letter ≠ 'U' := by
  have noShort : simpleEscape? 'u' = none := rfl
  have noLong : simpleEscape? 'U' = none := rfl
  constructor
  · rintro rfl
    cases noShort.symm.trans escapes
  · rintro rfl
    cases noLong.symm.trans escapes

theorem basic?_escape {character : Char} {written : Text}
    (isEscape : IsEscape character written) (rest : Text) :
    basic? (written ++ rest) = (basic? rest).map (cons character) := by
  cases isEscape with
  | letter reads =>
      obtain ⟨notShort, notLong⟩ := letter_ne_of_simpleEscape? reads
      rw [List.cons_append, List.cons_append, List.nil_append, basic?, reads]
      · intro _ _ _ _ _ isShort _
        exact notShort isShort
      · intro _ _ _ _ _ _ _ _ _ isLong _
        exact notLong isLong
  | code reads =>
      simp only [List.cons_append, List.nil_append, basic?, reads]

theorem basic?_cons {character : Char} (notQuote : character ≠ '"')
    (notBackslash : character ≠ '\\') (plain : isPlain character = true)
    (rest : Text) :
    basic? (character :: rest) = (basic? rest).map (cons character) := by
  rw [basic?]
  · rw [if_pos (by simp [notBackslash, plain])]
  · exact notQuote
  · intro _ _ _ _ _ isBackslash
    exact absurd isBackslash notBackslash
  · intro _ _ _ _ _ _ _ _ _ isBackslash
    exact absurd isBackslash notBackslash
  · intro _ _ isBackslash
    exact absurd isBackslash notBackslash

theorem basic?_escapeOne {character : Char} (notQuote : character ≠ '"')
    (rest : Text) :
    basic? (escapeOne false character ++ rest) =
      (basic? rest).map (cons character) := by
  rcases escapeOne_cases false notQuote with
    ⟨overLines, -, -⟩ | isEscape | ⟨written, notBackslash, plain⟩
  · cases overLines
  · exact basic?_escape isEscape rest
  · rw [written]
    exact basic?_cons notQuote notBackslash plain rest

theorem basic?_escapeFrom (quotes : Nat) (content rest : Text) :
    basic? (escapeFrom false quotes content ++ '"' :: rest) =
      some (content, rest) := by
  induction content generalizing quotes with
  | nil =>
      rfl
  | cons character content inductionHypothesis =>
      by_cases isQuote : character = '"'
      · subst isQuote
        have isEscape : IsEscape '"' ['\\', '"'] := .letter rfl
        have reads := basic?_escape isEscape
          (escapeFrom false 0 content ++ '"' :: rest)
        rw [inductionHypothesis] at reads
        rw [escapeFrom, if_pos (by simp)]
        exact reads
      · rw [escapeFrom.eq_3 _ _ _ _ isQuote, List.append_assoc,
          basic?_escapeOne isQuote, inductionHypothesis]
        rfl

/-! ## Escaped strings over lines -/

theorem basicLines?_escape {character : Char} {written : Text}
    (isEscape : IsEscape character written) (rest : Text) :
    basicLines? false (written ++ rest) =
      (basicLines? false rest).map (cons character) := by
  cases isEscape with
  | letter reads =>
      obtain ⟨notShort, notLong⟩ := letter_ne_of_simpleEscape? reads
      rw [List.cons_append, List.cons_append, List.nil_append, basicLines?,
        reads]
      · intro _ _ _ _ _ isShort _
        exact notShort isShort
      · intro _ _ _ _ _ _ _ _ _ isLong _
        exact notLong isLong
  | code reads =>
      simp only [List.cons_append, List.nil_append, basicLines?, reads]

/-- A character that stands as it is. A quote does when no two follow it. -/
theorem basicLines?_cons {character : Char} {rest : Text}
    (notThree : character = '"' → ∀ more, rest ≠ '"' :: '"' :: more)
    (notBackslash : character ≠ '\\') (plain : isPlain character = true) :
    basicLines? false (character :: rest) =
      (basicLines? false rest).map (cons character) := by
  have notReturn : character ≠ '\r' := by
    rintro rfl
    cases isPlain_return.symm.trans plain
  have notFeed : character ≠ '\n' := by
    rintro rfl
    cases isPlain_feed.symm.trans plain
  rw [basicLines?]
  · rw [if_neg (by simp), if_pos (by simp [notBackslash, plain])]
  · exact fun _ isReturn => absurd isReturn notReturn
  · exact notFeed
  · exact fun _ isQuote => notThree isQuote _
  · exact fun _ isQuote => notThree isQuote _
  · exact fun _ isQuote => notThree isQuote _
  · exact fun _ _ _ _ _ isBackslash => absurd isBackslash notBackslash
  · exact fun _ _ _ _ _ _ _ _ _ isBackslash => absurd isBackslash notBackslash
  · exact fun _ _ isBackslash => absurd isBackslash notBackslash

theorem basicLines?_escapeOne {character : Char} (notQuote : character ≠ '"')
    (rest : Text) :
    basicLines? false (escapeOne true character ++ rest) =
      (basicLines? false rest).map (cons character) := by
  rcases escapeOne_cases true notQuote with
    ⟨-, rfl, written⟩ | isEscape | ⟨written, notBackslash, plain⟩
  · rw [written]
    rfl
  · exact basicLines?_escape isEscape rest
  · rw [written]
    exact basicLines?_cons (fun isQuote => absurd isQuote notQuote)
      notBackslash plain

theorem escapeOne_append_ne (overLines : Bool) {character : Char}
    (notQuote : character ≠ '"') (rest more : Text) :
    escapeOne overLines character ++ rest ≠ '"' :: more := by
  obtain ⟨first, others, written, isOther, -⟩ :=
    exists_head_escapeOne overLines notQuote
  rw [written]
  intro same
  exact isOther (List.cons.inj same).1

/-- Behind two quotes the next one is escaped. -/
theorem escapeFrom_two_append_ne {content : Text} (nonempty : content ≠ [])
    (rest more : Text) : escapeFrom true 2 content ++ rest ≠ '"' :: more := by
  obtain ⟨first, content, rfl⟩ := List.exists_cons_of_ne_nil nonempty
  by_cases isQuote : first = '"'
  · subst isQuote
    rw [escapeFrom, if_pos (by decide)]
    simp
  · rw [escapeFrom.eq_3 _ _ _ _ isQuote, List.append_assoc]
    exact escapeOne_append_ne true isQuote _ _

/-- Behind one quote no two more stand without escape, unless the string ends
there. -/
theorem escapeFrom_one_append_ne {content : Text} (nonempty : content ≠ [])
    (notLast : content ≠ ['"']) (rest more : Text) :
    escapeFrom true 1 content ++ rest ≠ '"' :: '"' :: more := by
  obtain ⟨first, content, rfl⟩ := List.exists_cons_of_ne_nil nonempty
  by_cases isQuote : first = '"'
  · subst isQuote
    have others : content ≠ [] := by
      rintro rfl
      exact notLast rfl
    rw [escapeFrom, if_neg (by decide), List.cons_append]
    intro same
    exact escapeFrom_two_append_ne others _ _ (List.cons.inj same).2
  · rw [escapeFrom.eq_3 _ _ _ _ isQuote, List.append_assoc]
    exact escapeOne_append_ne true isQuote _ _

section Close

variable {rest : Text} (stops : ∀ more, rest ≠ '"' :: more)

include stops

/-- The closing quotes, and those with one more quote before them. -/
theorem basicLines?_close :
    basicLines? false ('"' :: '"' :: '"' :: rest) = some ([], rest) ∧
      basicLines? false ('"' :: '"' :: '"' :: '"' :: rest) =
        some (['"'], rest) := by
  constructor
  · rw [basicLines?]
    · exact fun _ => stops _
    · exact fun _ => stops _
  · rw [basicLines?]
    exact fun _ => stops _

/-- Escaped over lines, up to two quotes before the closing ones included, a
content is read up to these. -/
theorem basicLines?_escapeFrom (quotes : Nat) (content : Text) :
    basicLines? false
        (escapeFrom true quotes content ++ '"' :: '"' :: '"' :: rest) =
      some (content, rest) := by
  induction content generalizing quotes with
  | nil =>
      exact (basicLines?_close stops).1
  | cons character content inductionHypothesis =>
      by_cases isQuote : character = '"'
      swap
      · rw [escapeFrom.eq_3 _ _ _ _ isQuote, List.append_assoc,
          basicLines?_escapeOne isQuote, inductionHypothesis]
        rfl
      subst isQuote
      have plain : isPlain '"' = true := by decide
      have isEscape : IsEscape '"' ['\\', '"'] := .letter rfl
      rw [escapeFrom]
      by_cases full : 2 ≤ quotes
      · have reads := basicLines?_escape isEscape
          (escapeFrom true 0 content ++ '"' :: '"' :: '"' :: rest)
        rw [inductionHypothesis] at reads
        rw [if_pos (by simpa using full)]
        exact reads
      rw [if_neg (by simpa using full), List.cons_append]
      by_cases isEnd : content = []
      · rw [isEnd]
        exact (basicLines?_close stops).2
      by_cases isLast : content = ['"'] ∧ quotes = 0
      · obtain ⟨rfl, rfl⟩ := isLast
        rfl
      have notThree (more : Text) :
          escapeFrom true (quotes + 1) content ++ '"' :: '"' :: '"' :: rest ≠
            '"' :: '"' :: more := by
        obtain rfl | rfl : quotes = 0 ∨ quotes = 1 := by omega
        · exact escapeFrom_one_append_ne isEnd (by simpa using isLast) _ _
        · exact escapeFrom_two_append_ne isEnd _ _
      rw [basicLines?_cons (fun _ => notThree) (by decide) plain,
        inductionHypothesis]
      rfl

end Close

end Quoted

/-! ## Texts that need no escape -/

theorem le_longestRunFrom (mark : Char) (current longest : Nat) (text : Text) :
    longest ≤ longestRunFrom mark current longest text := by
  fun_induction longestRunFrom mark current longest text with
  | case1 => exact Nat.le_refl _
  | case2 current longest rest inductionHypothesis =>
      exact (Nat.le_max_left _ _).trans inductionHypothesis
  | case3 current longest character rest isOther inductionHypothesis =>
      exact inductionHypothesis

/-- A run of three of a mark is found by the count. -/
theorem three_le_longestRunFrom {mark : Char} (current longest : Nat)
    {text : Text} (occurs : [mark, mark, mark] <:+: text) :
    3 ≤ longestRunFrom mark current longest text := by
  induction text generalizing current longest with
  | nil =>
      exact absurd occurs (by simp)
  | cons character rest inductionHypothesis =>
      rcases List.infix_cons_iff.mp occurs with starts | later
      · obtain ⟨more, same⟩ := starts
        rw [← same]
        have counted := le_longestRunFrom mark (current + 1 + 1 + 1)
          (max (max (max longest (current + 1)) (current + 1 + 1))
            (current + 1 + 1 + 1)) more
        simp only [List.cons_append, List.nil_append, longestRunFrom, if_true]
        omega
      · rw [longestRunFrom]
        split
        · exact inductionHypothesis _ _ later
        · exact inductionHypothesis _ _ later

theorem isPlain_of_fitsLiteral {content : Text}
    (fits : fitsLiteral content = true) :
    ∀ character ∈ content, isPlain character = true ∧ character ≠ '\'' := by
  obtain ⟨⟨visible, noQuote⟩, noFeed⟩ :
      ((∀ character ∈ content, isControl character = false) ∧
        '\'' ∉ content) ∧ '\n' ∉ content := by
    simpa [fitsLiteral] using fits
  intro character member
  constructor
  · apply isPlain_of_not_isControl (visible character member)
    rintro rfl
    exact noFeed member
  · rintro rfl
    exact noQuote member

theorem of_fitsLiteralLines {content : Text}
    (fits : fitsLiteralLines content = true) :
    (∀ character ∈ content, isControl character = false) ∧
      ¬ ['\'', '\'', '\''] <:+: content := by
  obtain ⟨visible, short⟩ :
      (∀ character ∈ content, isControl character = false) ∧
        longestRun '\'' content ≤ 2 := by
    simpa [fitsLiteralLines] using fits
  refine ⟨visible, fun occurs => ?_⟩
  exact Nat.not_succ_le_self 2
    ((three_le_longestRunFrom 0 0 occurs).trans short)

namespace Quoted

/-! ## Literal strings -/

theorem literal?_append {content : Text} (fits : fitsLiteral content = true)
    (rest : Text) :
    literal? (content ++ '\'' :: rest) = some (content, rest) := by
  have plain := isPlain_of_fitsLiteral fits
  clear fits
  induction content with
  | nil =>
      rfl
  | cons character content inductionHypothesis =>
      obtain ⟨⟨isPlain, notQuote⟩, others⟩ := List.forall_mem_cons.mp plain
      rw [List.cons_append, literal?, if_pos isPlain,
        inductionHypothesis others]
      · rfl
      · exact notQuote

/-- A character that stands as it is. A quote does when no two follow it. -/
theorem literalLines?_cons {character : Char} {rest : Text}
    (notThree : character = '\'' → ∀ more, rest ≠ '\'' :: '\'' :: more)
    (plain : isPlain character = true) :
    literalLines? (character :: rest) =
      (literalLines? rest).map (cons character) := by
  have notReturn : character ≠ '\r' := by
    rintro rfl
    cases isPlain_return.symm.trans plain
  have notFeed : character ≠ '\n' := by
    rintro rfl
    cases isPlain_feed.symm.trans plain
  rw [literalLines?]
  · rw [if_pos plain]
  · exact fun _ isReturn => absurd isReturn notReturn
  · exact notFeed
  · exact fun _ isQuote => notThree isQuote _
  · exact fun _ isQuote => notThree isQuote _
  · exact fun _ isQuote => notThree isQuote _

/-- The closing quotes, and those with one more quote before them. -/
theorem literalLines?_close {rest : Text} (stops : ∀ more, rest ≠ '\'' :: more) :
    literalLines? ('\'' :: '\'' :: '\'' :: rest) = some ([], rest) ∧
      literalLines? ('\'' :: '\'' :: '\'' :: '\'' :: rest) =
        some (['\''], rest) := by
  constructor
  · rw [literalLines?]
    · exact fun _ => stops _
    · exact fun _ => stops _
  · rw [literalLines?]
    exact fun _ => stops _

/-- A literal content over lines is read up to the closing quotes. -/
theorem literalLines?_append {content rest : Text}
    (fits : fitsLiteralLines content = true)
    (stops : ∀ more, rest ≠ '\'' :: more) :
    literalLines? (content ++ '\'' :: '\'' :: '\'' :: rest) =
      some (content, rest) := by
  obtain ⟨visible, noThree⟩ := of_fitsLiteralLines fits
  clear fits
  induction content with
  | nil =>
      exact (literalLines?_close stops).1
  | cons character content inductionHypothesis =>
      obtain ⟨notControl, others⟩ := List.forall_mem_cons.mp visible
      have later := inductionHypothesis others fun occurs =>
        noThree (occurs.trans (List.suffix_cons _ _).isInfix)
      by_cases isFeed : character = '\n'
      · subst isFeed
        have opened : literalLines? ('\n' :: (content ++
            '\'' :: '\'' :: '\'' :: rest)) =
            (literalLines? (content ++ '\'' :: '\'' :: '\'' :: rest)).map
              (cons '\n') :=
          rfl
        rw [List.cons_append, opened, later]
        rfl
      by_cases isEnd : character = '\'' ∧ content = []
      · obtain ⟨rfl, rfl⟩ := isEnd
        exact (literalLines?_close stops).2
      by_cases isLast : character = '\'' ∧ content = ['\'']
      · obtain ⟨rfl, rfl⟩ := isLast
        rfl
      rw [List.cons_append, literalLines?_cons ?_
        (isPlain_of_not_isControl notControl isFeed), later]
      · rfl
      · rintro rfl more same
        -- The two quotes would be those of the content, with this one before.
        rcases content with _ | ⟨first, _ | ⟨second, content⟩⟩
        · exact isEnd ⟨rfl, rfl⟩
        · obtain ⟨rfl, -⟩ := List.cons.inj same
          exact isLast ⟨rfl, rfl⟩
        · simp only [List.cons_append, List.cons.injEq] at same
          obtain ⟨rfl, rfl, -⟩ := same
          exact noThree ⟨[], content, rfl⟩

/-! ## All forms -/

/-- No quote of either kind follows. -/
def Stops (rest : Text) : Prop :=
  ∀ first ∈ rest.head?, first ≠ '"' ∧ first ≠ '\''

namespace Stops

variable {rest : Text} (stops : Stops rest)

include stops

theorem ne_basic (more : Text) : rest ≠ '"' :: more := by
  rintro rfl
  exact (stops '"' rfl).1 rfl

theorem ne_literal (more : Text) : rest ≠ '\'' :: more := by
  rintro rfl
  exact (stops '\'' rfl).2 rfl

theorem read?_basic (content : Text) :
    read? (basic content ++ rest) = some (content, rest) := by
  have shape : basic content ++ rest =
      '"' :: (escapeFrom false 0 content ++ '"' :: rest) := by
    simp [basic]
  rw [shape, read?, basic?_escapeFrom]
  -- The string does not open with three quotes.
  intro more same
  cases content with
  | nil =>
      exact stops.ne_basic _ (List.cons.inj same).2
  | cons character content =>
      by_cases isQuote : character = '"'
      · subst isQuote
        rw [escapeFrom, if_pos (by simp)] at same
        simp at same
      · rw [escapeFrom.eq_3 _ _ _ _ isQuote, List.append_assoc] at same
        exact escapeOne_append_ne false isQuote _ _ same

theorem read?_literal {content : Text} (fits : fitsLiteral content = true) :
    read? (literal content ++ rest) = some (content, rest) := by
  have shape : literal content ++ rest =
      '\'' :: (content ++ '\'' :: rest) := by
    simp [literal]
  rw [shape, read?, literal?_append fits]
  intro more same
  cases content with
  | nil =>
      exact stops.ne_literal _ (List.cons.inj same).2
  | cons character content =>
      obtain ⟨-, notQuote⟩ :=
        isPlain_of_fitsLiteral fits character List.mem_cons_self
      exact notQuote (List.cons.inj same).1

end Stops

theorem skipFirstLineEnd_cons {first : Char} (notFeed : first ≠ '\n')
    (notReturn : first ≠ '\r') (rest : Text) :
    skipFirstLineEnd (first :: rest) = first :: rest := by
  rw [skipFirstLineEnd, afterLineEnd?]
  · rfl
  · exact fun _ same => notFeed (List.cons.inj same).1
  · exact fun _ same => notReturn (List.cons.inj same).1

/-- The line feed after the opening quotes is skipped, and nothing else. -/
theorem skipFirstLineEnd_append {content body : Text}
    (starts : '\n' ∉ content → ∃ first rest, body = first :: rest ∧
      first ≠ '\n' ∧ first ≠ '\r') :
    skipFirstLineEnd (firstLineFeed content ++ body) = body := by
  unfold firstLineFeed
  by_cases feeds : content.contains '\n' = true
  · rw [if_pos feeds]
    rfl
  · rw [if_neg feeds]
    obtain ⟨first, rest, rfl, notFeed, notReturn⟩ :=
      starts (by simpa using feeds)
    exact skipFirstLineEnd_cons notFeed notReturn rest

theorem exists_head_escapeFrom {content : Text} (noFeed : '\n' ∉ content)
    (rest : Text) :
    ∃ first more, escapeFrom true 0 content ++ '"' :: rest = first :: more ∧
      first ≠ '\n' ∧ first ≠ '\r' := by
  cases content with
  | nil =>
      exact ⟨'"', rest, rfl, by decide, by decide⟩
  | cons character content =>
      by_cases isQuote : character = '"'
      · subst isQuote
        exact ⟨'"', _, rfl, by decide, by decide⟩
      · have notFeed : character ≠ '\n' := by
          rintro rfl
          exact noFeed List.mem_cons_self
        obtain ⟨first, others, written, -, noFeed, noReturn⟩ :=
          exists_head_escapeOne true isQuote
        rw [escapeFrom.eq_3 _ _ _ _ isQuote, List.append_assoc, written]
        exact ⟨first, _, rfl, noFeed notFeed, noReturn⟩

theorem Stops.read?_basicLines {rest : Text} (stops : Stops rest)
    (content : Text) :
    read? (basicLines content ++ rest) = some (content, rest) := by
  have shape : basicLines content ++ rest =
      '"' :: '"' :: '"' :: (firstLineFeed content ++
        (escapeFrom true 0 content ++ '"' :: '"' :: '"' :: rest)) := by
    simp [basicLines]
  rw [shape, read?,
    skipFirstLineEnd_append fun noFeed => exists_head_escapeFrom noFeed _,
    basicLines?_escapeFrom stops.ne_basic]

theorem Stops.read?_literalLines {rest : Text} (stops : Stops rest)
    {content : Text} (fits : fitsLiteralLines content = true) :
    read? (literalLines content ++ rest) = some (content, rest) := by
  have shape : literalLines content ++ rest =
      '\'' :: '\'' :: '\'' :: (firstLineFeed content ++
        (content ++ '\'' :: '\'' :: '\'' :: rest)) := by
    simp [literalLines]
  have starts : '\n' ∉ content → ∃ first more,
      content ++ '\'' :: '\'' :: '\'' :: rest = first :: more ∧
        first ≠ '\n' ∧ first ≠ '\r' := by
    intro noFeed
    cases content with
    | nil =>
        exact ⟨'\'', _, rfl, by decide, by decide⟩
    | cons character content =>
        have notControl :=
          (of_fitsLiteralLines fits).1 character List.mem_cons_self
        refine ⟨character, _, rfl, ?_, ?_⟩
        · rintro rfl
          exact noFeed List.mem_cons_self
        · rintro rfl
          exact absurd notControl (by decide)
  rw [shape, read?, skipFirstLineEnd_append starts,
    literalLines?_append fits stops.ne_literal]

/-- A string is read back in the form that it is written in. -/
theorem Stops.read?_writeText {rest : Text} (stops : Stops rest)
    (content : Text) :
    read? (writeText content ++ rest) = some (content, rest) := by
  unfold writeText
  split
  · exact stops.read?_basic content
  split
  · rename_i fits
    exact stops.read?_literal fits
  split
  · exact stops.read?_basicLines content
  split
  · rename_i fits
    exact stops.read?_literalLines fits
  split
  · exact stops.read?_basicLines content
  · exact stops.read?_basic content

/-- The first character of a written string tells that it is one. -/
theorem exists_head_writeText (content : Text) :
    ∃ first rest, writeText content = first :: rest ∧
      (first = '"' ∨ first = '\'') := by
  unfold writeText
  repeat' split
  all_goals first
    | exact ⟨'"', _, rfl, .inl rfl⟩
    | exact ⟨'\'', _, rfl, .inr rfl⟩

/-- Both kinds of quotes and a backslash, over two lines. -/
example :
    read? (writeText "a'''\n\\\"\"\"".toList ++ ['\n']) =
      some ("a'''\n\\\"\"\"".toList, ['\n']) := by
  decide +kernel

end Quoted

end ComponentDocs.Toml
