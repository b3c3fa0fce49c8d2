import ComponentDocs.Json.Quoted

/-!
The text of a string is read back, whatever the string holds.
-/

namespace ComponentDocs.Json.Quoted

/-! ## One character -/

theorem hexValue?_hexDigit {value : Nat} (small : value < 16) :
    hexValue? (hexDigit value) = some value := by
  have each : ∀ digit < 16, hexValue? (hexDigit digit) = some digit := by
    decide
  exact each value small

theorem codeUnit?_hexDigit {code : Nat} (small : code < 32) :
    codeUnit? '0' '0' (hexDigit (code / 16)) (hexDigit (code % 16)) =
      some code := by
  have zero : hexValue? '0' = some 0 := rfl
  have high := hexValue?_hexDigit (show code / 16 < 16 by omega)
  have low := hexValue?_hexDigit (show code % 16 < 16 by omega)
  simp only [codeUnit?, zero, high, low, bind, Option.bind, pure]
  congr 1
  omega

theorem ofUnit_toNat {character : Char} (small : character.toNat < 32) :
    Piece.ofUnit character.toNat = .whole character := by
  have notLeading : ¬ (0xD800 ≤ character.toNat) := by omega
  have notTrailing : ¬ (0xDC00 ≤ character.toNat) := by omega
  simp [Piece.ofUnit, notLeading, notTrailing]

/-- A character that is not escaped is read as it stands. -/
theorem pieces?_cons {character : Char} (notQuote : character ≠ '"')
    (notBackslash : character ≠ '\\') (visible : ¬ character.toNat < 32)
    (rest : Text) :
    pieces? (character :: rest) =
      (pieces? rest).map (Piece.whole character).cons := by
  rw [pieces?]
  · simp [notBackslash, visible]
  · exact notQuote
  · intro _ _ _ _ _ backslash
    exact absurd backslash notBackslash
  · intro _ _ backslash
    exact absurd backslash notBackslash

theorem pieces?_escape (character : Char) (rest : Text) :
    pieces? (escape character ++ rest) =
      (pieces? rest).map (Piece.whole character).cons := by
  by_cases isQuote : character = '"'
  · subst isQuote
    rfl
  by_cases isBackslash : character = '\\'
  · subst isBackslash
    rfl
  by_cases isBackspace : character = '\x08'
  · subst isBackspace
    rfl
  by_cases isFormFeed : character = '\x0c'
  · subst isFormFeed
    rfl
  by_cases isLineFeed : character = '\n'
  · subst isLineFeed
    rfl
  by_cases isReturn : character = '\r'
  · subst isReturn
    rfl
  by_cases isTab : character = '\t'
  · subst isTab
    rfl
  rw [escape, if_neg isQuote, if_neg isBackslash, if_neg isBackspace,
    if_neg isFormFeed, if_neg isLineFeed, if_neg isReturn, if_neg isTab]
  by_cases control : character.toNat < 32
  · rw [if_pos control]
    simp only [List.cons_append, List.nil_append, pieces?,
      codeUnit?_hexDigit control, ofUnit_toNat control]
  · rw [if_neg control]
    exact pieces?_cons isQuote isBackslash control rest

/-! ## Whole strings -/

theorem pieces?_flatMap_escape (content rest : Text) :
    pieces? (content.flatMap escape ++ '"' :: rest) =
      some (content.map .whole, rest) := by
  induction content with
  | nil =>
      rfl
  | cons character content inductionHypothesis =>
      rw [List.flatMap_cons, List.append_assoc, pieces?_escape,
        inductionHypothesis]
      rfl

theorem content?_map_whole (content : Text) :
    content? (content.map .whole) = some content := by
  induction content with
  | nil =>
      rfl
  | cons character content inductionHypothesis =>
      rw [List.map_cons, content?, inductionHypothesis]
      rfl

/-- After its opening quote a written string is read up to its closing one. -/
theorem read?_write (content rest : Text) :
    ∃ body, write content = '"' :: body ∧
      read? (body ++ rest) = some (some content, rest) := by
  refine ⟨content.flatMap escape ++ ['"'], rfl, ?_⟩
  rw [List.append_assoc, List.singleton_append, read?,
    pieces?_flatMap_escape, Option.map_some]
  simp only [content?_map_whole]

end ComponentDocs.Json.Quoted
