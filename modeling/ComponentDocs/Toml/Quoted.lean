import ComponentDocs.Toml.Basic

/-!
Reading TOML strings: basic strings with escapes between `"`, literal strings
between `'`, and both over several lines between three quotes.
-/

namespace ComponentDocs.Toml.Quoted

/-! ## Escapes -/

/-- The value of a hexadecimal digit of either case. -/
def hexValue? (digit : Char) : Option Nat :=
  let code := digit.toNat
  if 48 ≤ code && code ≤ 57 then some (code - 48)
  else if 97 ≤ code && code ≤ 102 then some (code - 87)
  else if 65 ≤ code && code ≤ 70 then some (code - 55)
  else none

def scalar? (digits : Text) : Option Char := do
  let values ← digits.mapM hexValue?
  let code := values.foldl (fun sum value => sum * 16 + value) 0
  if code.isValidChar then some (Char.ofNat code) else none

/-- The character that a backslash and `letter` stand for. -/
def simpleEscape? (letter : Char) : Option Char :=
  if letter = '"' || letter = '\\' then some letter
  else if letter = 'b' then some '\x08'
  else if letter = 't' then some '\t'
  else if letter = 'n' then some '\n'
  else if letter = 'f' then some '\x0c'
  else if letter = 'r' then some '\r'
  else none

/-- Put a character before a content that has been read. -/
def cons (character : Char) (result : Text × Text) : Text × Text :=
  (character :: result.1, result.2)

/-! ## Strings in one line -/

/-- The content of a basic string up to its quote, and the rest. -/
def basic? : Text → Option (Text × Text)
  | [] => none
  | '"' :: rest => some ([], rest)
  | '\\' :: 'u' :: a :: b :: c :: d :: rest =>
      match scalar? [a, b, c, d] with
      | some character => (basic? rest).map (cons character)
      | none => none
  | '\\' :: 'U' :: a :: b :: c :: d :: e :: f :: g :: h :: rest =>
      match scalar? [a, b, c, d, e, f, g, h] with
      | some character => (basic? rest).map (cons character)
      | none => none
  | '\\' :: letter :: rest =>
      match simpleEscape? letter with
      | some character => (basic? rest).map (cons character)
      | none => none
  | character :: rest =>
      if character != '\\' && isPlain character then
        (basic? rest).map (cons character)
      else none

/-- The content of a literal string up to its quote, and the rest. -/
def literal? : Text → Option (Text × Text)
  | [] => none
  | '\'' :: rest => some ([], rest)
  | character :: rest =>
      if isPlain character then (literal? rest).map (cons character)
      else none

/-! ## Strings over lines -/

/-- Past the line end that may follow the opening quotes. -/
def skipFirstLineEnd (text : Text) : Text :=
  (afterLineEnd? text).getD text

/-- Whether only blanks stand before the next line end. -/
def endsLine (text : Text) : Bool :=
  (afterLineEnd? (skipSpaces text)).isSome

/-- The content of a basic string over lines up to its quotes, and the rest.
Up to two more quotes belong to the content. A backslash at the end of a line
drops all blanks and line ends after it; `dropping` tells whether the text
starts among them. -/
def basicLines? (dropping : Bool) : Text → Option (Text × Text)
  | [] => none
  | '\r' :: '\n' :: rest =>
      if dropping then basicLines? true rest
      else (basicLines? false rest).map (cons '\n')
  | '\n' :: rest =>
      if dropping then basicLines? true rest
      else (basicLines? false rest).map (cons '\n')
  | '"' :: '"' :: '"' :: '"' :: '"' :: rest => some (['"', '"'], rest)
  | '"' :: '"' :: '"' :: '"' :: rest => some (['"'], rest)
  | '"' :: '"' :: '"' :: rest => some ([], rest)
  | '\\' :: 'u' :: a :: b :: c :: d :: rest =>
      match scalar? [a, b, c, d] with
      | some character => (basicLines? false rest).map (cons character)
      | none => none
  | '\\' :: 'U' :: a :: b :: c :: d :: e :: f :: g :: h :: rest =>
      match scalar? [a, b, c, d, e, f, g, h] with
      | some character => (basicLines? false rest).map (cons character)
      | none => none
  | '\\' :: letter :: rest =>
      match simpleEscape? letter with
      | some character => (basicLines? false rest).map (cons character)
      | none =>
          if endsLine (letter :: rest) then basicLines? true (letter :: rest)
          else none
  | character :: rest =>
      if dropping && isSpace character then basicLines? true rest
      else if character != '\\' && isPlain character then
        (basicLines? false rest).map (cons character)
      else none

/-- The content of a literal string over lines up to its quotes, and the
rest. Up to two more quotes belong to the content. -/
def literalLines? : Text → Option (Text × Text)
  | [] => none
  | '\r' :: '\n' :: rest => (literalLines? rest).map (cons '\n')
  | '\n' :: rest => (literalLines? rest).map (cons '\n')
  | '\'' :: '\'' :: '\'' :: '\'' :: '\'' :: rest =>
      some (['\'', '\''], rest)
  | '\'' :: '\'' :: '\'' :: '\'' :: rest => some (['\''], rest)
  | '\'' :: '\'' :: '\'' :: rest => some ([], rest)
  | character :: rest =>
      if isPlain character then (literalLines? rest).map (cons character)
      else none

/-- The content of the string at the start of a text, and the rest. -/
def read? : Text → Option (Text × Text)
  | '"' :: '"' :: '"' :: rest => basicLines? false (skipFirstLineEnd rest)
  | '"' :: rest => basic? rest
  | '\'' :: '\'' :: '\'' :: rest => literalLines? (skipFirstLineEnd rest)
  | '\'' :: rest => literal? rest
  | _ => none

/-- The content of the string in one line at the start of a text, and the
rest. -/
def readKey? : Text → Option (Text × Text)
  | '"' :: rest => basic? rest
  | '\'' :: rest => literal? rest
  | _ => none

end ComponentDocs.Toml.Quoted
