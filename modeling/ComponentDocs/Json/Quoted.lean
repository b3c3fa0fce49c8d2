import ComponentDocs.Text.Basic

/-!
The text of JSON strings between their quotes.

Writing escapes the quote, the backslash and the control characters below the
blank. Reading knows all escapes; a half of a surrogate pair leaves a string
without content.
-/

namespace ComponentDocs.Json.Quoted

/-! ## Writing -/

def hexDigit (value : Nat) : Char :=
  Nat.digitChar value

def escape (character : Char) : Text :=
  if character = '"' then ['\\', '"']
  else if character = '\\' then ['\\', '\\']
  else if character = '\x08' then ['\\', 'b']
  else if character = '\x0c' then ['\\', 'f']
  else if character = '\n' then ['\\', 'n']
  else if character = '\r' then ['\\', 'r']
  else if character = '\t' then ['\\', 't']
  else if character.toNat < 32 then
    ['\\', 'u', '0', '0', hexDigit (character.toNat / 16),
      hexDigit (character.toNat % 16)]
  else [character]

def write (content : Text) : Text :=
  '"' :: content.flatMap escape ++ ['"']

/-! ## Reading -/

/-- The value of a hexadecimal digit of either case. -/
def hexValue? (digit : Char) : Option Nat :=
  let code := digit.toNat
  if 48 ≤ code && code ≤ 57 then some (code - 48)
  else if 97 ≤ code && code ≤ 102 then some (code - 87)
  else if 65 ≤ code && code ≤ 70 then some (code - 55)
  else none

/-- The value of four hexadecimal digits. -/
def codeUnit? (first second third fourth : Char) : Option Nat := do
  let a ← hexValue? first
  let b ← hexValue? second
  let c ← hexValue? third
  let d ← hexValue? fourth
  return ((a * 16 + b) * 16 + c) * 16 + d

/-- The character that a backslash and `letter` stand for. -/
def simpleEscape? (letter : Char) : Option Char :=
  if letter = '"' || letter = '\\' || letter = '/' then some letter
  else if letter = 'b' then some '\x08'
  else if letter = 'f' then some '\x0c'
  else if letter = 'n' then some '\n'
  else if letter = 'r' then some '\r'
  else if letter = 't' then some '\t'
  else none

/-- What one character or escape of a string stands for. -/
inductive Piece
  | whole (character : Char)
  /-- The first half of a surrogate pair. -/
  | leading (unit : Nat)
  /-- The second half of a surrogate pair. -/
  | trailing (unit : Nat)
deriving DecidableEq, Repr

def Piece.ofUnit (unit : Nat) : Piece :=
  if 0xD800 ≤ unit && unit ≤ 0xDBFF then .leading unit
  else if 0xDC00 ≤ unit && unit ≤ 0xDFFF then .trailing unit
  else .whole (Char.ofNat unit)

/-- Put a piece before others that have been read. -/
def Piece.cons (piece : Piece) (result : List Piece × Text) :
    List Piece × Text :=
  (piece :: result.1, result.2)

/-- The pieces up to the closing quote, and the text after it. -/
def pieces? : Text → Option (List Piece × Text)
  | [] => none
  | '"' :: rest => some ([], rest)
  | '\\' :: 'u' :: a :: b :: c :: d :: rest =>
      match codeUnit? a b c d with
      | some unit => (pieces? rest).map (Piece.ofUnit unit).cons
      | none => none
  | '\\' :: letter :: rest =>
      match simpleEscape? letter with
      | some character => (pieces? rest).map (Piece.whole character).cons
      | none => none
  | character :: rest =>
      if character = '\\' || character.toNat < 32 then none
      else (pieces? rest).map (Piece.whole character).cons

def pairCharacter (leading trailing : Nat) : Char :=
  Char.ofNat ((leading - 0xD800) * 0x400 + (trailing - 0xDC00) + 0x10000)

/-- The text of the pieces; `none` when a half has no other half. -/
def content? : List Piece → Option Text
  | [] => some []
  | .whole character :: rest => (content? rest).map (character :: ·)
  | .leading first :: .trailing second :: rest =>
      (content? rest).map (pairCharacter first second :: ·)
  | _ => none

/-- The content up to the closing quote, if all halves are paired, and the
text after the quote. -/
def read? (text : Text) : Option (Option Text × Text) :=
  (pieces? text).map fun (pieces, rest) => (content? pieces, rest)

end ComponentDocs.Json.Quoted
