import ComponentDocs.Text.Case

/-!
Hyphenated lowercase names and component tags.
-/

namespace ComponentDocs.Name

def isSeparator (character : Char) : Bool :=
  Text.isBlank character || character == '_'

/-- Whether a capital starts a word: after a small letter or a digit, and after
a capital when a small letter follows. -/
def startsWord (previous next : Option Char) : Bool :=
  match previous with
  | none => false
  | some before =>
      Text.isLowercase before || before.isDigit ||
        (Text.isUppercase before && next.any Text.isLowercase)

/-- Write a hyphen after what has been written, last character first, unless
there is one already. -/
def writeHyphen (written : Text) : Text :=
  if written.head? == some '-' then written else '-' :: written

/-- Write the rest of a name after `written`, last character first; `previous`
is the character before the rest. -/
def writeKebab (written : Text) (previous : Option Char) : Text → Text
  | [] => written
  | character :: rest =>
      if isSeparator character then
        writeKebab
          (if written.isEmpty then written else writeHyphen written)
          (some character) rest
      else if Text.isUppercase character then
        let started :=
          if startsWord previous rest.head? then writeHyphen written
          else written
        writeKebab ((Text.lowercaseChar character).reverse ++ started)
          (some character) rest
      else writeKebab (character :: written) (some character) rest

/-- The hyphenated lowercase form of a name. Hyphens, colons and digits are
kept, blanks and underscores become hyphens. -/
def kebab (name : Text) : Text :=
  ((writeKebab [] none (Text.trim name)).dropWhile (· == '-')).reverse

/-- The tag of a component: its hyphenated name after `configured` and a
hyphen, unless it starts so already. -/
def tag (name configured : Text) : Text :=
  let hyphenated := kebab name
  let start := Text.dropEndWhile (· == '-') (Text.trim configured)
  if start.isEmpty || (start ++ ['-']).isPrefixOf hyphenated then hyphenated
  else start ++ ['-'] ++ hyphenated

end ComponentDocs.Name
