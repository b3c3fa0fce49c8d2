import ComponentDocs.Text.Basic
import ComponentDocs.Text.CaseTable

/-!
Letter case over all of Unicode: which characters are upper or lower case, and
the lowercase form of a text. The lowercase form of a capital sigma depends on
its neighbours: at the end of a word it is the final form.
-/

namespace ComponentDocs.Text

def isUppercase (character : Char) : Bool :=
  let code := character.toNat
  if code < 128 then character.isUpper
  else CaseTable.uppercase.any (CaseTable.Run.holds code)

def isLowercase (character : Char) : Bool :=
  let code := character.toNat
  if code < 128 then character.isLower
  else CaseTable.lowercase.any (CaseTable.Run.holds code)

/-- Whether a character is skipped when the neighbours of a sigma are
looked up. -/
def isCaseIgnorable (character : Char) : Bool :=
  CaseTable.ignorable.any (CaseTable.Run.holds character.toNat)

def isCased (character : Char) : Bool :=
  isUppercase character || isLowercase character ||
    CaseTable.titlecase.any (CaseTable.Run.holds character.toNat)

/-- The lowercase form of one character, which has two characters for the
capital I with a dot above. -/
def lowercaseChar (character : Char) : Text :=
  let code := character.toNat
  if code < 128 then [character.toLower]
  else if code == 0x130 then ['i', '\u0307']
  else
    match CaseTable.lowercaseShift.find? (fun entry =>
        CaseTable.Run.holds code entry.1) with
    | some (_, shift) => [Char.ofNat (code + shift).toNat]
    | none => [character]

/-- Whether the first character that is not ignored is cased. -/
def meetsCased (text : Text) : Bool :=
  match text.dropWhile isCaseIgnorable with
  | [] => false
  | character :: _ => isCased character

/-- The lowercase form of a text of which `before` is the part already read,
last character first. -/
def lowercaseAfter (before : Text) : Text → Text
  | [] => []
  | character :: rest =>
      let form :=
        if character == 'Σ' then
          if meetsCased before && !meetsCased rest then ['ς'] else ['σ']
        else lowercaseChar character
      form ++ lowercaseAfter (character :: before) rest

def lowercase (text : Text) : Text :=
  lowercaseAfter [] text

end ComponentDocs.Text
