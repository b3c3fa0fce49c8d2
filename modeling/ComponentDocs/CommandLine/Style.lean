import ComponentDocs.Text.Basic

/-!
Text in the colours of a terminal.
-/

namespace ComponentDocs.CommandLine

/-- A style by the numbers that switch it on. -/
structure Style where
  codes : Text
deriving DecidableEq, Repr

namespace Style

def bold : Style := ⟨"1".toList⟩

def green : Style := ⟨"32".toList⟩

def boldGreen : Style := ⟨"1;32".toList⟩

def yellow : Style := ⟨"33".toList⟩

def cyan : Style := ⟨"36".toList⟩

def grey : Style := ⟨"90".toList⟩

def start (style : Style) : Text :=
  "\x1b[".toList ++ style.codes ++ ['m']

/-- The sequence that switches all styles off. -/
def reset : Text :=
  "\x1b[0m".toList

/-- The text with the style switched on again after each reset in it. -/
def resume (style : Style) : Text → Text
  | '\x1b' :: '[' :: '0' :: 'm' :: rest =>
      reset ++ style.start ++ resume style rest
  | character :: rest => character :: resume style rest
  | [] => []

def paint (style : Style) (colours : Bool) (text : Text) : Text :=
  if colours then style.start ++ style.resume text ++ reset else text

end Style

end ComponentDocs.CommandLine
