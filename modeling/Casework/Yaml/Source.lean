import Casework.Read

/-!
# YAML text

A text as a list of characters that know where they stand. All line breaks but two are one and the
same character here, and a carriage return with a line feed behind it is one break.
-/

namespace Casework.Yaml

structure Placed where
  char : Char
  line : Nat
  column : Nat
  /-- How many characters of the text stand before this one. -/
  index : Nat
deriving Repr

abbrev Source := List Placed

def isBlank (c : Char) : Bool := c == ' ' || c == '\t'

/-- Line breaks; the last two are the ones that stay what they are. -/
def isBreak (c : Char) : Bool :=
  c == '\n' || c == '\r' || c == '\u0085' || c == '\u2028' || c == '\u2029'

/-- Control characters have no place in a text, nor have a few others. -/
def isAllowed (c : Char) : Bool :=
  c == '\t' || c == '\n' || c == '\r' || c == '\u0085' || (' ' ≤ c && c ≤ '~') ||
    ('\u00a0' ≤ c && c ≤ '\ufffd') || 0x10000 ≤ c.toNat

def place (line column index : Nat) : List Char → Source
  | [] => []
  | '\r' :: '\n' :: cs => ⟨'\n', line, column, index⟩ :: place (line + 1) 0 (index + 2) cs
  | c :: cs =>
    if isBreak c then
      let same := c == '\u2028' || c == '\u2029'
      ⟨if same then c else '\n', line, column, index⟩ :: place (line + 1) 0 (index + 1) cs
    else ⟨c, line, column, index⟩ :: place line (column + 1) (index + 1) cs

/-- The characters of a text, if all of them are allowed. -/
def source? (text : String) : Option Source :=
  let cs := text.toList
  if cs.all isAllowed then some (place 0 0 0 cs) else none

namespace Source

/-- The text ends here, or goes on with a blank or a line break. -/
def spaced : Source → Bool
  | [] => true
  | p :: _ => isBlank p.char || isBreak p.char

/-- Three hyphens or three points at the start of a line divide documents. -/
def dividesDocuments (s : Source) : Bool :=
  s.head?.any (·.column == 0) &&
    ((s.take 3).map (·.char) == ['-', '-', '-'] || (s.take 3).map (·.char) == ['.', '.', '.']) &&
    spaced (s.drop 3)

/-- The rest of the line is left out. -/
def restOfLine (s : Source) : Source := s.dropWhile fun p => !isBreak p.char

end Source

end Casework.Yaml
