import Casework.Yaml.Gap

/-!
# Plain scalars

A plain scalar goes on until a colon with a blank behind it, a comment, or a line that is not
indented enough. In a flow collection brackets, braces and commas end it, too.
-/

namespace Casework.Yaml.Plain

structure Setting where
  inFlow : Bool
  /-- The least column of a line that goes on with the scalar. -/
  column : Nat

/-- What has been read, and whether a new line has begun behind it. -/
structure Scalar where
  text : String
  newLine : Bool

def isBracket (c : Char) : Bool := c == '[' || c == ']' || c == '\x7b' || c == '\x7d'

/-- A colon that is neither part of a flow scalar nor the end of a key. -/
def strayColon (s : Setting) (c : Char) (rest : Source) : Bool :=
  s.inFlow && c == ':' && rest.head?.any fun p => p.char == ',' || p.char == '?' || isBracket p.char

def ends (s : Setting) (c : Char) (rest : Source) : Bool :=
  (c == ':' && rest.spaced) || (s.inFlow && (c == ',' || isBracket c))

/-- Behind a gap more can end the scalar than inside a word. -/
def endsBehindGap (s : Setting) (source : Source) (p : Placed) : Bool :=
  (!s.inFlow && p.column < s.column) || source.dividesDocuments || p.char == '#'

/-- Reads on from a text, which has its last character first, and a gap behind it. -/
def readFrom (s : Setting) (text : List Char) (gap : Gap) :
    (source : Source) → Option (ReadMany Scalar source)
  | [] => some (.nothing ⟨String.ofList text.reverse, gap.broken⟩)
  | p :: rest =>
    let done : Option (ReadMany Scalar (p :: rest)) :=
      some (.nothing ⟨String.ofList text.reverse, gap.broken⟩)
    let goOn (text : List Char) (gap : Gap) : Option (ReadMany Scalar (p :: rest)) :=
      (readFrom s text gap rest).map (·.after length_le_cons)
    if isBlank p.char then
      if gap.broken && p.column < s.column && p.char == '\t' then none
      else goOn text (gap.addBlank p.char)
    else if isBreak p.char then goOn text (gap.addBreak p.char)
    else if (gap.broken || !gap.blanks.isEmpty) && endsBehindGap s (p :: rest) p then done
    else if strayColon s p.char rest then none
    else if ends s p.char rest then done
    else goOn (p.char :: gap.text ++ text) .none

/-- The first character is known to belong to the scalar. -/
def read? (s : Setting) (first : Placed) (rest : Source) : Option (Read Scalar (first :: rest)) :=
  (readFrom s [first.char] .none rest).map (·.toRead length_lt_cons)

end Casework.Yaml.Plain
