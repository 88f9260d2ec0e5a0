import Casework.Yaml.Source

/-!
# Gaps

A gap is a run of blanks and line breaks inside a scalar. Blanks on one line stay what they are. A
single line break becomes a space; of several the first one goes away. Blanks beside a break do not
count.
-/

namespace Casework.Yaml

/-- The lists have the last character first. -/
structure Gap where
  blanks : List Char
  /-- Whether the gap goes past the end of a line. -/
  broken : Bool
  /-- The break that ends the first line, unless it is escaped. -/
  first : Option Char
  later : List Char

namespace Gap

def none : Gap := ⟨[], false, .none, []⟩

/-- A gap that begins with a break that does not count. -/
def escaped : Gap := ⟨[], true, .none, []⟩

def addBlank (g : Gap) (c : Char) : Gap :=
  if g.broken then g else { g with blanks := c :: g.blanks }

def addBreak (g : Gap) (c : Char) : Gap :=
  if g.broken then { g with later := c :: g.later } else ⟨[], true, some c, []⟩

/-- What the gap stands for, the last character first. -/
def text (g : Gap) : List Char :=
  if g.broken then
    match g.first with
    | some '\n' => if g.later.isEmpty then [' '] else g.later
    | some c => g.later ++ [c]
    | .none => g.later
  else g.blanks

end Gap

end Casework.Yaml
