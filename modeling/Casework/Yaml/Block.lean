import Casework.Yaml.Source

/-!
# Block scalars

A block scalar is made of the lines behind its header that are indented enough. In the folded style
a line break between two lines that begin with no blank becomes a space. The header may tell by how
much the lines are indented, and what becomes of the line breaks at the end.
-/

namespace Casework.Yaml.Block

inductive Ending where
  /-- No break at the end. -/
  | strip
  /-- At most one. -/
  | clip
  | keep
deriving DecidableEq

structure Header where
  ending : Ending
  /-- By how much the lines are indented against the parent, if it is told. -/
  indentation : Option Nat

def ending? : Char → Option Ending
  | '+' => some .keep
  | '-' => some .strip
  | _ => none

def indentation? (c : Char) : Option Nat :=
  if '1' ≤ c ∧ c ≤ '9' then some (c.toNat - 48) else none

/-- The signs of a header, in either order. -/
def header : (source : Source) → ReadMany Header source
  | p :: q :: rest =>
    match ending? p.char, indentation? p.char with
    | some e, _ =>
      match indentation? q.char with
      | some n => ⟨⟨e, some n⟩, rest, by simp; omega⟩
      | none => ⟨⟨e, none⟩, q :: rest, by simp⟩
    | none, some n =>
      match ending? q.char with
      | some e => ⟨⟨e, some n⟩, rest, by simp; omega⟩
      | none => ⟨⟨.clip, some n⟩, q :: rest, by simp⟩
    | none, none => .nothing ⟨.clip, none⟩
  | [p] =>
    match ending? p.char, indentation? p.char with
    | some e, _ => ⟨⟨e, none⟩, [], by simp⟩
    | none, some n => ⟨⟨.clip, some n⟩, [], by simp⟩
    | none, none => .nothing ⟨.clip, none⟩
  | [] => .nothing ⟨.clip, none⟩

theorem restOfLine_length_le (s : Source) : (Source.restOfLine s).length ≤ s.length :=
  (List.dropWhile_sublist _).length_le

/-- What stands behind the line of the header, which may hold nothing more than a comment. -/
def behindHeader? (source : Source) : Option (ReadMany Unit source) :=
  let behind := source.dropWhile fun p => isBlank p.char
  have hbehind : behind.length ≤ source.length := (List.dropWhile_sublist _).length_le
  let line := if behind.head?.any (·.char == '#') then Source.restOfLine behind else behind
  have hline : line.length ≤ source.length := by
    have := restOfLine_length_le behind
    simp only [line]
    split <;> omega
  match h : line with
  | [] => some ⟨(), [], Nat.zero_le _⟩
  | p :: rest =>
    if isBreak p.char then some ⟨(), rest, by simp only [List.length_cons] at hline; omega⟩
    else none

/-- The breaks of blank lines, the last one first, and the greatest column that blanks reach. -/
structure BlankLines where
  breaks : List Char
  widest : Nat

/-- Passes over blank lines and the indentation of the line behind them. The column of the text is
known once a line with text has been seen. -/
def blankLines (column : Option Nat) (so : BlankLines) :
    (source : Source) → Option (ReadMany BlankLines source)
  | [] => some (.nothing so)
  | p :: rest =>
    let outside := column.all (p.column < ·)
    let goOn (so : BlankLines) : Option (ReadMany BlankLines (p :: rest)) :=
      (blankLines column so rest).map (·.after length_le_cons)
    if outside && p.char == ' ' then goOn { so with widest := max so.widest (p.column + 1) }
    else if outside && p.char == '\t' then none
    else if isBreak p.char then goOn { so with breaks := p.char :: so.breaks }
    else some (.nothing so)

/-- What has been read of the text, the last character first, and what divides it from the next
line. -/
structure Progress where
  text : List Char
  /-- The break at the end of the last line, unless the text ends there. -/
  lineEnd : List Char
  /-- Whether the last line begins with a blank. -/
  blank : Bool
  /-- The breaks of the blank lines behind it. -/
  later : List Char

/-- The text up to the next line. -/
def Progress.joined (so : Progress) (folded nextBlank : Bool) : List Char :=
  if folded && so.lineEnd == ['\n'] && !so.blank && !nextBlank then
    if so.later.isEmpty then ' ' :: so.text else so.later ++ so.text
  else so.later ++ so.lineEnd ++ so.text

/-- Reads the lines whose text begins in the column. -/
def lines? (folded : Bool) (column : Nat) (so : Progress) (source : Source) :
    Option (ReadMany Progress source) :=
  match source with
  | [] => some (.nothing so)
  | p :: rest =>
    if p.column = column then
      let text := so.joined folded (isBlank p.char)
      let line := p.char :: (rest.takeWhile fun q => !isBreak q.char).map (·.char)
      let text := line.reverse ++ text
      match h : Source.restOfLine rest with
      | [] => some ⟨⟨text, [], isBlank p.char, []⟩, [], Nat.zero_le _⟩
      | b :: more =>
        have hmore : more.length < rest.length := by
          have := restOfLine_length_le rest
          simp only [h, List.length_cons] at this
          omega
        match blankLines (some column) ⟨[], 0⟩ more with
        | none => none
        | some blank =>
          have hblank := blank.notLonger
          (lines? folded column ⟨text, [b.char], isBlank p.char, blank.value.breaks⟩ blank.rest).map
            (·.after (by simp only [List.length_cons]; omega))
    else some (.nothing so)
termination_by source.length
decreasing_by simp only [List.length_cons]; omega

def Progress.finished (so : Progress) : Ending → String
  | .strip => String.ofList so.text.reverse
  | .clip => String.ofList (so.lineEnd ++ so.text).reverse
  | .keep => String.ofList (so.later ++ so.lineEnd ++ so.text).reverse

/-- The lines of a scalar inside a collection of the given indentation. -/
def body? (folded : Bool) (parent : Int) (h : Header) (source : Source) :
    Option (ReadMany String source) := do
  let told := h.indentation.map fun n => (max parent 0).toNat + n
  let blank ← blankLines told ⟨[], 0⟩ source
  let column := told.getD (max blank.value.widest (max (parent + 1) 1).toNat)
  let r ← lines? folded column ⟨[], [], false, blank.value.breaks⟩ blank.rest
  return (r.map (·.finished h.ending)).after blank.notLonger

/-- The scalar behind its sign. -/
def read? (folded : Bool) (parent : Int) (sign : Placed) (rest : Source) :
    Option (Read String (sign :: rest)) := do
  let h := header rest
  let line ← behindHeader? h.rest
  let r ← body? folded parent h.value line.rest
  return r.toRead (by
    have := h.notLonger
    have := line.notLonger
    simp only [List.length_cons]
    omega)

end Casework.Yaml.Block
