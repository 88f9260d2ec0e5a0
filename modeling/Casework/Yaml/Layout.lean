import Casework.Yaml.Block
import Casework.Yaml.Plain
import Casework.Yaml.Token

/-!
# Layout

`tokens?` tells the tokens of a text. In a block collection indentation counts: a line that is
indented less than the collection ends it. That something is a key shows by the colon behind it
only; until then it is a candidate, whose place among the tokens is kept. A candidate has to end on
its line and cannot be long; one that stands where only a key can stand must turn out to be one.
-/

namespace Casework.Yaml

structure KeyCandidate where
  required : Bool
  /-- How many tokens there are before it. -/
  token : Nat
  start : Placed

structure Layout where
  tokens : Array Token
  /-- The column of the innermost block collection, -1 outside of all. -/
  column : Int
  /-- The columns of those around it. -/
  outer : List Int
  candidate : Option KeyCandidate
  /-- The candidates around each flow collection that is open, the innermost first. -/
  outerCandidates : List (Option KeyCandidate)
  /-- Whether a key may begin here. -/
  keyAllowed : Bool

namespace Layout

def start : Layout := ⟨#[], -1, [], none, [], true⟩

def inFlow (l : Layout) : Bool := !l.outerCandidates.isEmpty

def push (l : Layout) (t : Token) : Layout := { l with tokens := l.tokens.push t }

/-- Gives the candidate up, if that is possible. -/
def dropCandidate? (l : Layout) : Option Layout :=
  if l.candidate.any (·.required) then none else some { l with candidate := none }

/-- Something that may be a key begins here. -/
def noteCandidate? (l : Layout) (p : Placed) : Option Layout :=
  if l.keyAllowed then do
    let l ← l.dropCandidate?
    let required := !l.inFlow && l.column == p.column
    return { l with candidate := some ⟨required, l.tokens.size, p⟩ }
  else some l

/-- A block collection begins before the given token, if none in that column is open. -/
def enter (l : Layout) (column : Int) (token : Nat) (start : Token) : Layout :=
  if l.inFlow || column ≤ l.column then l
  else { l with
    column, outer := l.column :: l.outer, tokens := l.tokens.insertIdxIfInBounds token start }

def closeAll (column : Int) (current : Int) (tokens : Array Token) :
    List Int → Int × List Int × Array Token
  | [] => (current, [], tokens)
  | next :: outer =>
    if column < current then closeAll column next (tokens.push .blockEnd) outer
    else (current, next :: outer, tokens)

/-- Ends the block collections that are indented deeper than the column. -/
def close (l : Layout) (column : Int) : Layout :=
  if l.inFlow then l
  else
    let (current, outer, tokens) := closeAll column l.column l.tokens l.outer
    { l with column := current, outer, tokens }

/-- What divides documents ends all that is open. -/
def divide? (l : Layout) (t : Token) : Option Layout := do
  let l ← (l.close (-1)).dropCandidate?
  return { l.push t with keyAllowed := false }

def openFlow? (l : Layout) (p : Placed) (t : Token) : Option Layout := do
  let l ← l.noteCandidate? p
  return { l.push t with
    candidate := none, outerCandidates := l.candidate :: l.outerCandidates, keyAllowed := true }

def closeFlow? (l : Layout) (t : Token) : Option Layout := do
  let l ← l.dropCandidate?
  let l := match l.outerCandidates with
    | candidate :: others => { l with candidate, outerCandidates := others }
    | [] => l
  return { l.push t with keyAllowed := false }

def flowEntry? (l : Layout) : Option Layout := do
  return { (← l.dropCandidate?).push .flowEntry with keyAllowed := true }

/-- An entry or a key that is marked as such may begin a block collection. -/
def marked? (l : Layout) (p : Placed) (collection t : Token) (keyAllowed : Bool) :
    Option Layout := do
  if !l.inFlow && !l.keyAllowed then none
  else
    let l ← (l.enter p.column l.tokens.size collection).dropCandidate?
    return { l.push t with keyAllowed }

/-- The candidate before a colon, unless it is too far away. -/
def keyBefore? (l : Layout) (p : Placed) : Option (Option KeyCandidate) :=
  match l.candidate with
  | some k =>
    if k.start.line < p.line || k.start.index + 1024 < p.index then
      if k.required then none else some none
    else some (some k)
  | none => some none

def value? (l : Layout) (p : Placed) : Option Layout := do
  match ← l.keyBefore? p with
  | some k =>
    let l := { l with tokens := l.tokens.insertIdxIfInBounds k.token .key }
    let l := l.enter k.start.column k.token .blockMappingStart
    return { l.push .value with candidate := none, keyAllowed := false }
  | none =>
    if !l.inFlow && !l.keyAllowed then none
    else
      let l := l.enter p.column l.tokens.size .blockMappingStart
      return { l.push .value with candidate := none, keyAllowed := !l.inFlow }

/-- Something that may be a key has been read. -/
def item? (l : Layout) (p : Placed) (t : Token) (keyAllowed : Bool) : Option Layout := do
  return { (← l.noteCandidate? p).push t with keyAllowed }

/-- A byte order mark at the start of a line, which counts for the place of what follows. -/
def isMark (p : Placed) : Bool := p.column == 0 && p.char == '\ufeff'

/-- The rest behind blanks, comments and line breaks, and whether a key may begin there. Tabs are no
indentation. -/
def gap (inFlow keyAllowed : Bool) (source : Source) : ReadMany Bool source :=
  match source with
  | [] => .nothing keyAllowed
  | p :: rest =>
    if p.char == ' ' || ((inFlow || !keyAllowed) && p.char == '\t') || isMark p then
      (gap inFlow keyAllowed rest).after length_le_cons
    else if p.char == '#' then
      (gap inFlow keyAllowed (Source.restOfLine rest)).after
        (Nat.le_succ_of_le (Block.restOfLine_length_le rest))
    else if isBreak p.char then
      (gap inFlow (keyAllowed || !inFlow) rest).after length_le_cons
    else .nothing keyAllowed
termination_by source.length
decreasing_by
  · exact length_lt_cons
  · exact Nat.lt_succ_of_le (Block.restOfLine_length_le rest)
  · exact length_lt_cons

/-- Characters that have a meaning of their own at the start of a token. -/
def isIndicator (c : Char) : Bool :=
  c ∈ ['-', '?', ':', ',', '[', ']', '\x7b', '\x7d', '#', '&', '*', '!', '|', '>', '\'', '"', '%',
    '@', '\x60']

def startsPlain (inFlow : Bool) (p : Placed) (rest : Source) : Bool :=
  if isBlank p.char || isBreak p.char then false
  else if isIndicator p.char then
    p.char == '-' || (!inFlow && (p.char == '?' || p.char == ':') && !rest.spaced)
  else true

def plain? (l : Layout) (p : Placed) (rest : Source) : Option (Read Layout (p :: rest)) := do
  if !startsPlain l.inFlow p rest then none
  else
    let r ← Plain.read? ⟨l.inFlow, (l.column + 1).toNat⟩ p rest
    let l ← l.item? p (.scalar r.value.text .plain) r.value.newLine
    return r.map fun _ => l

def quoted? (l : Layout) (double : Bool) (p : Placed) (rest : Source) :
    Option (Read Layout (p :: rest)) := do
  let r ← Quoted.read? double p rest
  let l ← l.item? p (.scalar r.value .other) false
  return r.map fun _ => l

def block? (l : Layout) (folded : Bool) (p : Placed) (rest : Source) :
    Option (Read Layout (p :: rest)) := do
  let r ← Block.read? folded l.column p rest
  let l ← l.dropCandidate?
  let style := if folded then ScalarStyle.other else .literal
  return r.map fun text => { l.push (.scalar text style) with keyAllowed := true }

def named? (l : Layout) (token : String → Token) (p : Placed) (rest : Source) :
    Option (Read Layout (p :: rest)) := do
  let r ← Anchor.name? rest
  let l ← l.item? p (token r.value) false
  return (r.map fun _ => l).toRead length_lt_cons

def tag? (l : Layout) (p : Placed) (rest : Source) : Option (Read Layout (p :: rest)) := do
  let r ← Tag.read? l.inFlow (p :: rest)
  let l ← l.item? p (.tag r.value.handle r.value.suffix) false
  return r.map fun _ => l

def directive? (l : Layout) (p : Placed) (rest : Source) : Option (Read Layout (p :: rest)) := do
  let r ← Directive.read? rest
  let l ← l.divide? (.directive r.value)
  return (r.map fun _ => l).toRead length_lt_cons

/-- A token of one character. -/
def sign? (l : Option Layout) (p : Placed) (rest : Source) : Option (Read Layout (p :: rest)) :=
  l.map fun l => ⟨l, rest, length_lt_cons⟩

/-- The next token, and what shows with it. -/
def next? (l : Layout) (p : Placed) (rest : Source) : Option (Read Layout (p :: rest)) :=
  let marks := rest.spaced || l.inFlow
  if p.column == 0 && p.char == '%' then l.directive? p rest
  else if Source.dividesDocuments (p :: rest) then
    (l.divide? (if p.char == '-' then .documentStart else .documentEnd)).map fun l =>
      ⟨l, rest.drop 2, by simp only [List.length_drop, List.length_cons]; omega⟩
  else match p.char with
    | '[' => sign? (l.openFlow? p .flowSequenceStart) p rest
    | '\x7b' => sign? (l.openFlow? p .flowMappingStart) p rest
    | ']' => sign? (l.closeFlow? .flowSequenceEnd) p rest
    | '\x7d' => sign? (l.closeFlow? .flowMappingEnd) p rest
    | ',' => sign? l.flowEntry? p rest
    | '*' => l.named? .alias p rest
    | '&' => l.named? .anchor p rest
    | '!' => l.tag? p rest
    | '\'' => l.quoted? false p rest
    | '"' => l.quoted? true p rest
    | '|' => if l.inFlow then none else l.block? false p rest
    | '>' => if l.inFlow then none else l.block? true p rest
    | '-' =>
      if rest.spaced then sign? (l.marked? p .blockSequenceStart .blockEntry true) p rest
      else l.plain? p rest
    | '?' =>
      if marks then sign? (l.marked? p .blockMappingStart .key (!l.inFlow)) p rest
      else l.plain? p rest
    | ':' => if marks then sign? (l.value? p) p rest else l.plain? p rest
    | _ => l.plain? p rest

def finish? (l : Layout) : Option (List Token) :=
  (l.close (-1)).dropCandidate?.map (·.tokens.toList)

def read? (l : Layout) (source : Source) : Option (List Token) :=
  let g := gap l.inFlow l.keyAllowed source
  let l := { l with keyAllowed := g.value }
  match h : g.rest with
  | [] => l.finish?
  | p :: rest =>
    match (l.close p.column).next? p rest with
    | none => none
    | some r =>
      have : r.rest.length < source.length := by
        have := r.shorter
        have := g.notLonger
        rw [h] at this
        omega
      read? r.value r.rest
termination_by source.length

end Layout

def tokens? (text : String) : Option (List Token) := do Layout.start.read? (← source? text)

end Casework.Yaml
