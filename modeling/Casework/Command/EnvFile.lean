import Casework.Text.Blank

/-!
# Files of environment variables

Each line binds a name to a value, which may be quoted and may refer to variables bound before. A
quoted value may go on over several lines. Reading stops at the first line that makes no sense; what
stands before it counts.
-/

namespace Casework.EnvFile

/-- Where a line ends, as far as quotes are concerned. -/
inductive LineState where
  | complete | blank | escape
  | single | singleEscape
  | double | doubleEscape
  | comment
deriving DecidableEq

def LineState.outside (c : Char) : LineState :=
  if c == '\\' then .escape else if c == '"' then .double else if c == '\'' then .single
  else .complete

def LineState.next (c : Char) : LineState → LineState
  | .complete =>
    if Text.isBlank c && c != '\n' && c != '\r' then .blank else outside c
  | .blank => if c == '#' then .comment else outside c
  | .escape => .complete
  | .single => if c == '\\' then .singleEscape else if c == '\'' then .complete else .single
  | .singleEscape => .single
  | .double => if c == '\\' then .doubleEscape else if c == '"' then .complete else .double
  | .doubleEscape => .double
  | .comment => .comment

/-- The part of a line before a comment, and the state in which it ends. -/
def scanLine (state : LineState) : List Char → List Char × LineState
  | [] => ([], state)
  | c :: cs =>
    match state.next c with
    | .comment => ([], .comment)
    | state =>
      let (rest, final) := scanLine state cs
      (c :: rest, final)

/-- The lines of a text, each with its line feed. -/
def rawLines : List Char → List (List Char)
  | [] => []
  | c :: cs =>
    if c == '\n' then ['\n'] :: rawLines cs
    else match rawLines cs with
      | line :: lines => (c :: line) :: lines
      | [] => [[c]]

def withoutLineEnd (line : List Char) : List Char :=
  match line.reverse with
  | '\n' :: '\r' :: cs | '\n' :: cs => cs.reverse
  | cs => cs.reverse

/-- As many characters at the front as so many bytes hold. -/
def takeBytes : Nat → List Char → List Char
  | _, [] => []
  | n, c :: cs => if c.utf8Size ≤ n then c :: takeBytes (n - c.utf8Size) cs else []

def byteCount (cs : List Char) : Nat := (String.ofList cs).utf8ByteSize

/-- The lines to be read one by one; those that quotes hold together are one. An open quote at the
end is no line. A comment leaves as many bytes as its own line has before it. -/
def logicalLines (soFar : List Char) (state : LineState) : List (List Char) → List (List Char)
  | [] => []
  | line :: lines =>
    if (Text.trimStart (soFar ++ line)).head? == some '#' then
      [] :: logicalLines [] .complete lines
    else
      match scanLine state line with
      | (part, .comment) =>
        takeBytes (byteCount part) (soFar ++ part) :: logicalLines [] .complete lines
      | (part, .complete) => withoutLineEnd (soFar ++ part) :: logicalLines [] .complete lines
      | (part, state) => logicalLines (soFar ++ part) state lines

/-- How variables are looked up while a file is read: in the environment, then in the file. -/
abbrev Lookup := String → Option String

inductive Reference where
  | none
  /-- Behind a dollar sign. -/
  | bare (name : List Char)
  /-- Behind a dollar sign and a brace. -/
  | braced (name : List Char)

inductive Quote where
  | none | single | double
deriving DecidableEq

structure ValueState where
  quote : Quote
  escaped : Bool
  ended : Bool
  reference : Reference
  /-- The value so far, the last character first. -/
  output : List Char

namespace ValueState

def start : ValueState := ⟨.none, false, false, .none, []⟩

def push (s : ValueState) (c : Char) : ValueState := { s with output := c :: s.output }

def insertValue (s : ValueState) (lookup : Lookup) (name : List Char) : ValueState :=
  let value := (lookup (String.ofList name.reverse)).getD ""
  { s with reference := .none, output := value.toList.reverse ++ s.output }

def escape? (s : ValueState) (c : Char) : Option ValueState :=
  let s := { s with escaped := false }
  if c ∈ ['\\', '\'', '"', '$', ' '] then some (s.push c)
  else if c == 'n' then some (s.push '\n')
  else none

/-- Inside of a reference, whose name is made of letters and digits unless it stands in braces. -/
def refer (s : ValueState) (lookup : Lookup) (c : Char) : ValueState :=
  match s.reference with
  | .none => s
  | .bare name =>
    if c.isAlphanum then { s with reference := .bare (c :: name) }
    else if c == '\x7b' && name.isEmpty then { s with reference := .braced [] }
    else
      let s := s.insertValue lookup name
      if c == '$' then { s with reference := .bare [] } else s.push c
  | .braced name =>
    if c == '\x7d' then s.insertValue lookup name else { s with reference := .braced (c :: name) }

def plain (s : ValueState) (c : Char) : ValueState :=
  if c == '\'' then { s with quote := .single }
  else if c == '"' then { s with quote := .double }
  else if c == '\\' then { s with escaped := true }
  else if c == ' ' || c == '\t' then { s with ended := true }
  else s.push c

def inDouble (s : ValueState) (c : Char) : ValueState :=
  if c == '"' then { s with quote := .none }
  else if c == '\\' then { s with escaped := true }
  else s.push c

def isReferring (s : ValueState) : Bool :=
  match s.reference with
  | .none => false
  | _ => true

def next? (s : ValueState) (lookup : Lookup) (c : Char) : Option ValueState :=
  if s.escaped then s.escape? c
  else if s.quote = .single then some (if c == '\'' then { s with quote := .none } else s.push c)
  else if s.isReferring then some (s.refer lookup c)
  else if c == '$' then some { s with reference := .bare [] }
  else if s.quote = .double then some (s.inDouble c)
  else some (s.plain c)

/-- The value, if no quote and no brace is open. -/
def finish? (s : ValueState) (lookup : Lookup) : Option String :=
  match s.reference with
  | .braced _ => none
  | .bare name =>
    if s.quote = .none then some (String.ofList (s.insertValue lookup name).output.reverse)
    else none
  | .none => if s.quote = .none then some (String.ofList s.output.reverse) else none

end ValueState

/-- Behind a value only a comment may follow. -/
def value? (lookup : Lookup) (s : ValueState) : List Char → Option String
  | [] => s.finish? lookup
  | c :: cs =>
    if s.ended then
      if c == ' ' || c == '\t' then value? lookup s cs
      else if c == '#' then s.finish? lookup
      else none
    else (s.next? lookup c).bind fun s => value? lookup s cs

def isNameStart (c : Char) : Bool := c.isAlpha || c == '_'

def isNameChar (c : Char) : Bool := c.isAlphanum || c == '_' || c == '.'

def name? (cs : List Char) : Option (String × List Char) :=
  if cs.head?.any isNameStart then
    some (String.ofList (cs.takeWhile isNameChar), Text.trimStart (cs.dropWhile isNameChar))
  else none

/-- The name and what stands behind the equals sign. A name may follow the word `export`, which is
a name itself, too. -/
def binding? (cs : List Char) : Option (String × List Char) := do
  let (name, rest) ← name? cs
  match rest with
  | '=' :: value => return (name, Text.trimStart value)
  | rest =>
    if name == "export" then
      let (name, rest) ← name? rest
      match rest with
      | '=' :: value => return (name, Text.trimStart value)
      | _ => none
    else none

/-- What a line binds, if it binds something; no answer for a line that makes no sense. -/
def line? (lookup : Lookup) (line : List Char) : Option (Option (String × String)) :=
  let cs := Text.trim line
  match cs with
  | [] | '#' :: _ => some none
  | cs => do
    let (name, value) ← binding? cs
    match value with
    | [] | '#' :: _ => return some (name, "")
    | value => return some (name, ← value? lookup .start value)

/-- What the lines bind, behind what has been bound before. Of two bindings the first one counts. -/
def bindings (environment : Lookup) (before : List (String × String)) :
    List (List Char) → List (String × String)
  | [] => before
  | line :: lines =>
    let lookup name := (environment name).or (before.lookup name)
    match line? lookup line with
    | none => before
    | some none => bindings environment before lines
    | some (some binding) => bindings environment (before ++ [binding]) lines

/-- The environment with what the text binds. What the environment has already stays. -/
def extend (environment : Lookup) (text : String) : Lookup :=
  let cs := match text.toList with
    | '\ufeff' :: cs => cs
    | cs => cs
  let added := bindings environment [] (logicalLines [] .complete (rawLines cs))
  fun name => (environment name).or (added.lookup name)

end Casework.EnvFile
