import Casework.Document.Basic
import Casework.Yaml.Quoted

/-!
# YAML tokens

Tokens are what a text is made of once its layout is understood: collections that show by
indentation alone have tokens where they begin and end.
-/

namespace Casework.Yaml

inductive Directive where
  | version (major minor : Nat)
  /-- What a handle in front of a tag stands for. -/
  | tagHandle (handle meaning : String)
deriving DecidableEq, Repr

inductive Token where
  | directive (d : Directive)
  | documentStart | documentEnd
  | blockSequenceStart | blockMappingStart | blockEnd
  | flowSequenceStart | flowSequenceEnd | flowMappingStart | flowMappingEnd
  | blockEntry | flowEntry | key | value
  | alias (name : String)
  | anchor (name : String)
  | tag (handle suffix : String)
  | scalar (text : String) (style : ScalarStyle)
deriving DecidableEq, Repr

def isWordChar (c : Char) : Bool := c.isAlphanum || c == '_' || c == '-'

/-- The characters at the front that pass the test. -/
def takeChars (test : Char → Bool) (source : Source) : ReadMany String source :=
  ⟨String.ofList ((source.takeWhile fun p => test p.char).map (·.char)),
    source.dropWhile fun p => test p.char, (List.dropWhile_sublist _).length_le⟩

def skipBlanks (source : Source) : ReadMany Unit source :=
  (takeChars isBlank source).map fun _ => ()

namespace Anchor

/-- What may stand behind the name of an anchor. -/
def endsName : Source → Bool
  | [] => true
  | p :: _ => isBlank p.char || isBreak p.char ||
      p.char ∈ ['?', ':', ',', ']', '\x7d', '%', '@', '\x60']

/-- A name, of an anchor or behind the sign of an alias. -/
def name? (source : Source) : Option (ReadMany String source) :=
  let r := takeChars isWordChar source
  if r.value.isEmpty || !endsName r.rest then none else some r

end Anchor

namespace Tag

/-- Characters of a tag; some more of them within angle brackets and in directives. -/
def isTagChar (wide : Bool) (c : Char) : Bool :=
  isWordChar c || c ∈ [';', '/', '?', ':', '@', '&', '=', '+', '$', '.', '%', '!', '~', '*', '\'',
    '(', ')'] || (wide && c ∈ [',', '[', ']'])

/-- The bytes of a text in which some are written as a percent sign and two digits. -/
def bytes? : List Char → Option (List UInt8)
  | [] => some []
  | '%' :: a :: b :: cs => do
    let high ← Quoted.hexDigit? a
    let low ← Quoted.hexDigit? b
    return (UInt8.ofNat (high * 16 + low)) :: (← bytes? cs)
  | '%' :: _ => none
  | c :: cs => do return (String.singleton c).toUTF8.toList ++ (← bytes? cs)

def unescaped? (s : String) : Option String := do
  String.fromUTF8? ⟨(← bytes? s.toList).toArray⟩

def uri? (wide : Bool) (source : Source) : Option (ReadMany String source) := do
  let r := takeChars (isTagChar wide) source
  let text ← unescaped? r.value
  return r.map fun _ => text

/-- A handle: a mark, perhaps with a word and another mark behind it. -/
def handle? : (source : Source) → Option (Read String source)
  | p :: rest =>
    if p.char == '!' then
      let word := takeChars isWordChar rest
      have hword := word.notLonger
      match h : word.rest with
      | q :: more =>
        if q.char == '!' then
          some ⟨"!" ++ word.value ++ "!", more, by simp only [h, List.length_cons] at *; omega⟩
        else some ⟨"!" ++ word.value, q :: more, by simp only [h, List.length_cons] at *; omega⟩
      | [] => some ⟨"!" ++ word.value, [], by simp⟩
    else none
  | [] => none

/-- A tag with its handle, which is empty when the tag stands for itself. -/
structure Name where
  handle : String
  suffix : String

def isNamedHandle (handle : String) : Bool :=
  handle.length ≥ 2 && handle.toList.getLast? == some '!'

def verbatim? : (source : Source) → Option (Read Name source)
  | p :: q :: rest =>
    if p.char == '!' && q.char == '<' then
      (uri? true rest).bind fun uri =>
        match h : uri.rest with
        | r :: more =>
          if r.char == '>' && !uri.value.isEmpty then
            some ⟨⟨"", uri.value⟩, more, by
              have := uri.notLonger
              simp only [h, List.length_cons] at *
              omega⟩
          else none
        | [] => none
    else none
  | _ => none

def shorthand? (source : Source) : Option (Read Name source) := do
  let handle ← handle? source
  let uri ← uri? false handle.rest
  let name : Option Name :=
    if isNamedHandle handle.value then
      if uri.value.isEmpty then none else some ⟨handle.value, uri.value⟩
    else
      let suffix := String.ofList handle.value.toList.tail ++ uri.value
      some (if suffix.isEmpty then ⟨"", "!"⟩ else ⟨"!", suffix⟩)
  return ⟨← name, uri.rest, Nat.lt_of_le_of_lt uri.notLonger handle.shorter⟩

/-- A tag, with a blank or the end of a line behind it. -/
def read? (inFlow : Bool) (source : Source) : Option (Read Name source) := do
  let r ← if (source.drop 1).head?.any (·.char == '<') then verbatim? source else shorthand? source
  if Source.spaced r.rest || (inFlow && r.rest.head?.any (·.char == ',')) then some r else none

end Tag

namespace Directive

def number? (source : Source) : Option (ReadMany Nat source) :=
  let r := takeChars Char.isDigit source
  if r.value.isEmpty || r.value.length > 9 then none
  else some (r.map fun s => s.toList.foldl (fun n c => n * 10 + (c.toNat - 48)) 0)

def version? (source : Source) : Option (ReadMany Directive source) := do
  let blanks := skipBlanks source
  let major ← number? blanks.rest
  match h : major.rest with
  | p :: rest =>
    if p.char == '.' then
      let minor ← number? rest
      return (minor.map (Directive.version major.value)).after (by
        have := blanks.notLonger
        have := major.notLonger
        simp only [h, List.length_cons] at *
        omega)
    else none
  | [] => none

def tagHandle? (source : Source) : Option (ReadMany Directive source) := do
  let blanks := skipBlanks source
  let handle ← Tag.handle? blanks.rest
  if handle.value ≠ "!" ∧ !Tag.isNamedHandle handle.value then none
  else if !handle.rest.head?.any (isBlank ·.char) then none
  else
    let more := skipBlanks handle.rest
    let uri ← Tag.uri? true more.rest
    if uri.value.isEmpty || !Source.spaced uri.rest then none
    else return (uri.map (Directive.tagHandle handle.value)).after (by
      have := blanks.notLonger
      have := handle.shorter
      have := more.notLonger
      omega)

/-- A directive behind its sign, up to the end of its line, on which nothing but a comment may
follow. -/
def read? (source : Source) : Option (ReadMany Directive source) := do
  let name := takeChars isWordChar source
  if !Source.spaced name.rest then none
  else
    let directive ←
      if name.value == "YAML" then version? name.rest
      else if name.value == "TAG" then tagHandle? name.rest
      else none
    let blanks := skipBlanks directive.rest
    let comment := blanks.rest.head?.any (·.char == '#')
    let rest := if comment then Source.restOfLine blanks.rest else blanks.rest
    if !rest.head?.all (isBreak ·.char) then none
    else return ⟨directive.value, rest.drop 1, by
      have := name.notLonger
      have := directive.notLonger
      have := blanks.notLonger
      have : rest.length ≤ blanks.rest.length := by
        simp only [rest]
        split
        · exact (List.dropWhile_sublist _).length_le
        · exact Nat.le_refl _
      simp only [List.length_drop]
      omega⟩

end Directive

end Casework.Yaml
