import Casework.Json.Basic
import Casework.Json.Number
import Casework.Read

/-!
# Reading JSON text

`document?` reads a text as far as the grammar of JSON goes: a number out of range or half a
surrogate pair is left as something invalid. `Json.ofText?` reads a value, for which nothing invalid
and no deep nesting is allowed.
-/

namespace Casework.Json

def isSpace (c : Char) : Bool := c == ' ' || c == '\n' || c == '\t' || c == '\r'

def skipSpaces (cs : List Char) : List Char := cs.dropWhile isSpace

theorem skipSpaces_length_le (cs : List Char) : (skipSpaces cs).length ≤ cs.length :=
  (List.dropWhile_sublist isSpace).length_le

def hexValue? (c : Char) : Option Nat := Scalar.digitIn? 16 c

def hexQuad? (a b c d : Char) : Option Nat := do
  return (((← hexValue? a) * 16 + (← hexValue? b)) * 16 + (← hexValue? c)) * 16 + (← hexValue? d)

/-- A character of a string, or the code unit that an escape names. -/
inductive Piece where
  | char (c : Char)
  | unit (n : Nat)

def simpleEscape? (c : Char) : Option Char :=
  if c = '"' ∨ c = '\\' ∨ c = '/' then some c
  else if c = 'b' then some '\x08'
  else if c = 'f' then some '\x0c'
  else if c = 'n' then some '\n'
  else if c = 'r' then some '\r'
  else if c = 't' then some '\t'
  else none

/-- The pieces of a string up to its closing quote. -/
def readPieces (cs : List Char) : Option (Read (List Piece) cs) :=
  match cs with
  | [] => none
  | '"' :: rest => some ⟨[], rest, length_lt_cons⟩
  | '\\' :: 'u' :: a :: b :: c :: d :: rest => do
    let n ← hexQuad? a b c d
    let others ← readPieces rest
    return (others.map (.unit n :: ·)).after (length_le_append ['\\', 'u', a, b, c, d])
  | '\\' :: c :: rest => do
    let e ← simpleEscape? c
    let others ← readPieces rest
    return (others.map (.char e :: ·)).after (length_le_append ['\\', c])
  | c :: rest =>
    if c.toNat < 32 || c = '\\' then none
    else do
      let others ← readPieces rest
      return (others.map (.char c :: ·)).after length_le_cons
termination_by cs.length

def joinSurrogates (high low : Nat) : Char :=
  Char.ofNat (0x10000 + (high - 0xD800) * 0x400 + (low - 0xDC00))

/-- The characters of the pieces, if every surrogate is one half of a pair. -/
def joinPieces? : List Piece → Option (List Char)
  | [] => some []
  | .char c :: rest => return c :: (← joinPieces? rest)
  | .unit n :: rest =>
    if 0xDC00 ≤ n ∧ n ≤ 0xDFFF then none
    else if 0xD800 ≤ n ∧ n ≤ 0xDBFF then
      match rest with
      | .unit m :: rest =>
        if 0xDC00 ≤ m ∧ m ≤ 0xDFFF then return joinSurrogates n m :: (← joinPieces? rest) else none
      | _ => none
    else return Char.ofNat n :: (← joinPieces? rest)

def textOf (pieces : List Piece) : Document :=
  (joinPieces? pieces).elim .invalid fun cs => .text (String.ofList cs)

/-- Digits at the front, none of them behind a leading zero. -/
def readWhole (cs : List Char) : Option (Read (List Char) cs) :=
  match cs with
  | [] => none
  | c :: rest =>
    if c = '0' then
      if rest.head?.any Char.isDigit then none else some ⟨[c], rest, length_lt_cons⟩
    else if c.isDigit then
      some ⟨c :: rest.takeWhile Char.isDigit, rest.dropWhile Char.isDigit,
        Nat.lt_succ_of_le (List.dropWhile_sublist _).length_le⟩
    else none

/-- One or more digits at the front. -/
def readDigits (cs : List Char) : Option (Read (List Char) cs) :=
  match cs with
  | [] => none
  | c :: rest =>
    if c.isDigit then
      some ⟨c :: rest.takeWhile Char.isDigit, rest.dropWhile Char.isDigit,
        Nat.lt_succ_of_le (List.dropWhile_sublist _).length_le⟩
    else none

def readFraction (cs : List Char) : Option (ReadMany (Option (List Char)) cs) :=
  match cs with
  | '.' :: rest => do
    let ds ← readDigits rest
    return ⟨some ds.value, ds.rest, Nat.le_succ_of_le (Nat.le_of_lt ds.shorter)⟩
  | cs => some ⟨none, cs, Nat.le_refl _⟩

def readExponentDigits (negative : Bool) (cs : List Char) :
    Option (ReadMany (Option (Bool × List Char)) cs) := do
  let ds ← readDigits cs
  return ⟨some (negative, ds.value), ds.rest, Nat.le_of_lt ds.shorter⟩

def readExponent (cs : List Char) : Option (ReadMany (Option (Bool × List Char)) cs) :=
  match cs with
  | [] => some ⟨none, [], Nat.le_refl _⟩
  | c :: rest =>
    if c = 'e' ∨ c = 'E' then
      match rest with
      | '+' :: ds => do
        let r ← readExponentDigits false ds
        return ⟨r.value, r.rest, by have := r.notLonger; simp only [List.length_cons]; omega⟩
      | '-' :: ds => do
        let r ← readExponentDigits true ds
        return ⟨r.value, r.rest, by have := r.notLonger; simp only [List.length_cons]; omega⟩
      | ds => do
        let r ← readExponentDigits false ds
        return ⟨r.value, r.rest, Nat.le_succ_of_le r.notLonger⟩
    else some ⟨none, c :: rest, Nat.le_refl _⟩

def readUnsigned (negative : Bool) (cs : List Char) : Option (Read Literal cs) := do
  let whole ← readWhole cs
  let fraction ← readFraction whole.rest
  let exponent ← readExponent fraction.rest
  return ⟨⟨negative, whole.value, fraction.value, exponent.value⟩, exponent.rest,
    Nat.lt_of_le_of_lt (Nat.le_trans exponent.notLonger fraction.notLonger) whole.shorter⟩

def readNumber (cs : List Char) : Option (Read Document cs) :=
  match cs with
  | '-' :: rest => return ((← readUnsigned true rest).map Literal.value).after length_le_cons
  | cs => return (← readUnsigned false cs).map Literal.value

mutual

/-- A value at the front, which is not blank. -/
def readValue (cs : List Char) : Option (Read Document cs) :=
  match cs with
  | [] => none
  | '"' :: rest => return ((← readPieces rest).map textOf).after length_le_cons
  | '[' :: rest =>
    match h : skipSpaces rest with
    | ']' :: behind => some ⟨.list [], behind, by
        have := skipSpaces_length_le rest
        simp only [h, List.length_cons] at *
        omega⟩
    | _ => return ((← readItems rest).map .list).after length_le_cons
  | '\x7b' :: rest =>
    match h : skipSpaces rest with
    | '\x7d' :: behind => some ⟨.table [], behind, by
        have := skipSpaces_length_le rest
        simp only [h, List.length_cons] at *
        omega⟩
    | _ => return ((← readMembers rest).map .table).after length_le_cons
  | 'n' :: 'u' :: 'l' :: 'l' :: rest =>
    some ⟨.null, rest, by simp only [List.length_cons]; omega⟩
  | 't' :: 'r' :: 'u' :: 'e' :: rest =>
    some ⟨.bool true, rest, by simp only [List.length_cons]; omega⟩
  | 'f' :: 'a' :: 'l' :: 's' :: 'e' :: rest =>
    some ⟨.bool false, rest, by simp only [List.length_cons]; omega⟩
  | cs => readNumber cs
termination_by (cs.length, 0)

/-- One or more values and the closing bracket. -/
def readItems (cs : List Char) : Option (Read (List Document) cs) := do
  let first ← readValue (skipSpaces cs)
  have hfirst := Nat.lt_of_lt_of_le first.shorter (skipSpaces_length_le cs)
  match h : skipSpaces first.rest with
  | ']' :: rest => some ⟨[first.value], rest, by
      have := skipSpaces_length_le first.rest
      simp only [h, List.length_cons] at *
      omega⟩
  | ',' :: rest => do
    have hrest : rest.length < cs.length := by
      have := skipSpaces_length_le first.rest
      simp only [h, List.length_cons] at *
      omega
    let others ← readItems rest
    return (others.map (first.value :: ·)).after (Nat.le_of_lt hrest)
  | _ => none
termination_by (cs.length, 1)
decreasing_by
  · have := skipSpaces_length_le cs
    rcases Nat.lt_or_eq_of_le this with h | h
    · exact Prod.Lex.left _ _ h
    · rw [h]
      exact Prod.Lex.right _ (by decide)
  · exact Prod.Lex.left _ _ hrest

/-- One or more members and the closing brace. -/
def readMembers (cs : List Char) : Option (Read (List (Document × Document)) cs) := do
  match hname : skipSpaces cs with
  | '"' :: nameText =>
    have hnameText : nameText.length < cs.length := by
      have := skipSpaces_length_le cs
      simp only [hname, List.length_cons] at this
      omega
    let name ← readPieces nameText
    match hcolon : skipSpaces name.rest with
    | ':' :: valueText =>
      have hvalueText : valueText.length < cs.length := by
        have := skipSpaces_length_le name.rest
        have := name.shorter
        simp only [hcolon, List.length_cons] at *
        omega
      let value ← readValue (skipSpaces valueText)
      have hvalue := Nat.lt_of_lt_of_le value.shorter (skipSpaces_length_le valueText)
      match h : skipSpaces value.rest with
      | '\x7d' :: rest => some ⟨[(textOf name.value, value.value)], rest, by
          have := skipSpaces_length_le value.rest
          simp only [h, List.length_cons] at *
          omega⟩
      | ',' :: rest => do
        have hrest : rest.length < cs.length := by
          have := skipSpaces_length_le value.rest
          simp only [h, List.length_cons] at *
          omega
        let others ← readMembers rest
        return (others.map ((textOf name.value, value.value) :: ·)).after (Nat.le_of_lt hrest)
      | _ => none
    | _ => none
  | _ => none
termination_by (cs.length, 1)
decreasing_by
  · exact Prod.Lex.left _ _ (Nat.lt_of_le_of_lt (skipSpaces_length_le _) hvalueText)
  · exact Prod.Lex.left _ _ hrest

end

/-- The document that fills the text. -/
def document? (text : String) : Option Document := do
  let r ← readValue (skipSpaces text.toList)
  if (skipSpaces r.rest).isEmpty then some r.value else none

def ofText? (text : String) : Option Json := (document? text).bind (ofDocument? maxDepth)

end Casework.Json
