import Casework.Formula.Error
import Casework.Text.Blank

/-!
# From text to tokens

The lexer takes, again and again, the longest lexeme at the front of the text and drops the blanks
behind it. A name starts with an ASCII letter or an underscore and goes on with letters, digits,
underscores and points; a number is digits, or digits round a point that has a digit behind it.
-/

namespace Casework.Formula

def isNameStart (c : Char) : Bool := c.isAlpha || c == '_'

def isNamePart (c : Char) : Bool := c.isAlphanum || c == '_' || c == '.'

inductive Lexeme where
  | number (text : List Char)
  | name (text : List Char)
  | symbol (s : Symbol)
deriving DecidableEq, Repr

def Lexeme.text : Lexeme → List Char
  | .number text | .name text => text
  | .symbol s => s.text.toList

/-- The point and the digits of a fraction at the front of the text. -/
def fraction : List Char → List Char
  | '.' :: cs =>
    if (cs.takeWhile Char.isDigit).isEmpty then [] else '.' :: cs.takeWhile Char.isDigit
  | _ => []

def number (cs : List Char) : List Char :=
  let whole := cs.takeWhile Char.isDigit
  whole ++ fraction (cs.drop whole.length)

def symbol? : List Char → Option Symbol
  | '<' :: '=' :: _ => some .lessEqual
  | '>' :: '=' :: _ => some .greaterEqual
  | '=' :: '=' :: _ => some .equal
  | '<' :: _ => some .less
  | '>' :: _ => some .greater
  | '+' :: _ => some .plus
  | '-' :: _ => some .minus
  | '*' :: _ => some .star
  | '/' :: _ => some .slash
  | '(' :: _ => some .leftParen
  | ')' :: _ => some .rightParen
  | ',' :: _ => some .comma
  | _ => none

/-- The lexeme at the front of the text. -/
def lexeme? (cs : List Char) : Option Lexeme :=
  if !(number cs).isEmpty then some (.number (number cs))
  else if cs.head?.any isNameStart then some (.name (cs.takeWhile isNamePart))
  else (symbol? cs).map .symbol

theorem isNamePart_of_isNameStart {c : Char} (h : isNameStart c = true) : isNamePart c = true := by
  simp only [isNameStart, isNamePart, Bool.or_eq_true, Char.isAlphanum] at *
  rcases h with h | h <;> simp [h]

theorem Symbol.text_length_pos (s : Symbol) : 0 < s.text.toList.length := by
  cases s <;> decide

theorem lexeme?_length_pos {cs : List Char} {l : Lexeme} (h : lexeme? cs = some l) :
    0 < l.text.length := by
  rw [lexeme?] at h
  split at h
  · rename_i hnumber
    obtain rfl := Option.some.inj h
    simpa [Lexeme.text, List.length_pos_iff, List.isEmpty_iff] using hnumber
  · split at h
    · rename_i hstart
      obtain rfl := Option.some.inj h
      cases cs with
      | nil => simp at hstart
      | cons c cs =>
        have hpart := isNamePart_of_isNameStart (by simpa using hstart : isNameStart c = true)
        simp [Lexeme.text, hpart]
    · obtain ⟨s, -, rfl⟩ := Option.map_eq_some_iff.1 h
      exact s.text_length_pos

def byteLength : List Char → Nat
  | [] => 0
  | c :: cs => c.utf8Size + byteLength cs

def Lexeme.token (offset : Nat) : Lexeme → Except FormulaError Token
  | .number text =>
    match Decimal.ofChars? text with
    | some value => .ok (.number value)
    | none => .error (.invalidNumber (String.ofList text) offset)
  | .name text => .ok (.name (String.ofList text))
  | .symbol s => .ok (.symbol s)

/-- The tokens of `cs`, the front of which lies `offset` bytes behind the start of the formula. -/
def tokensFrom (offset : Nat) (cs : List Char) : Except FormulaError (List Located) :=
  match cs with
  | [] => .ok []
  | c :: tail =>
    if Text.isBlank c then tokensFrom (offset + c.utf8Size) tail
    else match _h : lexeme? (c :: tail) with
      | none => .error (.invalidCharacter c offset)
      | some l => do
        let token ← l.token offset
        let others ← tokensFrom (offset + byteLength l.text) ((c :: tail).drop l.text.length)
        return ⟨token, offset⟩ :: others
termination_by cs.length
decreasing_by
  · simp
  · have := lexeme?_length_pos _h
    simp only [List.length_drop, List.length_cons]
    omega

def tokenize (formula : String) : Except FormulaError (List Located) :=
  tokensFrom 0 formula.toList

/-- The token with the value of the variable that it names. -/
def Located.bind (value : String → Option Decimal) (t : Located) : Except FormulaError Located :=
  match t.token with
  | .name text =>
    if (Keyword.ofName? text).isSome then .ok t
    else match value text with
      | some d => .ok { t with token := .number d }
      | none => .error (.unknownVariable text)
  | _ => .ok t

/-- Every name other than a reserved one gives way to its value. The first one without a value is
an error, wherever it stands. -/
def bindVariables (value : String → Option Decimal) (ts : List Located) :
    Except FormulaError (List Located) :=
  ts.mapM (·.bind value)

end Casework.Formula
