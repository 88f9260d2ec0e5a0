import Casework.Yaml.Gap

/-!
# Quoted scalars

Between single quotes only the quote itself is special, and written twice. Between double quotes a
backslash makes the next character special, or stands before the number of one; at the end of a line
it joins the next line without a space.
-/

namespace Casework.Yaml.Quoted

def hexDigit? (c : Char) : Option Nat :=
  if c.isDigit then some (c.toNat - 48)
  else if 'a' ≤ c ∧ c ≤ 'f' then some (c.toNat - 87)
  else if 'A' ≤ c ∧ c ≤ 'F' then some (c.toNat - 55)
  else none

/-- The character that a backslash makes of another one. -/
def special? : Char → Option Char
  | '0' => some '\x00'
  | 'a' => some '\x07'
  | 'b' => some '\x08'
  | 't' | '\t' => some '\t'
  | 'n' => some '\n'
  | 'v' => some '\x0b'
  | 'f' => some '\x0c'
  | 'r' => some '\r'
  | 'e' => some '\x1b'
  | ' ' => some ' '
  | '"' => some '"'
  | '/' => some '/'
  | '\\' => some '\\'
  | 'N' => some '\u0085'
  | '_' => some '\u00a0'
  | 'L' => some '\u2028'
  | 'P' => some '\u2029'
  | _ => none

/-- How many digits of a character's number follow. -/
def digitCount? : Char → Option Nat
  | 'x' => some 2
  | 'u' => some 4
  | 'U' => some 8
  | _ => none

/-- The character with the number that the digits give. -/
def numbered? (count : Nat) (source : Source) : Option Char := do
  let digits ← (source.take count).mapM fun p => hexDigit? p.char
  let number := digits.foldl (fun n d => n * 16 + d) 0
  if digits.length = count ∧ number.isValidChar then some (Char.ofNat number) else none

/-- Reads on up to the closing quote. The text so far has its last character first. -/
def readFrom (double : Bool) (text : List Char) (gap : Gap) (source : Source) :
    Option (ReadMany String source) :=
  match source with
  | [] => none
  | p :: rest =>
    let goOn (text : List Char) (gap : Gap) : Option (ReadMany String (p :: rest)) :=
      (readFrom double text gap rest).map (·.after length_le_cons)
    if isBlank p.char then goOn text (gap.addBlank p.char)
    else if isBreak p.char then goOn text (gap.addBreak p.char)
    else if Source.dividesDocuments (p :: rest) then none
    else
      let text := gap.text ++ text
      if double && p.char == '"' then
        some ⟨String.ofList text.reverse, rest, length_le_cons⟩
      else if double && p.char == '\\' then
        match rest with
        | [] => none
        | q :: more =>
          have hmore : more.length ≤ (p :: q :: more).length := by simp; omega
          if isBreak q.char then
            (readFrom double text .escaped more).map (·.after hmore)
          else
            match special? q.char, digitCount? q.char with
            | some c, _ => (readFrom double (c :: text) .none more).map (·.after hmore)
            | none, some count =>
              match numbered? count more with
              | some c =>
                (readFrom double (c :: text) .none (more.drop count)).map
                  (·.after (by simp; omega))
              | none => none
            | none, none => none
      else if !double && p.char == '\'' then
        match rest with
        | q :: more =>
          if q.char == '\'' then
            (readFrom double ('\'' :: text) .none more).map (·.after (by simp; omega))
          else some ⟨String.ofList text.reverse, q :: more, length_le_cons⟩
        | [] => some ⟨String.ofList text.reverse, [], Nat.zero_le _⟩
      else (readFrom double (p.char :: text) .none rest).map (·.after length_le_cons)
termination_by source.length
decreasing_by all_goals simp; try omega

/-- The scalar behind its opening quote. -/
def read? (double : Bool) (quote : Placed) (rest : Source) : Option (Read String (quote :: rest)) :=
  (readFrom double [] .none rest).map (·.toRead length_lt_cons)

end Casework.Yaml.Quoted
