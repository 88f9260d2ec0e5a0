import Casework.Document.Basic

/-!
# What a scalar stands for

A plain scalar is null, a truth value, a whole number in one of four bases, a fraction, or else
text. Digits behind a leading zero are text. Whole numbers above 64 bits are numbers that no
document can hold; above 128 bits they are read as fractions.
-/

namespace Casework.Scalar

def isNull (s : String) : Bool := s == "null" || s == "Null" || s == "NULL" || s == "~"

def bool? (s : String) : Option Bool :=
  if s == "true" || s == "True" || s == "TRUE" then some true
  else if s == "false" || s == "False" || s == "FALSE" then some false
  else none

def digitIn? (base : Nat) (c : Char) : Option Nat :=
  let n :=
    if c.isDigit then c.toNat - 48
    else if 'a' ≤ c ∧ c ≤ 'z' then c.toNat - 87
    else if 'A' ≤ c ∧ c ≤ 'Z' then c.toNat - 55
    else base
  if n < base then some n else none

/-- One or more digits of the base. -/
def natural? (base : Nat) (cs : List Char) : Option Nat :=
  if cs.isEmpty then none
  else cs.foldl (fun n c => do return (← n) * base + (← digitIn? base c)) (some 0)

/-- A zero with more digits behind it. -/
def zeroPadded (cs : List Char) : Bool :=
  match (match cs with
    | '-' :: r | '+' :: r => r
    | r => r) with
  | '0' :: d :: ds => (d :: ds).all Char.isDigit
  | _ => false

def prefixed? : List Char → Option Nat
  | '0' :: 'x' :: ds => natural? 16 ds
  | '0' :: 'o' :: ds => natural? 8 ds
  | '0' :: 'b' :: ds => natural? 2 ds
  | _ => none

/-- A whole number without a minus sign. -/
def unsigned? (cs : List Char) : Option Nat :=
  let digits := if cs.head? = some '+' then cs.tail else cs
  match prefixed? digits with
  | some n => some n
  | none => if zeroPadded cs then none else natural? 10 digits

/-- A whole number behind a minus sign. -/
def negated? : List Char → Option Nat
  | '-' :: cs =>
    match prefixed? cs with
    | some n => some n
    | none => if zeroPadded ('-' :: cs) then none else natural? 10 cs
  | _ => none

/-- The digits round the point and the power of ten of a number, without its sign. -/
def decimal? (cs : List Char) : Option (Nat × Int) := do
  let whole := cs.takeWhile Char.isDigit
  let behind := cs.dropWhile Char.isDigit
  let (fraction, mark) :=
    match behind with
    | '.' :: r => (r.takeWhile Char.isDigit, r.dropWhile Char.isDigit)
    | r => ([], r)
  let n ← natural? 10 (whole ++ fraction)
  let power : Int ←
    match mark with
    | [] => some 0
    | e :: power =>
      if e = 'e' ∨ e = 'E' then
        match power with
        | '-' :: ds => (natural? 10 ds).map fun n => -(n : Int)
        | '+' :: ds => (natural? 10 ds).map Int.ofNat
        | ds => (natural? 10 ds).map Int.ofNat
      else none
  return (n, power - fraction.length)

/-- The double of a number with so many digits before it becomes zero or infinite. -/
def ofDecimal (negative : Bool) (n : Nat) (power : Int) : Double :=
  if n = 0 then .finite negative 0 Double.minExponent
  else
    let size : Int := ((Nat.toDigits 10 n).length : Int) + power
    if 400 < size then .infinite negative
    else if size < -400 then .finite negative 0 Double.minExponent
    else Double.ofScientific negative n power

def float? (s : String) : Option Double :=
  let cs := s.toList
  let unsigned := if cs.head? = some '+' then cs.tail else cs
  let magnitude := String.ofList unsigned
  if magnitude == ".inf" || magnitude == ".Inf" || magnitude == ".INF" then some (.infinite false)
  else if s == "-.inf" || s == "-.Inf" || s == "-.INF" then some (.infinite true)
  else if s == ".nan" || s == ".NaN" || s == ".NAN" then some .nan
  else
    let (negative, digits) :=
      match cs with
      | '-' :: r => (true, r)
      | _ => (false, unsigned)
    match decimal? digits with
    | some (n, power) =>
      let x := ofDecimal negative n power
      if x.isFinite then some x else none
    | none => none

def int? (s : String) : Option Document :=
  match unsigned? s.toList, negated? s.toList with
  | some n, _ =>
    if n < twoTo 64 then some (.natural n) else if n < twoTo 128 then some .invalid else none
  | none, some n =>
    if n ≤ twoTo 63 then some (.negated n) else if n ≤ twoTo 127 then some .invalid else none
  | none, none => none

/-- The kind of a plain scalar goes by its text. -/
def ofPlain (s : String) : Document :=
  if s.isEmpty || isNull s then .null
  else match bool? s, int? s with
    | some b, _ => .bool b
    | none, some d => d
    | none, none =>
      match if zeroPadded s.toList then none else float? s with
      | some x => .real x
      | none => .text s

/-- A tag overrides the text, and must suit it. -/
def value (s : String) (style : ScalarStyle) : Option ScalarTag → Document
  | some .bool => (bool? s).elim .invalid .bool
  | some .int => (int? s).getD .invalid
  | some .float => (float? s).elim .invalid .real
  | some .null => if isNull s then .null else .invalid
  | some .other => .text s
  | none => if style = .plain then ofPlain s else .text s

end Casework.Scalar
