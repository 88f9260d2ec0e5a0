import Casework.Decimal.Arithmetic

/-!
# Decimals as text

`render` writes every fraction digit of the form at hand. `ofChars?` reads a sign, digits, one point
and underscores between digits, `ofScientific?` a power of ten behind such a number, and `ofText?`
whichever of the two it finds.
-/

namespace Casework.Decimal

def digitValue? (c : Char) : Option Nat := if c.isDigit then some (c.toNat - 48) else none

/-- The digits of the mantissa, filled up with zeros so that one stands before the point. -/
def digits (d : Decimal) : List Char :=
  let ds := Nat.toDigits 10 d.mantissa
  List.replicate (d.scale + 1 - ds.length) '0' ++ ds

def renderChars (d : Decimal) : List Char :=
  let ds := d.digits
  let whole := ds.take (ds.length - d.scale)
  let sign := if d.negative then ['-'] else []
  if d.scale = 0 then sign ++ whole else sign ++ whole ++ '.' :: ds.drop (ds.length - d.scale)

def render (d : Decimal) : String := String.ofList d.renderChars

/-- What has been read of a number: its digits so far, how many of them are behind the point, and
whether there is a point and a digit at all. -/
structure Reading where
  mantissa : Nat
  scale : Nat
  point : Bool
  digit : Bool

namespace Reading

def start : Reading := ⟨0, 0, false, false⟩

def finish? (r : Reading) (negative : Bool) : Option Decimal :=
  if r.digit then ofParts? negative r.mantissa r.scale else none

/-- The number when `next` is its first digit without room. A carry that fills the mantissa takes
the last fraction digit along. -/
def rounded? (r : Reading) (negative : Bool) (next : Nat) : Option Decimal :=
  if next < 5 then ofParts? negative r.mantissa r.scale
  else if r.mantissa + 1 < twoTo 96 then ofParts? negative (r.mantissa + 1) r.scale
  else if r.scale = 0 then none
  else ofParts? negative ((r.mantissa + 5) / 10) (r.scale - 1)

/-- The end of a number that has no room for more fraction digits. The first one that follows rounds
it, and nothing but digits and underscores may follow that one. -/
def finishRounded? (r : Reading) (negative : Bool) (cs : List Char) : Option Decimal :=
  if cs.all fun c => c.isDigit || c = '_' then
    r.rounded? negative (((cs.find? Char.isDigit).bind digitValue?).getD 0)
  else none

def read? (negative : Bool) : Reading → List Char → Option Decimal
  | r, [] => r.finish? negative
  | r, c :: cs =>
    if r.point && 28 ≤ r.scale then r.finishRounded? negative (c :: cs)
    else match digitValue? c with
      | some d =>
        if r.mantissa * 10 + d < twoTo 96 then
          read? negative ⟨r.mantissa * 10 + d, if r.point then r.scale + 1 else 0, r.point, true⟩ cs
        else if r.point then r.finishRounded? negative (c :: cs)
        else none
      | none =>
        if c = '.' && !r.point then read? negative { r with point := true } cs
        else if c = '_' && r.digit then read? negative r cs
        else none

end Reading

/-- Fraction digits that have no room are rounded off; a whole part that has none is refused. -/
def ofChars? : List Char → Option Decimal
  | '-' :: cs => Reading.start.read? true cs
  | '+' :: cs => Reading.start.read? false cs
  | cs => Reading.start.read? false cs

/-- Digits, perhaps behind a plus sign, of a number below 2^32. -/
def exponent? (cs : List Char) : Option Nat :=
  let ds := if cs.head? = some '+' then cs.tail else cs
  if ds.isEmpty || !ds.all Char.isDigit then none
  else
    let n := ds.foldl (fun n c => n * 10 + (c.toNat - 48)) 0
    if n < twoTo 32 then some n else none

def withScale? (d : Decimal) (scale : Nat) : Option Decimal :=
  if h : scale ≤ 28 then some { d with scale, scale_le := h } else none

/-- The number times ten to the power `n`. Without enough fraction digits to move the point over,
zeros are put behind the mantissa. -/
def scaleUp? (d : Decimal) (n : Nat) : Option Decimal :=
  if n ≤ d.scale then d.withScale? (d.scale - n)
  else if 28 < n then none
  else (fit (d.mantissa * tenTo n) d.scale).map fun p => (p.withSign d.negative).normalize

/-- The number divided by ten to the power `n`. Digits without room are rounded off, a half away
from zero. -/
def scaleDown? (d : Decimal) (n : Nat) : Option Decimal :=
  if d.scale + n ≤ 28 then d.withScale? (d.scale + n)
  else if 28 < n then none
  else
    let m := divHalfUp d.mantissa (tenTo (d.scale + n - 28))
    (ofParts? false m 28).map (·.withSign d.negative)

def ofScientific? (cs : List Char) : Option Decimal :=
  let (base, mark) := cs.span fun c => c ≠ 'e' && c ≠ 'E'
  match mark with
  | [] => none
  | _ :: '-' :: power => do (← ofChars? base).scaleDown? (← exponent? power)
  | _ :: power => do (← ofChars? base).scaleUp? (← exponent? power)

def ofText? (s : String) : Option Decimal := (ofChars? s.toList).or (ofScientific? s.toList)

end Casework.Decimal
