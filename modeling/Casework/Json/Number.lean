import Casework.Document.Basic

/-!
# Numbers in JSON text

A number without point and exponent that 64 bits can hold is whole; minus zero and all other numbers
are doubles. A double is made of the leading digits that fit into 64 bits and a power of ten: the
digits are rounded to a double, and so is their product or quotient with the power. That is not
always the double nearest to what is written.
-/

namespace Casework.Json

/-- A number as it is written, cut at its point and its exponent. -/
structure Literal where
  negative : Bool
  whole : List Char
  /-- The digits behind a point, if there is one. -/
  fraction : Option (List Char)
  /-- The sign and the digits of the exponent, if there is one. -/
  exponent : Option (Bool × List Char)

namespace Literal

def digit (c : Char) : Nat := c.toNat - 48

def natural (ds : List Char) : Nat := ds.foldl (fun n c => n * 10 + digit c) 0

/-- The digits taken up so far, and the power of ten that belongs to them. Once a digit has had no
room, `full` says so. -/
structure Significand where
  value : Nat
  power : Int
  full : Bool

/-- A digit before the point counts for the power when it has no room. -/
def Significand.addWhole (s : Significand) (c : Char) : Significand :=
  if s.full || twoTo 64 ≤ s.value * 10 + digit c then ⟨s.value, s.power + 1, true⟩
  else ⟨s.value * 10 + digit c, s.power, false⟩

def Significand.addFraction (s : Significand) (c : Char) : Significand :=
  if s.full || twoTo 64 ≤ s.value * 10 + digit c then { s with full := true }
  else ⟨s.value * 10 + digit c, s.power - 1, false⟩

def significand (l : Literal) : Significand :=
  let s := l.whole.foldl Significand.addWhole ⟨0, 0, false⟩
  (l.fraction.getD []).foldl Significand.addFraction { s with full := false }

def powerOfTen (n : Nat) : Double := Double.ofScientific false 1 n

/-- The size divided by `10 ^ n`, in steps of at most `10 ^ 308`. What three steps leave is zero. -/
def divided : Nat → Double → Nat → Double
  | 0, x, _ => x
  | steps + 1, x, n =>
    if n ≤ 308 then x.divSize (powerOfTen n)
    else if x.isZero then x
    else divided steps (x.divSize (powerOfTen 308)) (n - 308)

/-- `value * 10 ^ power`, unless that is too large. -/
def scaled? (value : Nat) (power : Int) : Option Double :=
  let x := Double.ofRatio false value 1
  if power < 0 then some (divided 4 x power.natAbs)
  else if power ≤ 308 then
    let y := x.mulSize (powerOfTen power.natAbs)
    if y.isInfinite then none else some y
  else if x.isZero then some x
  else none

/-- An exponent of more than 31 bits makes any number but zero too large, or else zero. -/
def double? (l : Literal) : Option Double :=
  let s := l.significand
  match l.exponent with
  | none => (scaled? s.value s.power).map (·.withSign l.negative)
  | some (negativeExponent, ds) =>
    if twoTo 31 ≤ natural ds then
      if s.value ≠ 0 ∧ !negativeExponent then none
      else some (.finite l.negative 0 Double.minExponent)
    else
      let e : Int := natural ds
      (scaled? s.value (s.power + if negativeExponent then -e else e)).map (·.withSign l.negative)

def value (l : Literal) : Document :=
  let n := natural l.whole
  if l.fraction.isNone && l.exponent.isNone && n < twoTo 64 then
    if !l.negative then .natural n
    else if 0 < n ∧ n ≤ twoTo 63 then .negated n
    else .real (Double.ofRatio true n 1)
  else (l.double?).elim .invalid .real

end Literal

end Casework.Json
