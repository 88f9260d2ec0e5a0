import Casework.Power

/-!
# Decimals

A decimal is a sign, a whole number below 2^96 and the number of its fraction digits, at most 28.
One value has several forms: `1.5` and `1.50` differ in scale, and zero has two signs. Comparison
looks at the value only, printing and equality of forms at all three parts.
-/

namespace Casework

/-- The value is `± mantissa / 10 ^ scale`. -/
structure Decimal where
  negative : Bool
  mantissa : Nat
  scale : Nat
  mantissa_lt : mantissa < twoTo 96
  scale_le : scale ≤ 28
deriving DecidableEq, Repr

namespace Decimal

def maxScale : Nat := 28

theorem zero_lt : 0 < twoTo 96 := by decide

def zero : Decimal := ⟨false, 0, 0, zero_lt, Nat.zero_le _⟩

instance : Inhabited Decimal := ⟨zero⟩

def isZero (d : Decimal) : Bool := d.mantissa == 0

/-- The mantissa with its sign. -/
def signed (d : Decimal) : Int := if d.negative then -(d.mantissa : Int) else d.mantissa

/-- The sign turned round, that of zero too. -/
def neg (d : Decimal) : Decimal := { d with negative := !d.negative }

def abs (d : Decimal) : Decimal := { d with negative := false }

/-- The order of the values: both are brought to one scale. -/
def compareValue (a b : Decimal) : Ordering :=
  compare (a.signed * tenTo b.scale) (b.signed * tenTo a.scale)

/-- The smaller one; of two forms of one value, the first. -/
def min (a b : Decimal) : Decimal := if compareValue a b = .gt then b else a

/-- The larger one; of two forms of one value, the first. -/
def max (a b : Decimal) : Decimal := if compareValue a b = .lt then b else a

end Decimal

end Casework
