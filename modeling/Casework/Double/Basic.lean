import Casework.Power

/-!
# Binary floating-point numbers

A double is not a number, an infinity, or `± mantissa * 2 ^ exponent` with a mantissa below 2^53.
All rounding goes through `ofRatio`: the double nearest to a quotient of whole numbers, a half going
to the even mantissa.
-/

namespace Casework

inductive Double where
  | nan
  | infinite (negative : Bool)
  | finite (negative : Bool) (mantissa : Nat) (exponent : Int)
deriving DecidableEq, Repr

namespace Double

/-- The exponent of the doubles nearest to zero. -/
def minExponent : Int := -1074

/-- The exponent of the doubles farthest from zero. -/
def maxExponent : Int := 971

/-- `n / d * 2 ^ (-e)` as a quotient. -/
def shifted (n d : Nat) (e : Int) : Nat × Nat := (n * twoTo (-e).toNat, d * twoTo e.toNat)

/-- The exponent at which the quotient `n / d` has a mantissa of 53 bits, or the least one. -/
def exponentFor (n d : Nat) : Int :=
  let e : Int := (n.log2 : Int) - d.log2 - 52
  let (a, b) := shifted n d e
  max minExponent (if a < b * twoTo 52 then e - 1 else e)

def nearest (n d : Nat) : Nat :=
  let twice := 2 * (n % d)
  if d < twice ∨ (twice = d ∧ n / d % 2 = 1) then n / d + 1 else n / d

/-- The double nearest to `± n / d`. A quotient too large for any is infinite. -/
def ofRatio (negative : Bool) (n d : Nat) : Double :=
  if n = 0 then .finite negative 0 minExponent
  else
    let e := exponentFor n d
    let (a, b) := shifted n d e
    let m := nearest a b
    let (m, e) := if m = twoTo 53 then (twoTo 52, e + 1) else (m, e)
    if maxExponent < e then .infinite negative else .finite negative m e

/-- The double nearest to `± n * 10 ^ power`. -/
def ofScientific (negative : Bool) (n : Nat) (power : Int) : Double :=
  ofRatio negative (n * tenTo power.toNat) (tenTo (-power).toNat)

/-- The size of the number as a quotient; zero if it is not finite. -/
def ratio : Double → Nat × Nat
  | .finite _ m e => (m * twoTo e.toNat, twoTo (-e).toNat)
  | _ => (0, 1)

/-- The rounded product of the sizes of two finite doubles. -/
def mulSize (a b : Double) : Double :=
  ofRatio false (a.ratio.1 * b.ratio.1) (a.ratio.2 * b.ratio.2)

/-- The rounded quotient of the sizes of two finite doubles. -/
def divSize (a b : Double) : Double :=
  ofRatio false (a.ratio.1 * b.ratio.2) (a.ratio.2 * b.ratio.1)

def isZero : Double → Bool
  | .finite _ m _ => m == 0
  | _ => false

def isInfinite : Double → Bool
  | .infinite _ => true
  | _ => false

def isFinite : Double → Bool
  | .finite .. => true
  | _ => false

def withSign (negative : Bool) : Double → Double
  | .nan => .nan
  | .infinite _ => .infinite negative
  | .finite _ m e => .finite negative m e

end Double

end Casework
