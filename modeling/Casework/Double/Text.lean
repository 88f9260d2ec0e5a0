import Casework.Double.Basic

/-!
# The shortest decimal of a double

A finite double stands for an interval of real numbers: those that round to it. `shortest` finds the
decimal with the fewest digits in that interval, and of these the one nearest to the double. The two
layouts differ in where the point may stand: `positional` never uses a power of ten,
`scientific` does outside a range of sizes and marks every number as a fraction. They also differ in
what becomes of a double half-way between two decimals.
-/

namespace Casework.Double

/-- `a * 10 ^ i` against `n * 2 ^ j`. -/
def compareScaled (a : Nat) (i : Int) (n : Nat) (j : Int) : Ordering :=
  compare (a * tenTo i.toNat * twoTo (-j).toNat) (n * twoTo j.toNat * tenTo (-i).toNat)

/-- Whether `digits * 10 ^ power` rounds to `m * 2 ^ e`. The numbers at equal distance from two
doubles round to the one with an even mantissa. -/
def readsBack (m : Nat) (e : Int) (digits : Nat) (power : Int) : Bool :=
  let below := if m = twoTo 52 ∧ minExponent < e then 4 * m - 1 else 4 * m - 2
  let low := compareScaled digits power below (e - 2)
  let high := compareScaled digits power (4 * m + 2) (e - 2)
  (low == .gt || (low == .eq && m % 2 == 0)) && (high == .lt || (high == .eq && m % 2 == 0))

/-- The multiple of `10 ^ power` that lies below the number or is equal to it. -/
def floorAt (m : Nat) (e power : Int) : Nat :=
  (m * twoTo e.toNat * tenTo (-power).toNat) / (twoTo (-e).toNat * tenTo power.toNat)

/-- Which of two decimals at equal distance is taken. -/
inductive Tie where
  | upward
  | toEven

def Tie.choose (floor : Nat) : Tie → Nat
  | .upward => floor + 1
  | .toEven => if floor % 2 = 0 then floor else floor + 1

/-- Of the two neighbours of the number on the grid of `10 ^ power`, the nearest that reads back. -/
def candidate? (tie : Tie) (m : Nat) (e power : Int) : Option Nat :=
  let floor := floorAt m e power
  let low := readsBack m e floor power
  let high := readsBack m e (floor + 1) power
  match low, high with
  | true, true =>
    match compareScaled (2 * floor + 1) power (2 * m) e with
    | .gt => some floor
    | .lt => some (floor + 1)
    | .eq => some (tie.choose floor)
  | true, false => some floor
  | false, true => some (floor + 1)
  | false, false => none

def dropTrailingZeros : Nat → Nat → Int → Nat × Int
  | 0, digits, power => (digits, power)
  | fuel + 1, digits, power =>
    if digits ≠ 0 ∧ digits % 10 = 0 then dropTrailingZeros fuel (digits / 10) (power + 1)
    else (digits, power)

/-- The least power of ten above the number. -/
def magnitude (m : Nat) (e : Int) : Int :=
  let guess : Int := ((m.log2 : Int) + e) * 30103 / 100000 - 1
  let steps := (List.range 4).find? fun (i : Nat) => compareScaled 1 (guess + i) m e == .gt
  guess + steps.getD 3

/-- Digits without a zero at the end, and the power of ten of the last one. -/
def shortest (tie : Tie) (m : Nat) (e : Int) : Nat × Int :=
  if m = 0 then (0, 0)
  else
    let top := magnitude m e
    match (List.range 18).findSome? fun n =>
        (candidate? tie m e (top - (n + 1 : Nat))).map (·, top - ((n + 1 : Nat) : Int)) with
    | some (digits, power) => dropTrailingZeros 20 digits power
    | none => (m * twoTo e.toNat * Nat.pow 5 (-e).toNat, min e 0)

def zeros (n : Nat) : List Char := List.replicate n '0'

/-- `digits * 10 ^ power` without a power of ten. -/
def placed (digits : Nat) (power : Int) : List Char :=
  let ds := Nat.toDigits 10 digits
  let whole : Int := (ds.length : Int) + power
  if 0 ≤ power then ds ++ zeros power.toNat
  else if 0 < whole then ds.take whole.toNat ++ '.' :: ds.drop whole.toNat
  else '0' :: '.' :: zeros (-whole).toNat ++ ds

def signText (negative : Bool) : List Char := if negative then ['-'] else []

/-- Whole numbers have no point. -/
def positional : Double → String
  | .nan => "NaN"
  | .infinite negative => String.ofList (signText negative ++ ['i', 'n', 'f'])
  | .finite negative m e =>
    let (digits, power) := shortest .upward m e
    String.ofList (signText negative ++ placed digits power)

/-- A power of ten with its sign stands behind numbers from 10^16 on and below 10^-5; between these
bounds a point is always written. -/
def scientificChars (digits : Nat) (power : Int) : List Char :=
  let ds := Nat.toDigits 10 digits
  let whole : Int := (ds.length : Int) + power
  if 0 ≤ power ∧ whole ≤ 16 then placed digits power ++ ['.', '0']
  else if -5 < whole ∧ whole ≤ 16 then placed digits power
  else
    let point := if ds.length = 1 then ds else ds.take 1 ++ '.' :: ds.drop 1
    let exponent := whole - 1
    point ++ 'e' :: (if exponent < 0 then '-' else '+') :: Nat.toDigits 10 exponent.natAbs

def scientific : Double → String
  | .finite negative m e =>
    let (digits, power) := shortest .toEven m e
    String.ofList (signText negative ++ scientificChars digits power)
  | other => other.positional

end Casework.Double
