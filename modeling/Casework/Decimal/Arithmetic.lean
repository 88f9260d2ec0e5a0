import Casework.Decimal.Basic

/-!
# Decimal arithmetic

Each operation works out its result exactly and then keeps as many fraction digits as the mantissa
and the scale have room for. The last digit kept is the nearest, a half going to the even digit;
only `round` sends a half away from zero. A result whose whole part has no room is refused.
-/

namespace Casework.Decimal

/-- `n / d` to the nearest whole number, a half to the even one. -/
def divHalfEven (n d : Nat) : Nat :=
  let q := n / d
  let twice := 2 * (n % d)
  if d < twice ∨ (twice = d ∧ q % 2 = 1) then q + 1 else q

/-- `n / d` to the nearest whole number, a half upwards. -/
def divHalfUp (n d : Nat) : Nat := (2 * n + d) / (2 * d)

theorem divHalfUp_le (n : Nat) {d : Nat} (hd : 0 < d) : divHalfUp n d ≤ n := by
  have hprod : n ≤ n * d := Nat.le_mul_of_pos_right n hd
  have hlt : 2 * n + d < (n + 1) * (2 * d) := by
    have : (n + 1) * (2 * d) = 2 * (n * d) + 2 * d := by
      rw [Nat.add_mul, Nat.one_mul, Nat.mul_left_comm]
    omega
  exact Nat.le_of_lt_succ ((Nat.div_lt_iff_lt_mul (by omega)).2 hlt)

/-- The decimal with these parts, if there is room for them; zero has no sign. -/
def ofParts? (negative : Bool) (mantissa scale : Nat) : Option Decimal :=
  if h : mantissa < twoTo 96 ∧ scale ≤ 28 then
    some ⟨negative && mantissa != 0, mantissa, scale, h.1, h.2⟩
  else none

/-- `n / 10 ^ scale` after giving up as few fraction digits as its size makes necessary. -/
def fit (n scale : Nat) : Option Decimal :=
  (List.range (scale + 1)).findSome? fun dropped =>
    ofParts? false (divHalfEven n (tenTo dropped)) (scale - dropped)

def withSign (d : Decimal) (negative : Bool) : Decimal := { d with negative }

/-- The sum of two numbers other than zero. A sum of zero has no sign, and all the fraction digits
of the terms. -/
def addNonzero (a b : Decimal) : Option Decimal :=
  let scale := Nat.max a.scale b.scale
  let sum := a.signed * tenTo (scale - a.scale) + b.signed * tenTo (scale - b.scale)
  (fit sum.natAbs scale).map (·.withSign (sum < 0))

/-- A zero term gives way to the other one, whatever its scale. -/
def add (a b : Decimal) : Option Decimal :=
  if a.isZero then some b else if b.isZero then some a else addNonzero a b

def sub (a b : Decimal) : Option Decimal :=
  if a.isZero then some (if b.isZero then b else b.neg)
  else if b.isZero then some a else addNonzero a b.neg

/-- Whether the mantissa is below 2^32. -/
def isSmall (d : Decimal) : Bool := d.mantissa < twoTo 32

/-- A product that is rounded to zero keeps its sign, unless both factors are small. Nothing is left
of a product of small factors with more than 47 fraction digits in all, nor of its scale. -/
def mul (a b : Decimal) : Option Decimal :=
  if a.isZero || b.isZero then some zero
  else
    let small := a.isSmall && b.isSmall
    let negative := a.negative != b.negative
    if small && 47 < a.scale + b.scale then some zero
    else (fit (a.mantissa * b.mantissa) (a.scale + b.scale)).map fun p =>
      p.withSign (negative && !(small && p.isZero))

/-- The form of the same value without its last `n` zeros after the point, or as many as it has. -/
def dropZeros : Nat → Decimal → Decimal
  | 0, d => d
  | n + 1, d =>
    if 0 < d.scale ∧ d.mantissa % 10 = 0 then
      dropZeros n ⟨d.negative, d.mantissa / 10, d.scale - 1,
        Nat.lt_of_le_of_lt (Nat.div_le_self ..) d.mantissa_lt,
        Nat.le_trans (Nat.sub_le ..) d.scale_le⟩
    else d

/-- No zeros after the point, and zero without a sign. -/
def normalize (d : Decimal) : Decimal := if d.isZero then zero else dropZeros d.scale d

/-- How many more digits, up to nine, a number at this scale has room for. -/
def room (n : Nat) (scale : Int) : Nat :=
  ((List.range 10).reverse.find? fun (p : Nat) =>
    scale + p ≤ maxScale ∧ n * tenTo p < twoTo 96).getD 0

/-- A quotient `n + r / d`, `scale` places to the right of the point, rounded to its last digit, or
to the one before if it has grown out of its room. -/
def rounded (n r d : Nat) (scale : Int) : Option (Nat × Int) :=
  let q := divHalfEven (n * d + r) d
  if q < twoTo 96 then some (q, scale)
  else if 0 < scale then some (divHalfEven (n * d + r) (d * 10), scale - 1)
  else none

/-- Long division, up to nine digits at a step: `n` is what has been found of the quotient, `r` the
remainder. It ends when nothing remains and no zeros are owed before the point, or when there is no
room. -/
def longDivision (d : Nat) : Nat → Nat → Nat → Int → Option (Nat × Int)
  | 0, n, r, scale => rounded n r d scale
  | steps + 1, n, r, scale =>
    if r = 0 then
      if 0 ≤ scale then some (n, scale)
      else if n * tenTo scale.natAbs < twoTo 96 then some (n * tenTo scale.natAbs, 0)
      else none
    else
      let p := room n scale
      if p = 0 then if 0 ≤ scale then rounded n r d scale else none
      else
        let next := n * tenTo p + r * tenTo p / d
        if next < twoTo 96 then longDivision d steps next (r * tenTo p % d) (scale + p)
        else rounded next (r * tenTo p % d) d (scale + p)

/-- Some zeros at the end of a fraction, if it has that many. -/
def dropGroup (zeros : Nat) (q : Nat × Int) : Nat × Int :=
  if (zeros : Int) ≤ q.2 ∧ q.1 % tenTo zeros = 0 then (q.1 / tenTo zeros, q.2 - zeros) else q

/-- Up to seven zeros are dropped, and eight more at a time from multiples of 2^32. -/
def dropGroups (q : Nat × Int) : Nat × Int :=
  let eight (q : Nat × Int) := if q.1 % twoTo 32 = 0 then dropGroup 8 q else q
  dropGroup 1 (dropGroup 2 (dropGroup 4 (eight (eight (eight q)))))

/-- A quotient of mantissas that comes out even keeps the difference of the scales; any other has
the digits that long division finds, less zeros at its end. The divisor is not zero. -/
def div (a b : Decimal) : Option Decimal := do
  if a.isZero then return zero
  let remainder := a.mantissa % b.mantissa
  let shift : Int := (a.scale : Int) - b.scale
  let (q, scale) ←
    longDivision b.mantissa (maxScale - shift).toNat (a.mantissa / b.mantissa) remainder shift
  let (q, scale) := if remainder = 0 then (q, scale) else dropGroups (q, scale)
  ofParts? (a.negative != b.negative) q scale.toNat

/-- At most `digits` fraction digits, to the nearest, a half away from zero. Only a zero to begin
with keeps its sign. -/
def round (d : Decimal) (digits : Fin 29) : Decimal :=
  if d.scale ≤ digits then d
  else
    let rounded := divHalfUp d.mantissa (tenTo (d.scale - digits))
    ⟨d.negative && (rounded != 0 || d.isZero), rounded, digits.val,
      Nat.lt_of_le_of_lt (divHalfUp_le _ (Nat.pow_pos (by decide))) d.mantissa_lt,
      Nat.le_of_lt_succ digits.isLt⟩

/-- The value, if it is a whole number from 0 to 28 and does not carry a minus sign. -/
def digitCount? (d : Decimal) : Option (Fin 29) :=
  if d.negative || d.mantissa % tenTo d.scale != 0 then none
  else
    let n := d.mantissa / tenTo d.scale
    if h : n < 29 then some ⟨n, h⟩ else none

end Casework.Decimal
