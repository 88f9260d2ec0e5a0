import Casework.Text.Casing.Table

/-!
# Lower case

Text is made small character by character. Two characters need care: capital I with a dot becomes
two characters, and capital sigma has a form of its own at the end of a word. A word ends there if a
cased letter stands before the sigma and none behind it, characters such as points and apostrophes
not counted.
-/

namespace Casework.Text

namespace Casing

def inRanges (ranges : List (Nat × Nat)) (n : Nat) : Bool :=
  ranges.any fun r => r.1 ≤ n && n ≤ r.2

def isCased (c : Char) : Bool := inRanges casedRanges c.toNat

def isIgnorable (c : Char) : Bool := inRanges ignorableRanges c.toNat

def Shift.covers (s : Shift) (n : Nat) : Bool :=
  s.first ≤ n && n ≤ s.last && (n - s.first) % s.stride == 0

/-- The small form of a character that has one of its own. -/
def lowerChar (c : Char) : Char :=
  if c.toNat < 128 then c.toLower
  else match lowerShifts.find? (·.covers c.toNat) with
    | some s => Char.ofNat ((c.toNat : Int) + s.offset).toNat
    | none => c

/-- The first character that is not ignorable is cased. -/
def startsCased (cs : List Char) : Bool := ((cs.dropWhile isIgnorable).head?).any isCased

/-- The lower case of the characters `cs`, before which those of `before` stand, last one first. -/
def lowerBehind (before : List Char) : List Char → List Char
  | [] => []
  | c :: cs =>
    (if c = 'Σ' then [if startsCased before && !startsCased cs then 'ς' else 'σ']
      else if c = 'İ' then ['i', '\u0307']
      else [lowerChar c]) ++ lowerBehind (c :: before) cs

end Casing

def lower (s : String) : List Char := Casing.lowerBehind [] s.toList

/-- Equality when letter case does not count. -/
def sameIgnoringCase (a b : String) : Bool := lower a == lower b

/-- Whether `part` stands anywhere in the list. -/
def occursIn (part : List Char) : List Char → Bool
  | [] => part.isEmpty
  | c :: cs => part.isPrefixOf (c :: cs) || occursIn part cs

/-- Whether `part` occurs in `whole` when letter case does not count. -/
def containsIgnoringCase (whole part : String) : Bool := occursIn (lower part) (lower whole)

end Casework.Text
