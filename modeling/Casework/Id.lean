/-!
# Identifiers

Case records, executions and tasks are known by numbers of 128 bits, written as 32 hexadecimal
digits in five groups. Without the hyphens, in braces or behind `urn:uuid:` they are understood too.
-/

namespace Casework

structure Id where
  value : Nat
deriving DecidableEq, Repr

namespace Id

def digitsOf : Nat → Nat → List Char
  | 0, _ => []
  | n + 1, value => digitsOf n (value / 16) ++ [Nat.digitChar (value % 16)]

def render (id : Id) : String :=
  let ds := digitsOf 32 id.value
  String.ofList (ds.take 8 ++ '-' :: (ds.drop 8).take 4 ++ '-' :: (ds.drop 12).take 4 ++
    '-' :: (ds.drop 16).take 4 ++ '-' :: ds.drop 20)

def hexValue? (c : Char) : Option Nat :=
  if c.isDigit then some (c.toNat - 48)
  else if 'a' ≤ c ∧ c ≤ 'f' then some (c.toNat - 87)
  else if 'A' ≤ c ∧ c ≤ 'F' then some (c.toNat - 55)
  else none

def ofDigits? (cs : List Char) : Option Id := do
  if cs.length ≠ 32 then none
  else return ⟨(← cs.mapM hexValue?).foldl (fun n d => n * 16 + d) 0⟩

/-- The digits of the five groups. -/
def ungrouped? (cs : List Char) : Option (List Char) :=
  if cs.length = 36 ∧ cs[8]? = some '-' ∧ cs[13]? = some '-' ∧ cs[18]? = some '-' ∧
      cs[23]? = some '-' then
    some (cs.take 8 ++ (cs.drop 9).take 4 ++ (cs.drop 14).take 4 ++ (cs.drop 19).take 4 ++
      cs.drop 24)
  else none

def unwrapped (cs : List Char) : List Char :=
  if cs.head? = some '\x7b' ∧ cs.getLast? = some '\x7d' ∧ cs.length = 38 then cs.tail.dropLast
  else if cs.take 9 = "urn:uuid:".toList then cs.drop 9
  else cs

def ofText? (s : String) : Option Id :=
  let cs := s.toList
  (ofDigits? cs).or ((ungrouped? (unwrapped cs)).bind ofDigits?)

end Id

end Casework
