import Casework.Decision.RuleSet
import Casework.Decimal.Text
import Casework.Text.Blank
import Casework.Text.Casing

/-!
# Decisions

A row gives texts to columns. The first enabled rule whose conditions all hold decides, in ascending
priority and, among rules of one priority, in their order in the rule set.
-/

namespace Casework

abbrev Row := String → Option String

/-- The number that a text stands for, blanks around it not counted. -/
def number? (s : String) : Option Decimal := Decimal.ofText? (Text.trimmed s)

/-- By value if both texts are numbers, otherwise by their characters. -/
def compareCells (a b : String) : Ordering :=
  match number? a, number? b with
  | some x, some y => Decimal.compareValue x y
  | _, _ => compare a b

/-- Whether the condition holds of a cell. -/
def Condition.holdsOf (c : Condition) (cell : String) : Bool :=
  match c.operator with
  | .equals => Text.sameIgnoringCase cell c.value
  | .notEquals => !Text.sameIgnoringCase cell c.value
  | .contains => Text.containsIgnoringCase cell c.value
  | .isEmpty => Text.allBlank cell
  | .isNotEmpty => !Text.allBlank cell
  | .lessThan => compareCells cell c.value == .lt
  | .greaterThan => compareCells cell c.value == .gt
  | .lessThanOrEqual => compareCells cell c.value != .gt
  | .greaterThanOrEqual => compareCells cell c.value != .lt
  | .between =>
    match c.valueTo with
    | some high => compareCells cell c.value != .lt && compareCells cell high != .gt
    | none => false

/-- Of a column that the row lacks, only `isEmpty` holds. -/
def Condition.holds (c : Condition) (row : Row) : Bool :=
  match row c.column with
  | some cell => c.holdsOf cell
  | none => c.operator == .isEmpty

def Rule.matches (r : Rule) (row : Row) : Bool := r.conditions.all (·.holds row)

namespace RuleSet

/-- The enabled rules, in the order in which they are tried. -/
def tried (rs : List Rule) : List Rule :=
  (rs.filter (·.enabled)).mergeSort fun a b => a.priority ≤ b.priority

/-- The rule that decides on the row. -/
def decide? (s : RuleSet) (row : Row) : Option Rule := (tried s.rules).find? (·.matches row)

end RuleSet

end Casework
