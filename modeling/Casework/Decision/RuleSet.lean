import Casework.Dictionary

/-!
# Rule sets

A rule set is a list of rules. A rule has conditions on the columns of a row, all of which must
hold, and the outputs to answer with when it is the one that decides.
-/

namespace Casework

inductive Operator where
  | equals | notEquals | contains | isEmpty | isNotEmpty
  | lessThan | greaterThan | lessThanOrEqual | greaterThanOrEqual | between
deriving DecidableEq, Repr

def Operator.name : Operator → String
  | .equals => "equals"
  | .notEquals => "not_equals"
  | .contains => "contains"
  | .isEmpty => "is_empty"
  | .isNotEmpty => "is_not_empty"
  | .lessThan => "less_than"
  | .greaterThan => "greater_than"
  | .lessThanOrEqual => "less_than_or_equal"
  | .greaterThanOrEqual => "greater_than_or_equal"
  | .between => "between"

structure Condition where
  column : String
  operator : Operator
  value : String
  /-- The upper bound of `between`. -/
  valueTo : Option String
deriving DecidableEq, Repr

structure Rule where
  id : String
  /-- Rules are tried in ascending priority. -/
  priority : Int
  enabled : Bool
  conditions : List Condition
  outputs : Dictionary String
deriving DecidableEq, Repr

structure RuleSet where
  id : String
  name : String
  description : Option String
  rules : List Rule
deriving DecidableEq, Repr

end Casework
