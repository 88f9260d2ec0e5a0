import Casework.Decision.RuleSet
import Casework.Document.Decode
import Casework.Double.Text
import Casework.Json.Basic

/-!
# Rule sets as documents

Values may be written as numbers or truth values and are kept as text. Most operators have a short
name that is understood but never written. The encoding writes every field.
-/

namespace Casework

namespace Operator

def all : List Operator :=
  [.equals, .notEquals, .contains, .isEmpty, .isNotEmpty, .lessThan, .greaterThan,
    .lessThanOrEqual, .greaterThanOrEqual, .between]

def shortName? : Operator → Option String
  | .equals => some "eq"
  | .notEquals => some "ne"
  | .lessThan => some "lt"
  | .greaterThan => some "gt"
  | .lessThanOrEqual => some "lte"
  | .greaterThanOrEqual => some "gte"
  | _ => none

def ofName? (s : String) : Option Operator :=
  all.find? fun op => op.name == s || op.shortName? == some s

def ofDocument? (d : Document) : Option Operator :=
  (d.alternative? (all.map Operator.name)).bind ofName?

end Operator

/-- A text, or the text of a number or a truth value. A whole number above 63 bits is a fraction. -/
def Document.cell? : Document → Option String
  | .text s => some s
  | .natural n =>
    some (if n < twoTo 63 then toString n else (Double.ofRatio false n 1).positional)
  | .negated n => some (toString (-n : Int))
  | .real x => some x.positional
  | .bool b => some (if b then "true" else "false")
  | _ => none

namespace Condition

def ofDocument? (d : Document) : Option Condition := do
  let fields ← d.fields? ["column", "operator", "value", "value_to"]
  return {
    column := ← Document.required? Document.text? "column" fields
    operator := ← Document.required? Operator.ofDocument? "operator" fields
    value := ← Document.defaulted? "" Document.cell? "value" fields
    valueTo := ← Document.optionalField? Document.cell? "value_to" fields }

def toJson (c : Condition) : Json :=
  Json.ofTable [("column", .text c.column), ("operator", .text c.operator.name),
    ("value", .text c.value), ("value_to", c.valueTo.elim .null .text)]

end Condition

namespace Rule

def ofDocument? (d : Document) : Option Rule := do
  let fields ← d.fields? ["id", "priority", "enabled", "conditions", "outputs"]
  return {
    id := ← Document.required? Document.text? "id" fields
    priority := ← Document.required? Document.int32? "priority" fields
    enabled := ← Document.defaulted? true Document.bool? "enabled" fields
    conditions :=
      ← Document.defaulted? [] (Document.list? Condition.ofDocument?) "conditions" fields
    outputs :=
      ← Document.defaulted? .empty (Document.dictionary? Document.cell?) "outputs" fields }

def toJson (r : Rule) : Json :=
  Json.ofTable [("id", .text r.id), ("priority", .int r.priority), ("enabled", .bool r.enabled),
    ("conditions", .array (r.conditions.map Condition.toJson)),
    ("outputs", .object (r.outputs.map Json.text).entries)]

end Rule

namespace RuleSet

def ofDocument? (d : Document) : Option RuleSet := do
  let fields ← d.fields? ["id", "name", "description", "rules"]
  return {
    id := ← Document.required? Document.text? "id" fields
    name := ← Document.defaulted? "" Document.text? "name" fields
    description := ← Document.optionalField? Document.text? "description" fields
    rules := ← Document.defaulted? [] (Document.list? Rule.ofDocument?) "rules" fields }

def toJson (s : RuleSet) : Json :=
  Json.ofTable [("id", .text s.id), ("name", .text s.name),
    ("description", s.description.elim .null .text), ("rules", .array (s.rules.map Rule.toJson))]

/-- What is told of a decision: the rule that was found and its outputs. -/
def outcomeJson : Option Rule → Json
  | some r => .object [("outcome", .text "matched"), ("rule_id", .text r.id),
      ("outputs", .object (r.outputs.map Json.text).entries)]
  | none => .object [("outcome", .text "no_match")]

end RuleSet

end Casework
