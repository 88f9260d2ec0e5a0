import Casework.Document.Decode
import Casework.Json.Printer
import Casework.Json.Reader
import Casework.Template.Basic
import Casework.Text.Blank

/-!
# Configurations of steps

A step carries its configuration as JSON text. Decision tables and calculations need one, which
names what they evaluate; a task can do without.
-/

namespace Casework

inductive ConfigError where
  | missing (stepId : String)
  /-- What is wrong with the text, in the words of whoever has read it. -/
  | malformed (stepId reason : String)
deriving DecidableEq, Repr

def ConfigError.message : ConfigError → String
  | .missing stepId => "step " ++ stepId ++ " has no configuration"
  | .malformed stepId reason => "step " ++ stepId ++ " has malformed configuration: " ++ reason

class StepConfig (α : Type) where
  ofDocument? : Document → Option α
  toJson : α → Json

namespace StepConfig

variable {α : Type} [StepConfig α]

/-- Nothing if there is no configuration, or a blank one. -/
def decode? (s : Step) : Except ConfigError (Option α) :=
  match s.configuration with
  | none => .ok none
  | some text =>
    if Text.allBlank text then .ok none
    else match (Json.document? text).bind ofDocument? with
      | some config => .ok (some config)
      | none => .error (.malformed s.id "unexpected content")

def decode (s : Step) : Except ConfigError α := do
  match ← decode? s with
  | some config => return config
  | none => throw (.missing s.id)

def encode (config : α) : String := (toJson config).compact

end StepConfig

structure DecisionConfig where
  ruleSetId : String
deriving DecidableEq, Repr

instance : StepConfig DecisionConfig where
  ofDocument? d := do
    let fields ← d.fields? ["rule_set_id"]
    return ⟨← Document.required? Document.text? "rule_set_id" fields⟩
  toJson c := .object [("rule_set_id", .text c.ruleSetId)]

structure CalculationConfig where
  formulaId : String
deriving DecidableEq, Repr

instance : StepConfig CalculationConfig where
  ofDocument? d := do
    let fields ← d.fields? ["formula_id"]
    return ⟨← Document.required? Document.text? "formula_id" fields⟩
  toJson c := .object [("formula_id", .text c.formulaId)]

structure TaskConfig where
  title : String
  assignee : Option String
  instructions : Option String
deriving DecidableEq, Repr

instance : StepConfig TaskConfig where
  ofDocument? d := do
    let fields ← d.fields? ["title", "assignee", "instructions"]
    return {
      title := ← Document.required? Document.text? "title" fields
      assignee := ← Document.optionalField? Document.text? "assignee" fields
      instructions := ← Document.optionalField? Document.text? "instructions" fields }
  toJson c := .object [("title", .text c.title), ("assignee", c.assignee.elim .null .text),
    ("instructions", c.instructions.elim .null .text)]

end Casework
