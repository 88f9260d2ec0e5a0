import Casework.Catalog.Basic
import Casework.Decision.Document
import Casework.Json.Printer
import Casework.Template.Document
import Casework.Yaml.Document

/-!
# Catalog files

A template stands in a file of its own, in which little more than the ids and the types of its steps
has to be told; the configuration of a step is written out and kept as JSON text. A file of rule
sets or formulas holds one of them, or a list of several.
-/

namespace Casework

def Step.yamlFields : List String :=
  ["id", "name", "type", "sort_order", "required", "next_step_on_success", "next_step_on_failure",
    "config"]

/-- The place of a step is its sort order where none is told. -/
def Step.ofYaml? (index : Nat) (d : Document) : Option Step := do
  let fields ← d.fields? yamlFields
  let id ← Document.required? Document.text? "id" fields
  let name ← Document.optionalField? Document.text? "name" fields
  let sortOrder ← Document.optionalField? Document.int32? "sort_order" fields
  let config ← Document.optionalField? (Json.ofDocument? Json.maxDepth) "config" fields
  return {
    id
    name := name.getD id
    type := ← Document.required? StepType.ofDocument? "type" fields
    sortOrder := sortOrder.getD index
    configuration := config.map Json.compact
    required := ← Document.defaulted? true Document.bool? "required" fields
    onSuccess := ← Document.optionalField? Document.text? "next_step_on_success" fields
    onFailure := ← Document.optionalField? Document.text? "next_step_on_failure" fields }

def Step.listOfYaml? (index : Nat) : List Document → Option (List Step)
  | [] => some []
  | d :: ds => return (← Step.ofYaml? index d) :: (← Step.listOfYaml? (index + 1) ds)

namespace Template

/-- What is looked at in the file of a template. -/
def yamlShape : Shape :=
  .record (("steps", .list (.record (Shape.wholeFields Step.yamlFields))) ::
    Shape.wholeFields ["id", "version", "name", "description"])

def ofYamlDocument? (d : Document) : Option Template := do
  let fields ← d.fields? ["id", "version", "name", "description", "steps"]
  let id ← Document.required? Document.text? "id" fields
  let name ← Document.optionalField? Document.text? "name" fields
  let steps ← Document.defaulted? [] (Document.list? some) "steps" fields
  return {
    id
    version := ← Document.defaulted? 1 Document.nat32? "version" fields
    name := name.getD id
    description := ← Document.optionalField? Document.text? "description" fields
    steps := ← Step.listOfYaml? 0 steps
    publishedAt := none }

/-- A template that is not published. -/
def ofYaml? (text : String) : Option Template :=
  (Yaml.document? yamlShape text).bind ofYamlDocument?

end Template

/-- The values of a table with the list under its name, or the one value that the document is. -/
def Document.oneOrMany? {α : Type} (name : String) (decode : Document → Option α) (d : Document) :
    Option (List α) := do
  let d ← d.resolved?
  match many? d with
  | some values => return values
  | none => return [← decode d]
where
  many? : Document → Option (List α)
    | .table entries => do
      let fields ← (Document.table entries).fields? [name]
      Document.required? (Document.list? decode) name fields
    | _ => none

def RuleSet.listOfYaml? (text : String) : Option (List RuleSet) :=
  (Yaml.document? .whole text).bind (Document.oneOrMany? "rule_sets" RuleSet.ofDocument?)

def Formula.listOfYaml? (text : String) : Option (List Formula) :=
  (Yaml.document? .whole text).bind (Document.oneOrMany? "formulas" Formula.ofDocument?)

end Casework
