import Casework.Document.Decode
import Casework.Json.Basic

/-!
# Formulas with a name

A formula as it stands in a catalog: a text in the formula language, known by an id.
-/

namespace Casework

structure Formula where
  id : String
  name : String
  expression : String
  description : Option String
deriving DecidableEq, Repr

namespace Formula

/-- A formula that is named by its id. -/
def ofExpression (id expression : String) : Formula :=
  { id, name := id, expression, description := none }

def ofDocument? (d : Document) : Option Formula := do
  let fields ← d.fields? ["id", "name", "expression", "description"]
  return {
    id := ← Document.required? Document.text? "id" fields
    name := ← Document.defaulted? "" Document.text? "name" fields
    expression := ← Document.required? Document.text? "expression" fields
    description := ← Document.optionalField? Document.text? "description" fields }

def toJson (f : Formula) : Json :=
  Json.ofTable [("id", .text f.id), ("name", .text f.name), ("expression", .text f.expression),
    ("description", f.description.elim .null .text)]

end Formula

end Casework
