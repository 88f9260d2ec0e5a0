import Casework.Template.Basic
import Casework.Document.Decode
import Casework.Json.Basic

/-!
# Templates as documents
-/

namespace Casework

def StepType.ofDocument? (d : Document) : Option StepType :=
  (d.alternative? (Named.names StepType)).bind Named.ofName?

def Time.ofDocument? (d : Document) : Option Time := d.text?.bind Time.ofText?

namespace Step

def ofDocument? (d : Document) : Option Step := do
  let fields ← d.fields? ["id", "name", "type", "sort_order", "configuration", "required",
    "next_step_on_success", "next_step_on_failure"]
  return {
    id := ← Document.required? Document.text? "id" fields
    name := ← Document.required? Document.text? "name" fields
    type := ← Document.required? StepType.ofDocument? "type" fields
    sortOrder := ← Document.required? Document.int32? "sort_order" fields
    configuration := ← Document.optionalField? Document.text? "configuration" fields
    required := ← Document.defaulted? true Document.bool? "required" fields
    onSuccess := ← Document.optionalField? Document.text? "next_step_on_success" fields
    onFailure := ← Document.optionalField? Document.text? "next_step_on_failure" fields }

def toJson (s : Step) : Json :=
  Json.ofTable [("id", .text s.id), ("name", .text s.name), ("type", .text s.type.name),
    ("sort_order", .int s.sortOrder), ("configuration", s.configuration.elim .null .text),
    ("required", .bool s.required), ("next_step_on_success", s.onSuccess.elim .null .text),
    ("next_step_on_failure", s.onFailure.elim .null .text)]

end Step

namespace Template

def ofDocument? (d : Document) : Option Template := do
  let fields ← d.fields? ["id", "version", "name", "description", "steps", "published_at"]
  return {
    id := ← Document.required? Document.text? "id" fields
    version := ← Document.required? Document.nat32? "version" fields
    name := ← Document.required? Document.text? "name" fields
    description := ← Document.optionalField? Document.text? "description" fields
    steps := ← Document.required? (Document.list? Step.ofDocument?) "steps" fields
    publishedAt := ← Document.optionalField? Time.ofDocument? "published_at" fields }

def toJson (t : Template) : Json :=
  Json.ofTable [("id", .text t.id), ("version", .int t.version), ("name", .text t.name),
    ("description", t.description.elim .null .text), ("steps", .array (t.steps.map Step.toJson)),
    ("published_at", t.publishedAt.elim .null fun stamp => .text stamp.render)]

end Template

end Casework
