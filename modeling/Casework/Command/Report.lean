import Casework.Store.Basic

/-!
# Reports on cases

A report shows a case record and its tasks as a JSON object, with the members of each object in the
order of their names.
-/

namespace Casework

def optionalText (s : Option String) : Json := s.elim .null .text

def optionalTime (t : Option Time) : Json := optionalText (t.map Time.render)

def Execution.toJson (e : Execution) : Json :=
  .ofTable [("id", .text e.id.render), ("step_id", .text e.stepId),
    ("step_name", .text e.stepName), ("status", .text e.status.name),
    ("input_data", optionalText e.input), ("output_data", optionalText e.output),
    ("error_message", optionalText e.error), ("started_at", optionalTime e.startedAt),
    ("completed_at", optionalTime e.completedAt)]

def CaseRecord.toJson (r : CaseRecord) : Json :=
  .ofTable [("id", .text r.id.render), ("case_id", .text r.caseId),
    ("template_id", .text r.templateId), ("template_version", .int r.templateVersion),
    ("status", .text r.status.name), ("current_step_id", optionalText r.currentStep),
    ("case_data", .object (r.data.map Json.text).entries),
    ("started_at", optionalTime r.startedAt), ("completed_at", optionalTime r.completedAt),
    ("error_message", optionalText r.error),
    ("executions", .array (r.executions.map Execution.toJson)),
    ("created_at", .text r.createdAt.render), ("updated_at", .text r.updatedAt.render)]

def CaseTask.toJson (t : CaseTask) : Json :=
  .ofTable [("id", .text t.id.render), ("case_workflow_id", .text t.recordId.render),
    ("step_id", .text t.stepId), ("execution_id", .text t.executionId.render),
    ("kind", .text t.kind.name), ("title", .text t.title), ("assignee", optionalText t.assignee),
    ("instructions", optionalText t.instructions), ("status", .text t.status.name),
    ("created_at", .text t.createdAt.render), ("resolved_at", optionalTime t.resolvedAt),
    ("resolved_by", optionalText t.resolvedBy), ("resolution_output", t.output.getD .null)]

structure CaseReport where
  record : CaseRecord
  tasks : List CaseTask

namespace CaseReport

/-- The record as the caller has it, with the tasks that the store has for it. -/
def ofStore (s : Store) (r : CaseRecord) : CaseReport := ⟨r, s.tasksOf r.id⟩

def toJson (c : CaseReport) : Json :=
  .ofTable [("case_workflow", c.record.toJson), ("tasks", .array (c.tasks.map CaseTask.toJson))]

end CaseReport

end Casework
