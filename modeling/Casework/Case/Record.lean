import Casework.Case.Execution
import Casework.Case.Status
import Casework.Dictionary

/-!
# Case records

A case record binds a case to one version of a template and tells how far it has come: its status,
the step to run next, and the executions so far.
-/

namespace Casework

structure CaseRecord where
  id : Id
  /-- The name of the case outside. -/
  caseId : String
  templateId : String
  templateVersion : Nat
  status : CaseStatus
  /-- The step to run next, or the one that is running. -/
  currentStep : Option String
  /-- Facts given when the case was opened. -/
  data : Dictionary String
  startedAt : Option Time
  completedAt : Option Time
  error : Option String
  executions : List Execution
  createdAt : Time
  updatedAt : Time
deriving DecidableEq, Repr

namespace CaseRecord

def new (id : Id) (caseId : String) (template : Template) (data : Dictionary String) (now : Time) :
    CaseRecord :=
  { id, caseId, templateId := template.id, templateVersion := template.version
    status := .notStarted, currentStep := none, data, startedAt := none, completedAt := none
    error := none, executions := [], createdAt := now, updatedAt := now }

/-- The record with a new status. The first start and the end are stamped. -/
def become (r : CaseRecord) (next : CaseStatus) (now : Time) : CaseRecord :=
  { r with
    status := next
    startedAt := if next = .running then r.startedAt.or (some now) else r.startedAt
    completedAt := if next.isTerminal then some now else r.completedAt
    updatedAt := now }

def executionsOf (r : CaseRecord) (stepId : String) : List Execution :=
  r.executions.filter (·.stepId == stepId)

end CaseRecord

end Casework
