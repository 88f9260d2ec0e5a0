import Casework.Id
import Casework.Json.Printer
import Casework.Json.Reader
import Casework.Naming
import Casework.Time

/-!
# Tasks

A task waits for a person, or for the client. It belongs to the execution that made the case pause.
What it is resolved with becomes part of the output of that execution, next to what is there.
-/

namespace Casework

inductive TaskKind where
  | humanTask | clientApproval
deriving DecidableEq, Repr

instance : Named TaskKind where
  noun := "task kind"
  all := [.humanTask, .clientApproval]
  name
    | .humanTask => "human_task"
    | .clientApproval => "client_approval"

def TaskKind.name (k : TaskKind) : String := Named.name k

inductive TaskStatus where
  | pending | completed | rejected
deriving DecidableEq, Repr

instance : Named TaskStatus where
  noun := "task status"
  all := [.pending, .completed, .rejected]
  name
    | .pending => "pending"
    | .completed => "completed"
    | .rejected => "rejected"

namespace TaskStatus

def name (s : TaskStatus) : String := Named.name s

def isTerminal : TaskStatus → Bool
  | .pending => false
  | .completed | .rejected => true

end TaskStatus

structure CaseTask where
  id : Id
  recordId : Id
  stepId : String
  /-- The execution that made the case pause. -/
  executionId : Id
  kind : TaskKind
  title : String
  assignee : Option String
  instructions : Option String
  status : TaskStatus
  createdAt : Time
  resolvedAt : Option Time
  resolvedBy : Option String
  output : Option Json

/-- What somebody has made of a task. -/
structure Resolution where
  rejected : Bool
  output : Option Json
  resolvedBy : Option String

def Resolution.status (r : Resolution) : TaskStatus := if r.rejected then .rejected else .completed

namespace CaseTask

def resolve (t : CaseTask) (r : Resolution) (now : Time) : CaseTask :=
  { t with status := r.status, resolvedAt := some now, resolvedBy := r.resolvedBy
           output := r.output }

/-- The members of an output that is a JSON object. -/
def membersOf : Option String → List (String × Json)
  | some text =>
    match Json.ofText? text with
    | some (.object members) => members
    | _ => []
  | none => []

/-- The output of the execution with the task's resolution in it. -/
def amendedOutput (t : CaseTask) (existing : Option String) : String :=
  (Json.ofTable (membersOf existing ++ [("task_id", .text t.id.render),
    ("status", .text t.status.name)] ++ (t.resolvedBy.map (("resolved_by", .text ·))).toList
    ++ (t.output.map (("output", ·))).toList)).compact

end CaseTask

end Casework
