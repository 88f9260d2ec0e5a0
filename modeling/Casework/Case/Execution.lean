import Casework.Id
import Casework.Naming
import Casework.Template.Basic

/-!
# Executions

An execution is the record of one attempt at a step: what went in, what came out, and when.
-/

namespace Casework

inductive ExecutionStatus where
  | pending | running | completed | failed | skipped
deriving DecidableEq, Repr

instance : Named ExecutionStatus where
  noun := "step status"
  all := [.pending, .running, .completed, .failed, .skipped]
  name
    | .pending => "pending"
    | .running => "running"
    | .completed => "completed"
    | .failed => "failed"
    | .skipped => "skipped"

def ExecutionStatus.name (s : ExecutionStatus) : String := Named.name s

structure Execution where
  id : Id
  stepId : String
  stepName : String
  status : ExecutionStatus
  /-- The context as it was when the step began, as JSON text. -/
  input : Option String
  output : Option String
  error : Option String
  startedAt : Option Time
  completedAt : Option Time
deriving DecidableEq, Repr

namespace Execution

def new (id : Id) (step : Step) : Execution :=
  { id, stepId := step.id, stepName := step.name, status := .pending
    input := none, output := none, error := none, startedAt := none, completedAt := none }

def start (e : Execution) (input : String) (now : Time) : Execution :=
  { e with status := .running, input := some input, startedAt := some now }

def complete (e : Execution) (output : Option String) (now : Time) : Execution :=
  { e with status := .completed, output, completedAt := some now }

def fail (e : Execution) (message : String) (now : Time) : Execution :=
  { e with status := .failed, error := some message, completedAt := some now }

def skip (e : Execution) (reason : String) (now : Time) : Execution :=
  { e with status := .skipped, error := some reason, startedAt := some now,
           completedAt := some now }

end Execution

end Casework
