import Casework.Case.Execution
import Casework.Json.Printer
import Casework.Json.Reader

/-!
# Contexts

A context gives each completed step, by name, its latest output, the latest completion last. It is
always rebuilt from the executions, so that a case that was interrupted sees what any other would
see. Its JSON text keeps the order of the entries.
-/

namespace Casework

structure Context where
  entries : List (String × String)
deriving DecidableEq, Repr

namespace Context

def empty : Context := ⟨[]⟩

/-- The entry goes to the end, and an earlier one of the same name goes away. -/
def insert (c : Context) (name output : String) : Context :=
  ⟨c.entries.filter (·.1 != name) ++ [(name, output)]⟩

def get? (c : Context) (name : String) : Option String := c.entries.lookup name

def ofList (entries : List (String × String)) : Context :=
  entries.foldl (fun c e => c.insert e.1 e.2) empty

/-- Executions without a time of completion come first. -/
def completedBefore (a b : Execution) : Bool :=
  match a.completedAt, b.completedAt with
  | some s, some t => s ≤ t
  | some _, none => false
  | none, _ => true

/-- The outputs of completed executions in the order of completion. -/
def outputs (executions : List Execution) : List (String × String) :=
  ((executions.filter (·.status == .completed)).mergeSort completedBefore).filterMap fun e =>
    e.output.map (e.stepName, ·)

def ofExecutions (executions : List Execution) : Context := ofList (outputs executions)

def toJson (c : Context) : Json := .object (c.entries.map fun e => (e.1, .text e.2))

def render (c : Context) : String := c.toJson.compact

def entries? : List (Document × Document) → Option (List (String × String))
  | [] => some []
  | (.text name, .text output) :: es => return (name, output) :: (← entries? es)
  | _ => none

/-- The context that a JSON object of texts stands for. -/
def ofText? (text : String) : Option Context := do
  match ← Json.document? text with
  | .table members => return ofList (← entries? members)
  | _ => none

end Context

end Casework
