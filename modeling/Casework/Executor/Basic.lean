import Casework.World

/-!
# Executors

An executor does what steps of a type are for. It sees the step, its execution and the case, and may
change the world, but not the case it is given: what becomes of that follows from its reply.
-/

namespace Casework

structure StepResult where
  success : Bool
  output : Option String
  error : Option String
  /-- The case is to wait until somebody resumes it. -/
  pause : Bool
deriving DecidableEq, Repr

namespace StepResult

def succeeded (output : String) : StepResult := ⟨true, some output, none, false⟩

def failed (message : String) : StepResult := ⟨false, none, some message, false⟩

def paused (output : String) : StepResult := ⟨true, some output, none, true⟩

end StepResult

inductive Reply where
  | result (value : StepResult)
  /-- An error with its causes, the outermost first. -/
  | error (causes : List String)
  /-- The executor broke off; its last words if there are any. -/
  | crash (message : Option String)
deriving DecidableEq, Repr

/-- What a reply means for the step. -/
inductive Outcome where
  | pause (output : Option String)
  | success (output : Option String)
  | failure (message : String)
deriving DecidableEq, Repr

def StepResult.outcome (r : StepResult) : Outcome :=
  if r.pause then .pause r.output
  else if r.success then .success r.output
  else .failure (r.error.getD "Step reported failure without a message")

def Reply.outcome : Reply → Outcome
  | .result r => r.outcome
  | .error causes => .failure (String.intercalate ": " causes)
  | .crash message => .failure ("Executor panicked: " ++ message.getD "executor panicked")

abbrev Executor (σ : Type) := Step → Execution → CaseRecord → StateM (World σ) Reply

/-- The executors at hand, one for a type of step at most. -/
structure Registry (σ : Type) where
  executor? : StepType → Option (Executor σ)

namespace Registry

variable {σ : Type}

def empty : Registry σ := ⟨fun _ => none⟩

/-- The executor replaces the one of its type. -/
def insert (r : Registry σ) (type : StepType) (executor : Executor σ) : Registry σ :=
  ⟨fun t => if t = type then some executor else r.executor? t⟩

def contains (r : Registry σ) (type : StepType) : Bool := (r.executor? type).isSome

/-- The types with an executor, by name. -/
def stepTypes (r : Registry σ) : List StepType :=
  ((Named.all : List StepType).filter r.contains).mergeSort fun a b => a.name ≤ b.name

end Registry

end Casework
