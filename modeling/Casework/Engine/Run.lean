import Casework.Context.Basic
import Casework.Engine.Session
import Casework.Template.Graph

/-!
# Running a case

A run goes from step to step. What has come of a step is saved together with the step to go on with,
so that a case that was interrupted can go on from there. Before each step, and again behind it, the
run looks whether somebody has cancelled the case in the store, and stops if so.
-/

namespace Casework.Engine

variable {σ : Type}

/-- What follows a visit. -/
inductive Next where
  /-- The run is over. -/
  | stop
  /-- On to this step, or to the end behind the last one. -/
  | goOn (step : Option String) (viaFailure : Bool)
deriving DecidableEq, Repr

namespace Visit

/-- The step to go on with is saved with what has come of the one before. -/
def advance (next : Option String) (viaFailure : Bool) : Action σ Next := do
  Action.update ({ · with currentStep := next })
  Action.save
  return .goOn next viaFailure

/-- A step without an executor can be done without, unless it is required or there for a failure. -/
def withoutExecutor (g : StepGraph) (step : Step) (viaFailure : Bool) : Action σ Next := do
  if viaFailure then
    Action.failWith (.noExecutor step.id step.type)
  else if step.required then
    Action.fail ("No executor registered for step type " ++ step.type.name ++
      " (step " ++ step.id ++ ")")
    return .stop
  else
    let id ← Action.sure World.newId
    let now ← Action.sure World.now
    let execution := (Execution.new id step).skip
      ("No executor registered for step type " ++ step.type.name) now
    Action.update fun r => { r with executions := r.executions ++ [execution] }
    advance (g.nextInOrder step) false

/-- The execution of the step, which has started and is part of the saved record. -/
def begin (step : Step) : Action σ Execution := do
  let input := (Context.ofExecutions (← Action.record).executions).render
  let id ← Action.sure World.newId
  let now ← Action.sure World.now
  let execution := (Execution.new id step).start input now
  Action.update fun r => { r with executions := r.executions ++ [execution] }
  Action.save
  return execution

/-- The execution at the place takes on what has come of it. -/
def settle (place : Nat) (f : Execution → Time → Execution) : Action σ Unit := do
  let now ← Action.sure World.now
  Action.update fun r => { r with executions := r.executions.modify place (f · now) }

/-- The execution was under way when the case was cancelled. -/
def breakOff (execution : Execution) : Action σ Unit := do
  let r ← Action.record
  match r.executions.findIdx? fun e => e.id == execution.id with
  | some place =>
    if r.executions[place]?.any (·.status == .running) then
      settle place (·.fail "Cancelled during execution")
      Action.save
  | none => return

def apply (g : StepGraph) (step : Step) (place : Nat) : Outcome → Action σ Next
  | .pause output => do
    settle place (·.complete output)
    Action.update ({ · with currentStep := g.afterSuccess step })
    Action.transition .paused
    Action.save
    return .stop
  | .success output => do
    settle place (·.complete output)
    advance (g.afterSuccess step) false
  | .failure message => do
    settle place (·.fail message)
    match step.onFailure with
    | some target => advance (some target) true
    | none =>
      if step.required then
        Action.fail ("Step " ++ step.id ++ " failed: " ++ message)
        return .stop
      else advance (g.nextInOrder step) false

def withExecutor (g : StepGraph) (step : Step) (executor : Executor σ) : Action σ Next := do
  let place := (← Action.record).executions.length
  let execution ← begin step
  let reply ← Action.sure (executor step execution (← Action.record))
  if ← Action.adoptCancellation then
    breakOff execution
    return .stop
  apply g step place reply.outcome

end Visit

def visit (e : Engine σ) (g : StepGraph) (step : Step) (viaFailure : Bool) : Action σ Next := do
  Action.update ({ · with currentStep := some step.id })
  match e.registry.executor? step.type with
  | none => Visit.withoutExecutor g step viaFailure
  | some executor => Visit.withExecutor g step executor

/-- The case has reached its end. -/
def complete : Action σ Unit := do
  Action.update ({ · with currentStep := none })
  Action.transition .completed
  Action.save

/-- Visits steps from the given one on, as many as are left to visit. -/
def runFrom (e : Engine σ) (g : StepGraph) : Nat → Bool → String → Action σ Unit
  | left, viaFailure, id => do
    if ← Action.adoptCancellation then return
    match g.step? id with
    | none => Action.failWith (.danglingStep id)
    | some step =>
      match left with
      | 0 => Action.failWith (.tooManyVisits e.config.maxVisits)
      | left + 1 =>
        match ← e.visit g step viaFailure with
        | .stop => return
        | .goOn none _ => complete
        | .goOn (some next) viaFailure => runFrom e g left viaFailure next

def run (e : Engine σ) (t : Template) (first : String) : Action σ Unit :=
  e.runFrom (StepGraph.ofTemplate t) e.config.maxVisits false first

/-- The template that the case is bound to. -/
def template : Action σ Template := do
  let r ← Action.record
  match ← Action.ofAttempt (Attempt.template? r.templateId r.templateVersion) with
  | none => Action.failWith (.templateNotFound r.templateId r.templateVersion)
  | some t =>
    match t.validate with
    | .error e => Action.failWith (.invalidTemplate e)
    | .ok () => return t

end Casework.Engine
