import Casework.Context.Inputs
import Casework.Decision.Evaluate
import Casework.Executor.Basic
import Casework.Executor.Config
import Casework.Formula.Evaluate

/-!
# Built-in executors

Decision tables and calculations work on the inputs of their execution and never pause. Human tasks
and approvals leave a task behind and pause until it is resolved. Document generation is left to
whoever sets up the registry.
-/

namespace Casework

namespace Executor

variable {σ : Type}

def fails (message : String) : StateM (World σ) Reply := pure (.result (.failed message))

/-- The inputs of an execution cannot be read when its input is no context. -/
def unreadableInput : StateM (World σ) Reply := pure (.error ["the input is not a context"])

def decisionOutput : Option Rule → String
  | some r => (Json.object [("matched", .bool true),
      ("outputs", .object (r.outputs.map Json.text).entries), ("rule_id", .text r.id)]).compact
  | none => (Json.object [("matched", .bool false), ("outputs", .object []),
      ("rule_id", .null)]).compact

def decisionTable : Executor σ := fun step execution record => do
  match (StepConfig.decode step : Except ConfigError DecisionConfig) with
  | .error e => fails e.message
  | .ok config =>
    match (← get).store.ruleSet? config.ruleSetId with
    | none => fails ("Rule set not found: " ++ config.ruleSetId)
    | some ruleSet =>
      match Inputs.ofExecution? execution record.data with
      | none => unreadableInput
      | some inputs => return .result (.succeeded (decisionOutput (ruleSet.decide? inputs.get?)))

def calculation : Executor σ := fun step execution record => do
  match (StepConfig.decode step : Except ConfigError CalculationConfig) with
  | .error e => fails e.message
  | .ok config =>
    match (← get).store.formula? config.formulaId with
    | none => fails ("Formula not found: " ++ config.formulaId)
    | some formula =>
      match Inputs.ofExecution? execution record.data with
      | none => unreadableInput
      | some inputs =>
        match Formula.evaluate formula.expression inputs.decimal? with
        | .ok value => return .result (.succeeded value.normalize.render)
        | .error e => fails ("Formula " ++ formula.id ++ ": " ++ e.message)

/-- What a task is about; by default its title is the name of the step. -/
def taskConfig (step : Step) : Except ConfigError TaskConfig := do
  return (← StepConfig.decode? step).getD ⟨step.name, none, none⟩

def pendingTask (kind : TaskKind) : Executor σ := fun step execution record => do
  match taskConfig step with
  | .error e => fails e.message
  | .ok config =>
    let id ← World.newId
    let now ← World.now
    World.updateStore (·.saveTask {
      id, recordId := record.id, stepId := step.id, executionId := execution.id, kind
      title := config.title, assignee := config.assignee, instructions := config.instructions
      status := .pending, createdAt := now
      resolvedAt := none, resolvedBy := none, output := none })
    return .result (.paused
      (Json.object [("kind", .text kind.name), ("task_id", .text id.render)]).compact)

end Executor

/-- The built-in executors. -/
def Registry.builtIn {σ : Type} : Registry σ where
  executor?
    | .decisionTable => some Executor.decisionTable
    | .calculation => some Executor.calculation
    | .humanTask => some (Executor.pendingTask .humanTask)
    | .clientApproval => some (Executor.pendingTask .clientApproval)
    | .documentGeneration => none

end Casework
