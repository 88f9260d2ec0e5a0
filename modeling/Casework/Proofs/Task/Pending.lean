import Casework.Proofs.Executor.BuiltIn
import Casework.Proofs.Json.RoundTrip

/-!
# Which tasks the built-in executors leave behind

Only steps for a person or for the client leave a task behind, and only they pause. The task says
for whom it is: for which case, which step and which execution, and the output of that execution
names the task.
-/

namespace Casework

variable {σ : Type}

/-- The kind of the tasks that steps of a type wait for. -/
def StepType.taskKind? : StepType → Option TaskKind
  | .humanTask => some .humanTask
  | .clientApproval => some .clientApproval
  | .decisionTable | .calculation | .documentGeneration => none

/-! ### What a task is named in -/

namespace Executor

/-- The output of an execution that waits for a task. -/
def pendingOutput (kind : TaskKind) (id : Id) : String :=
  (Json.object [("kind", .text kind.name), ("task_id", .text id.render)]).compact

variable (step : Step) (execution : Execution) (record : CaseRecord) (w : World σ)

/-- The world in which the next id has gone to a task. -/
def leaving (task : CaseTask) : World σ :=
  { w with
    readings := w.readings + 1
    drawn := w.drawn + 1
    store := w.store.saveTask task }

/-- The task that is left behind. -/
def newTask (kind : TaskKind) (config : TaskConfig) : CaseTask where
  id := w.ids w.drawn
  recordId := record.id
  stepId := step.id
  executionId := execution.id
  kind := kind
  title := config.title
  assignee := config.assignee
  instructions := config.instructions
  status := .pending
  createdAt := w.clock w.readings
  resolvedAt := none
  resolvedBy := none
  output := none

theorem pendingTask_apply (kind : TaskKind) : pendingTask kind step execution record w =
    match taskConfig step with
    | .error e => (.result (.failed e.message), w)
    | .ok config =>
      let task := newTask step execution record w kind config
      (.result (.paused (pendingOutput kind task.id)), leaving w task) := by
  rw [pendingTask]
  cases taskConfig step with
  | error e => rfl
  | ok config =>
    simp only [pendingOutput]
    rfl

/-- A task as an execution leaves it behind. -/
structure Leaves (kind : TaskKind) (task : CaseTask) : Prop where
  id : task.id = w.ids w.drawn
  recordId : task.recordId = record.id
  stepId : task.stepId = step.id
  executionId : task.executionId = execution.id
  kind : task.kind = kind
  status : task.status = .pending

end Executor

namespace Reply

/-- The step does not wait. -/
def Prompt (reply : Reply) : Prop := ∀ output, reply.outcome ≠ .pause output

theorem prompt_succeeded (output : String) : (result (.succeeded output)).Prompt := nofun

theorem prompt_failed (message : String) : (result (.failed message)).Prompt := nofun

theorem prompt_error (causes : List String) : (error causes).Prompt := nofun

end Reply

namespace Executor

variable (step : Step) (execution : Execution) (record : CaseRecord)

theorem decisionReply_prompt (store : Store) :
    (decisionReply store step execution record).Prompt := by
  rw [decisionReply]
  cases (StepConfig.decode step : Except ConfigError DecisionConfig) with
  | error e => exact Reply.prompt_failed _
  | ok config =>
    simp only
    cases store.ruleSet? config.ruleSetId with
    | none => exact Reply.prompt_failed _
    | some ruleSet =>
      simp only
      cases Inputs.ofExecution? execution record.data with
      | none => exact Reply.prompt_error _
      | some inputs => exact Reply.prompt_succeeded _

theorem calculationReply_prompt (store : Store) :
    (calculationReply store step execution record).Prompt := by
  rw [calculationReply]
  cases (StepConfig.decode step : Except ConfigError CalculationConfig) with
  | error e => exact Reply.prompt_failed _
  | ok config =>
    simp only
    cases store.formula? config.formulaId with
    | none => exact Reply.prompt_failed _
    | some formula =>
      simp only
      cases Inputs.ofExecution? execution record.data with
      | none => exact Reply.prompt_error _
      | some inputs =>
        simp only
        cases Formula.evaluate formula.expression inputs.decimal? with
        | error e => exact Reply.prompt_failed _
        | ok value => exact Reply.prompt_succeeded _

end Executor

/-- The executor replies at once and leaves the world as it is, or it leaves a task of the kind
behind that the step is to wait for. -/
def Executor.LeavesAtMost (kind? : Option TaskKind) (x : Executor σ) : Prop :=
  ∀ step execution record w,
    ((x step execution record w).1.Prompt ∧ (x step execution record w).2 = w) ∨
      ∃ kind ∈ kind?, ∃ task, Leaves step execution record w kind task ∧
        x step execution record w =
          (.result (.paused (pendingOutput kind task.id)), leaving w task)

namespace Executor

theorem decisionTable_leavesAtMost (kind? : Option TaskKind) :
    (decisionTable : Executor σ).LeavesAtMost kind? := by
  intro step execution record w
  rw [decisionTable_apply]
  exact .inl ⟨decisionReply_prompt step execution record w.store, rfl⟩

theorem calculation_leavesAtMost (kind? : Option TaskKind) :
    (calculation : Executor σ).LeavesAtMost kind? := by
  intro step execution record w
  rw [calculation_apply]
  exact .inl ⟨calculationReply_prompt step execution record w.store, rfl⟩

theorem pendingTask_leavesAtMost (kind : TaskKind) :
    (pendingTask kind : Executor σ).LeavesAtMost (some kind) := by
  intro step execution record w
  rw [pendingTask_apply]
  cases taskConfig step with
  | error e => exact .inl ⟨Reply.prompt_failed e.message, rfl⟩
  | ok config => exact .inr ⟨kind, rfl, _, ⟨rfl, rfl, rfl, rfl, rfl, rfl⟩, rfl⟩

end Executor

theorem Registry.builtIn_leavesAtMost {type : StepType} {x : Executor σ}
    (hx : builtIn.executor? type = some x) : x.LeavesAtMost type.taskKind? := by
  cases type with
  | decisionTable => exact Option.some.inj hx ▸ Executor.decisionTable_leavesAtMost _
  | calculation => exact Option.some.inj hx ▸ Executor.calculation_leavesAtMost _
  | humanTask => exact Option.some.inj hx ▸ Executor.pendingTask_leavesAtMost .humanTask
  | clientApproval => exact Option.some.inj hx ▸ Executor.pendingTask_leavesAtMost .clientApproval
  | documentGeneration => exact nomatch hx

end Casework
