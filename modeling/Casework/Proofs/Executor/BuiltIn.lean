import Casework.Executor.BuiltIn
import Casework.Proofs.Dictionary
import Casework.Proofs.Engine.Preservation

/-!
# What the built-in executors reply and leave alone

Decision tables and calculations only look at the world, so what they come to is a reply. Tasks take
an id and the time and are added to the store. None of them touches case records or templates. A
registry lists the types of step that have an executor, whichever these are.
-/

namespace Casework

variable {σ : Type}

namespace Executor

variable (step : Step) (execution : Execution) (record : CaseRecord) (w : World σ)

theorem get_bind_apply {α : Type} (f : World σ → StateM (World σ) α) (w : World σ) :
    (get >>= f) w = f w w := rfl

def decisionReply (store : Store) (step : Step) (execution : Execution) (record : CaseRecord) :
    Reply :=
  match (StepConfig.decode step : Except ConfigError DecisionConfig) with
  | .error e => .result (.failed e.message)
  | .ok config =>
    match store.ruleSet? config.ruleSetId with
    | none => .result (.failed ("Rule set not found: " ++ config.ruleSetId))
    | some ruleSet =>
      match Inputs.ofExecution? execution record.data with
      | none => .error ["the input is not a context"]
      | some inputs => .result (.succeeded (decisionOutput (ruleSet.decide? inputs.get?)))

theorem decisionTable_apply : decisionTable step execution record w =
    (decisionReply w.store step execution record, w) := by
  simp only [decisionTable, decisionReply]
  cases (StepConfig.decode step : Except ConfigError DecisionConfig) with
  | error e => rfl
  | ok config =>
    simp only [get_bind_apply]
    cases w.store.ruleSet? config.ruleSetId with
    | none => rfl
    | some ruleSet => cases Inputs.ofExecution? execution record.data <;> rfl

def calculationReply (store : Store) (step : Step) (execution : Execution) (record : CaseRecord) :
    Reply :=
  match (StepConfig.decode step : Except ConfigError CalculationConfig) with
  | .error e => .result (.failed e.message)
  | .ok config =>
    match store.formula? config.formulaId with
    | none => .result (.failed ("Formula not found: " ++ config.formulaId))
    | some formula =>
      match Inputs.ofExecution? execution record.data with
      | none => .error ["the input is not a context"]
      | some inputs =>
        match Formula.evaluate formula.expression inputs.decimal? with
        | .ok value => .result (.succeeded value.normalize.render)
        | .error e => .result (.failed ("Formula " ++ formula.id ++ ": " ++ e.message))

theorem calculation_apply : calculation step execution record w =
    (calculationReply w.store step execution record, w) := by
  simp only [calculation, calculationReply]
  cases (StepConfig.decode step : Except ConfigError CalculationConfig) with
  | error e => rfl
  | ok config =>
    simp only [get_bind_apply]
    cases w.store.formula? config.formulaId with
    | none => rfl
    | some formula =>
      cases Inputs.ofExecution? execution record.data with
      | none => rfl
      | some inputs =>
        simp only
        cases Formula.evaluate formula.expression inputs.decimal? <;> rfl

/-- A task changes nothing but the tasks. -/
theorem pendingTask_aside (kind : TaskKind) :
    w.surroundings.Aside (pendingTask kind step execution record w).2.surroundings := by
  rw [pendingTask]
  cases taskConfig step with
  | error e => exact ⟨w.store.tasks, w.memory, rfl⟩
  | ok config => exact ⟨_, w.memory, rfl⟩

theorem pendingTask_records (kind : TaskKind) :
    (pendingTask kind step execution record w).2.store.records = w.store.records := by
  rw [pendingTask]
  cases taskConfig step <;> rfl

theorem decisionTable_discreet : (decisionTable : Executor σ).Discreet where
  records _ _ _ _ := by rw [decisionTable_apply]
  templates _ _ _ _ := by rw [decisionTable_apply]
  outage _ _ _ _ := by rw [decisionTable_apply]

theorem calculation_discreet : (calculation : Executor σ).Discreet where
  records _ _ _ _ := by rw [calculation_apply]
  templates _ _ _ _ := by rw [calculation_apply]
  outage _ _ _ _ := by rw [calculation_apply]

theorem pendingTask_discreet (kind : TaskKind) : (pendingTask kind : Executor σ).Discreet where
  records step execution record w := pendingTask_records step execution record w kind
  templates step execution record w := (pendingTask_aside step execution record w kind).templates
  outage step execution record w := (pendingTask_aside step execution record w kind).outage

theorem decisionTable_spares (id : Id) : (decisionTable : Executor σ).Spares id := by
  intro step execution record w
  rw [decisionTable_apply]
  exact ⟨rfl, Nat.le_refl _, .inl rfl⟩

theorem calculation_spares (id : Id) : (calculation : Executor σ).Spares id := by
  intro step execution record w
  rw [calculation_apply]
  exact ⟨rfl, Nat.le_refl _, .inl rfl⟩

theorem pendingTask_spares (kind : TaskKind) (id : Id) :
    (pendingTask kind : Executor σ).Spares id := by
  intro step execution record w
  rw [pendingTask]
  cases taskConfig step with
  | error e => exact ⟨rfl, Nat.le_refl _, .inl rfl⟩
  | ok config => exact ⟨rfl, Nat.le_succ _, .inl rfl⟩

end Executor

namespace Registry

theorem mem_stepTypes {r : Registry σ} {type : StepType} :
    type ∈ r.stepTypes ↔ r.contains type := by
  have hall : type ∈ (Named.all : List StepType) := by cases type <;> decide
  rw [stepTypes, List.mem_mergeSort, List.mem_filter]
  exact and_iff_right hall

/-- The types with an executor are listed by name, and none of them twice. -/
theorem stepTypes_ascending (r : Registry σ) : r.stepTypes.Pairwise fun a b => a.name < b.name := by
  have hnodup : r.stepTypes.Nodup :=
    (List.mergeSort_perm _ _).nodup_iff.2 (.filter _ (by decide))
  have hread : ∀ type : StepType, Named.ofName? type.name = some type := by
    intro type
    cases type <;> rfl
  refine ((Dictionary.pairwise_mergeSort StepType.name _).and hnodup).imp fun {a b} h => ?_
  refine String.not_le.1 fun hba => h.2 ?_
  have hname : a.name = b.name := String.le_antisymm h.1 hba
  exact Option.some.inj ((hread a).symm.trans (hname ▸ hread b))

/-- What holds of each built-in executor holds of any that the registry has. -/
theorem builtIn_forall {P : Executor σ → Prop} (hdecision : P Executor.decisionTable)
    (hcalculation : P Executor.calculation) (htask : ∀ kind, P (Executor.pendingTask kind))
    {type : StepType} {x : Executor σ} (hx : builtIn.executor? type = some x) : P x := by
  cases type with
  | decisionTable => exact Option.some.inj hx ▸ hdecision
  | calculation => exact Option.some.inj hx ▸ hcalculation
  | humanTask => exact Option.some.inj hx ▸ htask .humanTask
  | clientApproval => exact Option.some.inj hx ▸ htask .clientApproval
  | documentGeneration => exact nomatch hx

theorem builtIn_discreet : (builtIn : Registry σ).Discreet :=
  builtIn_forall Executor.decisionTable_discreet Executor.calculation_discreet
    Executor.pendingTask_discreet

theorem builtIn_spares (id : Id) : (builtIn : Registry σ).Spares id :=
  builtIn_forall (Executor.decisionTable_spares id) (Executor.calculation_spares id)
    fun kind => Executor.pendingTask_spares kind id

end Registry

end Casework
