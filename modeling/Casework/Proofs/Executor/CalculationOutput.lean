import Casework.Proofs.Decimal.Text
import Casework.Proofs.Engine.Handover
import Casework.Proofs.Executor.BuiltIn
import Casework.Proofs.Executor.Config
import Casework.Proofs.Formula.Parsing

/-!
# What a calculation tells later steps

A calculation answers with its value as text, without zeros at the end. In the inputs of a later
evaluation, to which this text was written last, the name of the step stands for a number again: the
same value, whatever its sign, its size and its digits behind the point.
-/

namespace Casework

variable {σ : Type}

namespace Inputs

/-- Whatever has been written before, the last entry gives its value to its name. -/
theorem decimals_of_insert (data : Dictionary String) (c : Context) (name : String) (v : Decimal) :
    ∃ d, (∀ d', (name, d') ∈ (build data (c.insert name v.normalize.render)).decimals ↔ d' = d) ∧
      Decimal.compareValue d v = .eq := by
  obtain ⟨d, hread, hvalue⟩ := v.ofText?_normalize_render
  refine ⟨d, fun d' => ?_, hvalue⟩
  rw [mem_decimals_iff, decimal?, get?_build_self, Option.bind_some, hread, Option.some_inj]
  exact eq_comm

end Inputs

namespace Executor

theorem calculation_looks : (calculation : Executor σ).Looks calculationReply := calculation_apply

/-- A calculation that completes has evaluated its formula on the inputs of its execution. -/
theorem calculationReply_completes {store : Store} {step : Step} {execution : Execution}
    {record : CaseRecord} {output : Option String}
    (h : (calculationReply store step execution record).outcome.Completes output) :
    ∃ (config : CalculationConfig) (formula : Formula) (inputs : Inputs) (v : Decimal),
      StepConfig.decode step = .ok config ∧ store.formula? config.formulaId = some formula ∧
      Inputs.ofExecution? execution record.data = some inputs ∧
      Formula.evaluate formula.expression inputs.decimal? = .ok v ∧
      output = some v.normalize.render := by
  rw [calculationReply] at h
  cases hconfig : (StepConfig.decode step : Except ConfigError CalculationConfig) with
  | error err =>
    rw [hconfig] at h
    exact absurd h (Reply.not_completes_failed _)
  | ok config =>
    simp only [hconfig] at h
    cases hformula : store.formula? config.formulaId with
    | none =>
      rw [hformula] at h
      exact absurd h (Reply.not_completes_failed _)
    | some formula =>
      simp only [hformula] at h
      cases hinputs : Inputs.ofExecution? execution record.data with
      | none =>
        rw [hinputs] at h
        exact absurd h (Reply.not_completes_error _)
      | some inputs =>
        simp only [hinputs] at h
        cases hvalue : Formula.evaluate formula.expression inputs.decimal? with
        | error err =>
          rw [hvalue] at h
          exact absurd h (Reply.not_completes_failed _)
        | ok v =>
          rw [hvalue] at h
          exact ⟨config, formula, inputs, v, rfl, hformula, rfl, hvalue,
            Reply.completes_succeeded h⟩

end Executor

namespace Engine

variable {e : Engine σ} {step : Step} {s s₁ s₂ : Session σ} {x y : Execution}

/-- Whatever a calculation has come to, the step that starts next has a number of the same value
under the name of this one. -/
theorem calculation_handed_over (htype : step.type = .calculation)
    (hexecutor : e.registry.executor? .calculation = some Executor.calculation)
    (h : e.Handover step s s₁ s₂ x y) :
    ∃ (config : CalculationConfig) (formula : Formula) (inputs inputs' : Inputs) (v d : Decimal),
      StepConfig.decode step = .ok config ∧
      s.world.store.formula? config.formulaId = some formula ∧
      Inputs.ofExecution? x s.record.data = some inputs ∧
      Formula.evaluate formula.expression inputs.decimal? = .ok v ∧
      Inputs.ofExecution? y s₂.record.data = some inputs' ∧
      (∀ d', (step.name, d') ∈ inputs'.decimals ↔ d' = d) ∧ Decimal.compareValue d v = .eq := by
  obtain ⟨output, now, -, rfl, houtcome⟩ :=
    h.replied (htype ▸ hexecutor) Executor.calculation_looks
  obtain ⟨config, formula, inputs, v, hconfig, hformula, hinputs, hvalue, rfl⟩ :=
    Executor.calculationReply_completes houtcome
  obtain ⟨d, hdecimals, heq⟩ := Inputs.decimals_of_insert s₂.record.data
    (Context.ofExecutions (Context.others step.name s₂.record.executions)) step.name v
  exact ⟨config, formula, inputs, _, v, d, hconfig, hformula, hinputs, hvalue, h.inputs_eq rfl _,
    hdecimals, heq⟩

/-! ### A refund -/

namespace Refund

def refund : Step where
  id := "refund"
  name := "refund"
  type := .calculation
  sortOrder := 1
  configuration := some (StepConfig.encode (⟨"refund"⟩ : CalculationConfig))
  required := true
  onSuccess := none
  onFailure := none

def sign : Step := ⟨"sign", "Signature", .clientApproval, 2, none, true, none, none⟩

def template : Template := ⟨"refund", 1, "Refund", none, [refund, sign], some ⟨0⟩⟩

def formula : Formula := .ofExpression "refund" "-paid"

/-- Two and a half, with a zero at the end. -/
def amount : Decimal := ⟨false, 250, 2, by decide, by decide⟩

def data : Dictionary String := .ofList [("paid", amount.render)]

def engine : Engine Unit := ⟨.builtIn, .default⟩

/-- The case has just been started, and its formula is in the store. -/
def uncalculated : Session Unit :=
  let s : Session Unit := .opened template ()
  startedAt { record := { s.record with data }
              world := { s.world with store := s.world.store.saveFormula formula } } refund

def calculated : Session Unit :=
  Visit.succeededIn (.ofTemplate template) uncalculated refund (some amount.neg.normalize.render)

theorem evaluate_formula {row : String → Option Decimal} (hpaid : row "paid" = some amount) :
    Formula.evaluate formula.expression row = .ok amount.neg := by
  have htokens : Formula.tokenize "-paid" =
      .ok [⟨.symbol .minus, 0⟩, ⟨.name "paid", 1⟩] := by decide +kernel
  have hname : Formula.Located.bind row ⟨.name "paid", 1⟩ = .ok ⟨.number amount, 1⟩ := by
    have hfree : (Formula.Keyword.ofName? "paid").isSome = false := by decide
    simp only [Formula.Located.bind, hfree, hpaid, Bool.false_eq_true, if_false]
  have hbound : Formula.bindVariables row [⟨.symbol .minus, 0⟩, ⟨.name "paid", 1⟩] =
      .ok [⟨.symbol .minus, 0⟩, ⟨.number amount, 1⟩] := by
    rw [Formula.bindVariables, List.mapM_cons, List.mapM_cons, hname]
    rfl
  have hparse : Formula.parse [⟨.symbol .minus, 0⟩, ⟨.number amount, 1⟩] =
      .ok (.negate (.number amount)) :=
    Formula.parse_eq_ok_iff_derives.2 (.sumOfProduct (.productOfSigned (.minus
      (.signedOfOperand (.number amount)))))
  rw [Formula.evaluate, show formula.expression = "-paid" from rfl, htokens]
  exact bind_eq_ok.2 ⟨_, rfl, bind_eq_ok.2 ⟨_, hbound, bind_eq_ok.2 ⟨_, hparse, rfl⟩⟩⟩

theorem decimal?_paid :
    (Inputs.build data (Context.ofExecutions [])).decimal? "paid" = some amount := by
  have hempty : Context.ofExecutions [] = .empty := by
    simp [Context.ofExecutions, Context.outputs, Context.ofList]
  have hget : (Inputs.build data .empty).get? "paid" = some amount.render := rfl
  rw [hempty, Inputs.decimal?, hget, Option.bind_some, Decimal.ofText?_trimmed_render]
  rfl

theorem decode_refund : StepConfig.decode refund = .ok (⟨"refund"⟩ : CalculationConfig) :=
  StepConfig.decode_calculation rfl

theorem reply_eq {store : Store} {record : CaseRecord} (hdata : record.data = data)
    (hstore : store.formula? "refund" = some formula) :
    Executor.calculationReply store refund (uncalculated.execution refund) record =
      .result (.succeeded amount.neg.normalize.render) := by
  have hinputs :=
    Inputs.ofExecution?_of_shown [] (e := uncalculated.execution refund) rfl record.data
  rw [hdata] at hinputs
  simp only [Executor.calculationReply, decode_refund, hstore, hdata, hinputs,
    evaluate_formula decimal?_paid]

def execution : Execution :=
  ((uncalculated.directed (some refund.id)).execution refund).complete
    (some amount.neg.normalize.render) ((uncalculated.directed (some refund.id)).begun refund).now

theorem handover : engine.Handover refund uncalculated calculated calculated execution
    (calculated.execution sign) := by
  refine .of_success (Registry.Discreet.calm Registry.builtIn_discreet)
    (Session.launched_underway rfl) rfl Executor.calculation_looks ?_ _ sign ?_
  · exact congrArg Reply.outcome (reply_eq rfl rfl)
  · simp only [Visit.succeededIn_executions]
    exact (List.pairwise_singleton _ _).sublist List.filter_sublist

end Refund

open Refund in
theorem calculation_handed_over_refund : ∃ inputs d,
    Inputs.ofExecution? (calculated.execution sign) calculated.record.data = some inputs ∧
      (∀ d', ("refund", d') ∈ inputs.decimals ↔ d' = d) ∧
      Decimal.compareValue d amount.neg = .eq := by
  obtain ⟨config, _, inputs, inputs', v, d, hconfig, hformula, hinputs, hvalue, hinputs', hdecimals,
    heq⟩ := calculation_handed_over rfl rfl handover
  obtain rfl : config = ⟨"refund"⟩ := Except.ok.inj (hconfig.symm.trans decode_refund)
  obtain rfl := Option.some.inj hformula
  have hshown := Inputs.ofExecution?_of_shown [] (e := execution) rfl data
  obtain rfl := Option.some.inj (hinputs.symm.trans hshown)
  obtain rfl := Except.ok.inj (hvalue.symm.trans (evaluate_formula decimal?_paid))
  exact ⟨inputs', d, hinputs', hdecimals, heq⟩

end Engine

end Casework
