import Casework.Proofs.Catalog.Install
import Casework.Proofs.Context.RoundTrip
import Casework.Proofs.Engine.Drive
import Casework.Proofs.Executor.BuiltIn
import Casework.Proofs.Executor.Config
import Casework.Proofs.Formula.Evaluation
import Mathlib.Data.List.Basic

/-!
# What a valid catalog keeps from going wrong

Cases on the templates of a valid catalog find the rule sets and formulas that their steps name, and
their inputs can be read. Decision tables then never fail, and calculations fail for the values that
they work with only.
-/

namespace Casework

variable {σ : Type}

/-! ### Single executions -/

namespace Execution.Mark

/-- A decision table has completed. A calculation may have failed, but for an error of its values. -/
def Blameless (s : Step) (m : Mark) : Prop :=
  (s.type = .decisionTable → m.status = .completed) ∧
    (s.type = .calculation → m.status = .failed →
      ∃ config : CalculationConfig, StepConfig.decode s = .ok config ∧
        ∃ err : Formula.FormulaError, err.OfValues ∧
          m.error = some ("Formula " ++ config.formulaId ++ ": " ++ err.message))

end Execution.Mark

namespace CaseRecord.Gist

/-- Every execution is that of a step of the template and is not to blame on the catalog. -/
def Blameless (t : Template) (a : Gist) : Prop :=
  ∀ m ∈ a.marks, ∃ s, t.step? m.stepId = some s ∧ m.Blameless s

end CaseRecord.Gist

namespace Executor

variable {c : Catalog} {w : World σ} {t : Template} {s : Step} {execution : Execution}
  {context : Context}

theorem decisionReply_succeeds (record : CaseRecord) (hprovided : c.Provided w.surroundings)
    (htype : s.type = .decisionTable) (hstep : c.checkStep t s = .ok ())
    (hinput : execution.input = some context.render) :
    ∃ output, decisionReply w.store s execution record = .result (.succeeded output) := by
  obtain ⟨config, hconfig, hknown⟩ := Catalog.decisionConfig_of_checkStep htype hstep
  obtain ⟨ruleSet, hruleSet⟩ := Option.isSome_iff_exists.1 (hprovided.ruleSets hknown)
  have hfound : w.store.ruleSet? config.ruleSetId = some ruleSet := hruleSet
  rw [decisionReply, hconfig]
  simp only [hfound, Inputs.ofExecution?_of_render hinput]
  exact ⟨_, rfl⟩

theorem calculationReply_succeeds_or_fails (record : CaseRecord) (hc : c.Checked)
    (hprovided : c.Provided w.surroundings)
    (htype : s.type = .calculation) (hstep : c.checkStep t s = .ok ())
    (hinput : execution.input = some context.render) :
    (∃ output, calculationReply w.store s execution record = .result (.succeeded output)) ∨
      ∃ config : CalculationConfig, StepConfig.decode s = .ok config ∧
        ∃ err : Formula.FormulaError, err.OfValues ∧
          calculationReply w.store s execution record =
            .result (.failed ("Formula " ++ config.formulaId ++ ": " ++ err.message)) := by
  obtain ⟨config, hconfig, hknown⟩ := Catalog.calculationConfig_of_checkStep htype hstep
  obtain ⟨formula, hformula⟩ := Option.isSome_iff_exists.1 (hprovided.formulas hknown)
  obtain ⟨names, hnames⟩ := hc.formulas formula (hprovided.ofCatalog hformula)
  have hid : formula.id = config.formulaId := Register.key_of_find? hformula
  have hfound : w.store.formula? config.formulaId = some formula := hformula
  rw [calculationReply, hconfig]
  simp only [hfound, Inputs.ofExecution?_of_render hinput]
  cases hvalue : Formula.evaluate formula.expression
      (Inputs.build record.data (.ofList context.entries)).decimal? with
  | ok value => exact .inl ⟨_, rfl⟩
  | error err =>
    refine .inr ⟨config, rfl, err, Formula.evaluate_error hnames hvalue, ?_⟩
    rw [← hid]

end Executor

namespace Engine

variable {e : Engine σ} {c : Catalog} {t t' : Template} {step : Step} {s : Session σ}

theorem encounter_of_executor {x : Executor σ} (h : e.registry.executor? step.type = some x) :
    e.encounter step s = .outcome s.input (x step ((s.directed (some step.id)).execution step)
      ((s.directed (some step.id)).begun step).record
      ((s.directed (some step.id)).begun step).world).1.outcome := by
  rw [encounter, called, h]
  rfl

/-- What a step of the catalog meets is not to blame on the catalog. -/
theorem encounter_blameless (he : e.registry = .builtIn) (hc : c.Checked)
    (hprovided : c.Provided s.world.surroundings) (hstep : c.checkStep t step = .ok ()) :
    ((e.encounter step s).execution step).mark.Blameless step := by
  have hinput : ((s.directed (some step.id)).execution step).input =
      some (Context.ofExecutions s.record.executions).render := rfl
  have hbegun : c.Provided ((s.directed (some step.id)).begun step).world.surroundings :=
    hprovided
  refine ⟨?_, ?_⟩
  · intro htype
    have hexecutor : e.registry.executor? step.type = some Executor.decisionTable := by
      rw [he, htype]
      rfl
    obtain ⟨output, hreply⟩ :=
      Executor.decisionReply_succeeds _ hbegun htype hstep hinput
    rw [encounter_of_executor hexecutor, Executor.decisionTable_apply, hreply]
    rfl
  · intro htype hfailed
    have hexecutor : e.registry.executor? step.type = some Executor.calculation := by
      rw [he, htype]
      rfl
    rw [encounter_of_executor hexecutor, Executor.calculation_apply] at hfailed ⊢
    rcases Executor.calculationReply_succeeds_or_fails _ hc hbegun htype hstep hinput with
      ⟨output, hreply⟩ | ⟨config, hconfig, err, hvalues, hreply⟩
    · rw [hreply] at hfailed
      cases hfailed
    · refine ⟨config, hconfig, err, hvalues, ?_⟩
      rw [hreply]
      rfl

/-- The built-in executors add tasks and change nothing else around the case. -/
theorem aside_worldBehind (he : e.registry = .builtIn) (step : Step) (s : Session σ) :
    s.world.surroundings.Aside (e.worldBehind step s).surroundings := by
  rw [worldBehind, called, he]
  cases step.type with
  | decisionTable =>
    refine ⟨s.world.store.tasks, s.world.memory, ?_⟩
    show (Executor.decisionTable _ _ _ _).2.surroundings = _
    rw [Executor.decisionTable_apply]
    rfl
  | calculation =>
    refine ⟨s.world.store.tasks, s.world.memory, ?_⟩
    show (Executor.calculation _ _ _ _).2.surroundings = _
    rw [Executor.calculation_apply]
    rfl
  | humanTask => exact Executor.pendingTask_aside ..
  | clientApproval => exact Executor.pendingTask_aside ..
  | documentGeneration => exact ⟨s.world.store.tasks, s.world.memory, rfl⟩

theorem blameless_invariant (he : e.registry = .builtIn) (hc : c.Checked) (ht : c.Stamps t) :
    Invariant e t c.Provided (fun _ _ a => a.Blameless t) (·.Blameless t) where
  discreet := he ▸ Registry.builtIn_discreet
  surroundings step s hprovided := hprovided.aside (aside_worldBehind he step s)
  aside haside hprovided := hprovided.aside haside
  visit {step _ s} hstep _ hprovided hway := by
    refine .of_forall ?_
    intro m hm
    rcases CaseRecord.Gist.mem_marks_of_visit hm with hm | rfl
    · exact hway m hm
    · obtain ⟨t', hcheck⟩ := ht.checkStep hc hstep
      refine ⟨step, ?_, encounter_blameless he hc hprovided hcheck⟩
      rw [Encounter.mark_stepId]
      exact Template.step?_of_mem (ht.validate hc) hstep
  complete h := h
  fail _ h := h
  opened _ hmarks := by
    intro m hm
    rw [hmarks] at hm
    cases hm
  start _ _ h := h
  startEmpty _ _ h := h
  resume _ h := h
  amend _ _ hmarks h := by
    intro m hm
    rw [hmarks] at hm
    exact h m hm

end Engine

/-! ### A rebate that is spread over some months -/

namespace Rebate

def tier : Step where
  id := "tier"
  name := "Tier"
  type := .decisionTable
  sortOrder := 1
  configuration := some (StepConfig.encode (⟨"tier"⟩ : DecisionConfig))
  required := true
  onSuccess := none
  onFailure := none

def amount : Step where
  id := "amount"
  name := "Amount"
  type := .calculation
  sortOrder := 2
  configuration := some (StepConfig.encode (⟨"rebate"⟩ : CalculationConfig))
  required := true
  onSuccess := none
  onFailure := none

def formula : Formula := .ofExpression "rebate" "x/n"

def catalog : Catalog where
  templates := [⟨"rebate", 1, "Rebate", none, [tier, amount], none⟩]
  ruleSets := [⟨"tier", "Tier", none, []⟩]
  formulas := [formula]

theorem variablesOf_formula : Formula.variablesOf "x/n" = .ok ["x", "n"] := by
  have htokens : Formula.tokenize "x/n" =
      .ok [⟨.name "x", 0⟩, ⟨.symbol .slash, 1⟩, ⟨.name "n", 2⟩] := by decide +kernel
  have hbound : Formula.bindVariables (fun _ => some .zero)
      [⟨.name "x", 0⟩, ⟨.symbol .slash, 1⟩, ⟨.name "n", 2⟩] =
      .ok [⟨.number .zero, 0⟩, ⟨.symbol .slash, 1⟩, ⟨.number .zero, 2⟩] := rfl
  have hparse : ∃ e, Formula.parse
      [⟨.number .zero, 0⟩, ⟨.symbol .slash, 1⟩, ⟨.number .zero, 2⟩] = .ok e :=
    ⟨_, Formula.parse_eq_ok_iff_derives.2 (.sumOfProduct (.product (.inr rfl)
      (.productOfSigned (.signedOfOperand (.number .zero))) (.signedOfOperand (.number .zero))))⟩
  obtain ⟨e, he⟩ := hparse
  rw [Formula.variablesOf, htokens]
  exact bind_eq_ok.2 ⟨_, rfl, bind_eq_ok.2 ⟨_, hbound, bind_eq_ok.2 ⟨e, he, rfl⟩⟩⟩

theorem validate_catalog : catalog.validate = .ok () := by
  have hformula : Catalog.checkFormula formula = .ok () := by
    have hexpression : formula.expression = "x/n" := rfl
    rw [Catalog.checkFormula, hexpression, variablesOf_formula]
  have htier : ∀ t, catalog.checkStep t tier = .ok () := by
    intro t
    show ((StepConfig.decode tier : Except ConfigError DecisionConfig).mapError _ >>= _) = _
    rw [StepConfig.decode_decision rfl]
    rfl
  have hamount : ∀ t, catalog.checkStep t amount = .ok () := by
    intro t
    show ((StepConfig.decode amount : Except ConfigError CalculationConfig).mapError _ >>= _) = _
    rw [StepConfig.decode_calculation rfl]
    rfl
  have hformulas : Catalog.checkEach Formula.id (fun f => .duplicateFormula f.id)
      Catalog.checkFormula [] catalog.formulas = .ok () := by
    show (Catalog.checkFormula formula >>= _) = _
    rw [hformula]
    rfl
  have hsteps : (catalog.templates.forM fun t => t.steps.forM (catalog.checkStep t)) = .ok () := by
    refine forM_eq_ok.2 fun t ht => forM_eq_ok.2 fun s hs => ?_
    obtain rfl := List.mem_singleton.1 ht
    rcases List.mem_pair.1 hs with rfl | rfl
    · exact htier _
    · exact hamount _
  rw [Catalog.validate, hformulas, hsteps]
  rfl

def engine : Engine Unit := ⟨.builtIn, .default⟩

def world : World Unit where
  store := .empty
  clock n := ⟨n⟩
  readings := 0
  ids n := ⟨n⟩
  drawn := 0
  outage := none
  memory := ()

def installed : World Unit := (catalog.install world).2

def opened : CaseRecord := .new ⟨0⟩ "case" catalog.templates[0] .empty ⟨1⟩

def worldOpened : World Unit :=
  { installed with store := installed.store.saveRecord opened, readings := 2, drawn := 1 }

end Rebate

/-! ### Cases that are driven -/

namespace Engine

variable {e : Engine σ} {c : Catalog}

/-- Whatever is done with a case on a template of an installed valid catalog, nothing that goes wrong
is to blame on the catalog. -/
theorem blameless_of_drives (he : e.registry = .builtIn) (hvalid : c.validate = .ok ())
    {w w₁ w₂ w₃ : World σ} (hempty : w.store = .empty) (hcalm : w.outage = none)
    (haside : (c.install w).2.surroundings.Aside w₁.surroundings) {caseId templateId : String}
    {version : Option Nat} {data : Dictionary String} {r : CaseRecord}
    (hopen : openCase caseId templateId version data w₁ = (.ok r, w₂))
    (hdrives : e.Drives r.id w₂ w₃) :
    (c.install w).1 = .ok () ∧ ∃ r' t, w₃.store.record? r.id = some r' ∧
      w₃.store.template? r'.templateId r'.templateVersion = some t ∧ r'.gist.Blameless t := by
  have hc := Catalog.checked_of_validate hvalid
  obtain ⟨w₀, hinstall, hcalm₀, hprovided, hstamps⟩ := Catalog.install_apply hc hempty hcalm
  rw [hinstall] at haside ⊢
  obtain ⟨t, hfresh, hsurroundings⟩ := openCase_fresh (haside.outage.trans hcalm₀) hopen
  have hstored : w₀.store.templates.find? (r.templateId, r.templateVersion) = some t := by
    have htemplates : w₂.store.templates = w₁.store.templates :=
      congrArg Surroundings.templates hsurroundings
    rw [← haside.templates, ← htemplates]
    exact hfresh.template
  have ht : c.Stamps t := hstamps hstored
  have hprovided₂ : c.Provided w₂.surroundings := by
    rw [hsurroundings]
    exact hprovided.aside haside
  obtain ⟨r', hr', hkept⟩ :=
    (blameless_invariant he hc ht).holds_of_fresh (ht.validate hc) hfresh hprovided₂ hdrives
  exact ⟨rfl, r', t, hr', hkept.resting.bound.1, hkept.gist⟩

open Rebate in
theorem blameless_of_drives_rebate : (catalog.install world).1 = .ok () ∧ ∃ r' t,
    (engine.startById opened.id worldOpened).2.store.record? opened.id = some r' ∧
      (engine.startById opened.id worldOpened).2.store.template? r'.templateId r'.templateVersion =
        some t ∧ r'.gist.Blameless t :=
  blameless_of_drives rfl validate_catalog (w := world) rfl rfl ⟨_, _, rfl⟩
    (rfl : openCase "case" "rebate" none .empty installed = (.ok opened, worldOpened)) (.start .done)

end Engine

end Casework
