import Casework.Catalog.Basic
import Casework.Executor.Config
import Casework.Formula.Evaluate

/-!
# Consistent catalogs

In a consistent catalog nothing stands twice, every template is valid and every formula can be read,
and each decision table and each calculation names a rule set or a formula of the catalog.
-/

namespace Casework

inductive CatalogError where
  | duplicateTemplate (id : String) (version : Nat)
  | invalidTemplate (error : TemplateError)
  | duplicateRuleSet (id : String)
  | duplicateFormula (id : String)
  | unreadableFormula (id : String) (error : Formula.FormulaError)
  | unusableStep (templateId stepId : String) (error : ConfigError)
  | unknownRuleSet (templateId stepId ruleSetId : String)
  | unknownFormula (templateId stepId formulaId : String)
deriving DecidableEq, Repr

namespace CatalogError

def place (templateId stepId : String) : String :=
  "Template " ++ templateId ++ " step " ++ stepId ++ ": "

def message : CatalogError → String
  | .duplicateTemplate id version => "Duplicate template " ++ id ++ " v" ++ toString version
  | .invalidTemplate e => e.message
  | .duplicateRuleSet id => "Duplicate rule set " ++ id
  | .duplicateFormula id => "Duplicate formula " ++ id
  | .unreadableFormula id e => "Formula " ++ id ++ ": " ++ e.message
  | .unusableStep templateId stepId e => place templateId stepId ++ e.message
  | .unknownRuleSet templateId stepId id => place templateId stepId ++ "unknown rule set " ++ id
  | .unknownFormula templateId stepId id => place templateId stepId ++ "unknown formula " ++ id

end CatalogError

namespace Catalog

/-- Checks values one by one, each of them to be the first with its key. -/
def checkEach {α κ : Type} [DecidableEq κ] (key : α → κ) (duplicate : α → CatalogError)
    (check : α → Except CatalogError Unit) (seen : List κ) : List α → Except CatalogError Unit
  | [] => .ok ()
  | a :: as => do
    if key a ∈ seen then throw (duplicate a)
    check a
    checkEach key duplicate check (key a :: seen) as

def checkTemplate (t : Template) : Except CatalogError Unit :=
  t.validate.mapError .invalidTemplate

def checkFormula (f : Formula) : Except CatalogError Unit :=
  match Formula.variablesOf f.expression with
  | .ok _ => .ok ()
  | .error e => .error (.unreadableFormula f.id e)

/-- What the step names is in the catalog. -/
def checkStep (c : Catalog) (t : Template) (s : Step) : Except CatalogError Unit := do
  match s.type with
  | .decisionTable =>
    let config : DecisionConfig ← (StepConfig.decode s).mapError (.unusableStep t.id s.id)
    if (c.ruleSet? config.ruleSetId).isNone then
      throw (.unknownRuleSet t.id s.id config.ruleSetId)
  | .calculation =>
    let config : CalculationConfig ← (StepConfig.decode s).mapError (.unusableStep t.id s.id)
    if (c.formula? config.formulaId).isNone then
      throw (.unknownFormula t.id s.id config.formulaId)
  | .humanTask | .clientApproval | .documentGeneration => return

def validate (c : Catalog) : Except CatalogError Unit := do
  checkEach (fun t => (t.id, t.version)) (fun t => .duplicateTemplate t.id t.version)
    checkTemplate [] c.templates
  checkEach RuleSet.id (fun r => .duplicateRuleSet r.id) (fun _ => .ok ()) [] c.ruleSets
  checkEach Formula.id (fun f => .duplicateFormula f.id) checkFormula [] c.formulas
  c.templates.forM fun t => t.steps.forM (c.checkStep t)

end Catalog

end Casework
