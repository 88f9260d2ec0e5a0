import Casework.Catalog.Directory
import Casework.Catalog.Install
import Casework.Command.Arguments
import Casework.Command.Report
import Casework.Decision.Evaluate
import Casework.Engine.Commands
import Casework.Executor.BuiltIn

/-!
# Executing commands

Each command works on a catalog that is read anew, or on none. A case that a command opens lives in
a store of its own, which ends with the command; what needs a case from before is refused.
-/

namespace Casework

inductive CommandError where
  | load (error : LoadError)
  | install (error : InstallError)
  | engine (error : EngineError)
  | formula (error : Formula.FormulaError)
  | notDecimal (variableName value : String)
  | noRuleSet (id : String)
  | malformedOutput
  | needsStore (command : String)
deriving DecidableEq, Repr

def CommandError.message : CommandError → String
  | .load e => e.message
  | .install e => "Failed to install catalog: " ++ e.message
  | .engine e => e.message
  | .formula e => e.message
  | .notDecimal name value =>
    "variable " ++ name ++ ": '" ++ value ++ "' is not a decimal (no decimal number)"
  | .noRuleSet id => "Rule set not found: " ++ id
  | .malformedOutput => "--output is not valid JSON: unexpected content"
  | .needsStore command =>
    "`" ++ command ++ "` needs a persistent store: build with --features database " ++
      "and set CASEFLOW_DATABASE_URL"

/-- What a command has written, and the error it has ended with. -/
structure CommandResult where
  output : String
  error : Option CommandError
deriving DecidableEq, Repr

namespace CommandResult

def ofExcept : Except CommandError String → CommandResult
  | .ok output => ⟨output, none⟩
  | .error e => ⟨"", some e⟩

end CommandResult

namespace Command

def line (s : String) : String := s ++ "\n"

/-- What a catalog holds, one item to a line. -/
def summary (folder : String) (c : Catalog) : String :=
  line ("Catalog: " ++ folder) ++
    String.join (c.templates.map fun t =>
      line ("  template  " ++ t.id ++ " v" ++ toString t.version ++
        " (" ++ toString t.steps.length ++ " steps)")) ++
    String.join (c.ruleSets.map fun s =>
      line ("  rule set  " ++ s.id ++ " (" ++ toString s.rules.length ++ " rules)")) ++
    String.join (c.formulas.map fun f => line ("  formula   " ++ f.id)) ++ line "OK"

/-- The values of variables, the last one bound to a name first. -/
def decimals (bound : List (String × Decimal)) :
    List (String × String) → Except CommandError (List (String × Decimal))
  | [] => .ok bound
  | (name, value) :: rest =>
    match Decimal.ofText? (String.ofList (Text.trim value.toList)) with
    | some d => decimals ((name, d) :: bound) rest
    | none => .error (.notDecimal name value)

def formulaValue (formula : String) (bindings : List (String × String)) :
    Except CommandError String := do
  let bound ← decimals [] bindings
  match Formula.evaluate formula (bound.lookup ·) with
  | .ok d => return line d.normalize.render
  | .error e => throw (.formula e)

def decision (c : Catalog) (ruleSetId : String) (inputs : List (String × String)) :
    Except CommandError String :=
  match c.ruleSet? ruleSetId with
  | some s => .ok (line (RuleSet.outcomeJson (s.decide? (inputs.reverse.lookup ·))).pretty)
  | none => .error (.noRuleSet ruleSetId)

def report (w : World Unit) (r : CaseRecord) : String :=
  line (CaseReport.ofStore w.store r).toJson.pretty

/-- Opens a case on the catalog and starts it. Where the start fails, the case is reported with the
error. -/
def runCase (c : Catalog) (maxVisits : Nat) (templateId : String) (version : Option Nat)
    (caseId : Option String) (data : List (String × String)) (w : World Unit) : CommandResult :=
  match (c.install : ExceptT InstallError (StateM (World Unit)) Unit) w with
  | (.error e, _) => ⟨"", some (.install e)⟩
  | (.ok (), w) =>
    let (fresh, w) := World.newId w
    let caseId := caseId.getD fresh.render
    match Engine.openCase caseId templateId version (Dictionary.ofList data) w with
    | (.error e, _) => ⟨"", some (.engine e)⟩
    | (.ok r, w) =>
      match (Engine.mk .builtIn ⟨maxVisits⟩).start ⟨r, w⟩ with
      | (.ok (), s) => ⟨report s.world s.record, none⟩
      | (.error e, s) => ⟨report s.world s.record, some (.engine e)⟩

/-- The result of a command that works on a catalog, for the catalog in a folder. -/
def onCatalog (folder : String) (loaded : Except LoadError Catalog) (maxVisits : Nat)
    (w : World Unit) : Command → CommandResult
  | .evaluateFormula formula bindings => .ofExcept (formulaValue formula bindings)
  | .completeTask _ _ (some output) _ =>
    if (Json.ofText? output).isNone then ⟨"", some .malformedOutput⟩
    else onStored "complete-task"
  | .completeTask _ _ none _ => onStored "complete-task"
  | .resume _ => onStored "resume"
  | .cancel _ _ => onStored "cancel"
  | .validate => withCatalog fun c => ⟨summary folder c, none⟩
  | .run templateId version caseId data =>
    withCatalog fun c => runCase c maxVisits templateId version caseId data w
  | .evaluateRules ruleSetId inputs => withCatalog fun c => .ofExcept (decision c ruleSetId inputs)
where
  withCatalog (f : Catalog → CommandResult) : CommandResult :=
    match loaded with
    | .ok c => f c
    | .error e => ⟨"", some (.load e)⟩
  /-- The catalog is read before the lack of a store is noticed. -/
  onStored (name : String) : CommandResult := withCatalog fun _ => ⟨"", some (.needsStore name)⟩

end Command

end Casework
