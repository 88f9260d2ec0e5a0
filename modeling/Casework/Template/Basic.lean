import Casework.Naming
import Casework.Time

/-!
# Templates

A template is a list of steps. Its order is that of the sort orders, steps with the same sort order
in the order in which they are declared. A step may name another one to go on with when it succeeds
or when it fails. `validate` finds step ids that stand twice and successors that are no step;
publishing a template that has neither stamps it once and for all.
-/

namespace Casework

inductive StepType where
  | decisionTable | calculation | humanTask | clientApproval | documentGeneration
deriving DecidableEq, Repr

instance : Named StepType where
  noun := "step type"
  all := [.decisionTable, .calculation, .humanTask, .clientApproval, .documentGeneration]
  name
    | .decisionTable => "decision_table"
    | .calculation => "calculation"
    | .humanTask => "human_task"
    | .clientApproval => "client_approval"
    | .documentGeneration => "document_generation"

def StepType.name (t : StepType) : String := Named.name t

structure Step where
  id : String
  name : String
  type : StepType
  sortOrder : Int
  /-- What the executor of the step makes of its configuration is its own affair. -/
  configuration : Option String
  required : Bool
  onSuccess : Option String
  onFailure : Option String
deriving DecidableEq, Repr

structure Template where
  id : String
  version : Nat
  name : String
  description : Option String
  steps : List Step
  publishedAt : Option Time
deriving DecidableEq, Repr

inductive TemplateFault where
  | duplicateStep (id : String)
  | unknownSuccessor (step target : String)
deriving DecidableEq, Repr

def TemplateFault.message : TemplateFault → String
  | .duplicateStep id => "duplicate step id " ++ id
  | .unknownSuccessor step target => "step " ++ step ++ " points to unknown step " ++ target

/-- What is wrong with which template. -/
structure TemplateError where
  templateId : String
  fault : TemplateFault
deriving DecidableEq, Repr

def TemplateError.message (e : TemplateError) : String :=
  "invalid template " ++ e.templateId ++ ": " ++ e.fault.message

/-- The steps that this one names to go on with. -/
def Step.successors (s : Step) : List String := s.onSuccess.toList ++ s.onFailure.toList

namespace Template

def step? (t : Template) (id : String) : Option Step := t.steps.find? fun s => s.id == id

def ordered (t : Template) : List Step := t.steps.mergeSort fun a b => a.sortOrder ≤ b.sortOrder

def isPublished (t : Template) : Bool := t.publishedAt.isSome

/-- The first id that an earlier step has, too. -/
def duplicate? (seen : List String) : List Step → Option String
  | [] => none
  | s :: ss => if s.id ∈ seen then some s.id else duplicate? (s.id :: seen) ss

/-- The first successor that is no step of the template, with the step that names it. -/
def strayLink? (t : Template) : Option (String × String) :=
  t.steps.findSome? fun s =>
    (s.successors.find? fun target => !t.steps.any (·.id == target)).map (s.id, ·)

def validate (t : Template) : Except TemplateError Unit :=
  match duplicate? [] t.steps with
  | some id => .error ⟨t.id, .duplicateStep id⟩
  | none =>
    match t.strayLink? with
    | some (step, target) => .error ⟨t.id, .unknownSuccessor step target⟩
    | none => .ok ()

/-- A template that is published already keeps its stamp. -/
def publish (t : Template) (now : Time) : Except TemplateError Template := do
  t.validate
  return { t with publishedAt := t.publishedAt.or (some now) }

end Template

end Casework
