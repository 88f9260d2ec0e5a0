import Casework.World

/-!
# What can keep a case from going on
-/

namespace Casework

inductive EngineError where
  | templateNotFound (id : String) (version : Nat)
  | noPublishedVersion (templateId : String)
  | recordNotFound (id : Id)
  | invalidTransition (current next : CaseStatus)
  | alreadyTerminal (status : CaseStatus)
  /-- The step to go on with is none of the template's. -/
  | danglingStep (id : String)
  /-- A step that is there for a failure has no executor. -/
  | noExecutor (stepId : String) (type : StepType)
  | tooManyVisits (limit : Nat)
  | invalidTemplate (error : TemplateError)
  | taskNotFound (id : Id)
  | taskAlreadyResolved (id : Id)
  /-- It is not this task that the case waits for. -/
  | taskNotAwaited (id : Id)
  | callLost (call : StoreCall)
deriving DecidableEq, Repr

def EngineError.message : EngineError → String
  | .templateNotFound id version =>
    "workflow template not found: " ++ id ++ " v" ++ toString version
  | .noPublishedVersion id => "no published version of workflow template " ++ id
  | .recordNotFound id => "case workflow not found: " ++ id.render
  | .invalidTransition current next =>
    "invalid status transition from " ++ current.name ++ " to " ++ next.name
  | .alreadyTerminal status => "case workflow is already " ++ status.name
  | .danglingStep id => "current step " ++ id ++ " does not exist in the template"
  | .noExecutor id type =>
    "failure successor " ++ id ++ " has no executor registered for step type " ++ type.name
  | .tooManyVisits limit =>
    "exceeded " ++ toString limit ++ " step visits in one run; successor links form a loop"
  | .invalidTemplate e => e.message
  | .taskNotFound id => "pending task not found: " ++ id.render
  | .taskAlreadyResolved id => "pending task " ++ id.render ++ " is already resolved"
  | .taskNotAwaited id => "case workflow is not paused on pending task " ++ id.render
  | .callLost call => "storage: " ++ call.name ++ ": connection reset"

end Casework
