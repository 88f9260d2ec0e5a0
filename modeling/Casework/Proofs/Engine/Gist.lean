import Casework.Case.Record

/-!
# The gist of a record

Two runs of a case draw different ids and read the clock at different times. What they can agree on
is the gist of the record: its status, the step to go on with, the error and, for each execution,
the step, the status and the texts. Of the texts the marks keep the error only. What a record is
given when the case is opened is its origin, which no run ever touches.
-/

namespace Casework

/-- No longer waiting or under way. -/
def ExecutionStatus.Finished (s : ExecutionStatus) : Prop := s ≠ .pending ∧ s ≠ .running

/-- An execution apart from its id and its times. -/
structure Execution.Gist where
  stepId : String
  stepName : String
  status : ExecutionStatus
  input : Option String
  output : Option String
  error : Option String
deriving DecidableEq, Repr

def Execution.gist (e : Execution) : Execution.Gist :=
  { stepId := e.stepId, stepName := e.stepName, status := e.status
    input := e.input, output := e.output, error := e.error }

/-- The step of an execution, how far it has come and what went wrong. -/
structure Execution.Mark where
  stepId : String
  status : ExecutionStatus
  error : Option String
deriving DecidableEq, Repr

def Execution.Gist.mark (e : Execution.Gist) : Execution.Mark := ⟨e.stepId, e.status, e.error⟩

def Execution.AllFinished (ms : List Execution.Mark) : Prop := ∀ m ∈ ms, m.status.Finished

/-- The execution is as it was, or was under way and has failed. -/
inductive Execution.Matures (e : Execution) : Execution → Prop
  | kept : e.Matures e
  | failed (h : e.status = .running) (message : String) (now : Time) : e.Matures (e.fail message now)

namespace CaseRecord

/-- How far a case has come, apart from ids and times. -/
structure Gist where
  status : CaseStatus
  currentStep : Option String
  error : Option String
  executions : List Execution.Gist
deriving DecidableEq, Repr

def gist (r : CaseRecord) : Gist :=
  { status := r.status, currentStep := r.currentStep, error := r.error
    executions := r.executions.map Execution.gist }

def Gist.marks (a : Gist) : List Execution.Mark := a.executions.map Execution.Gist.mark

/-- What a record is given when the case is opened. -/
structure Origin where
  id : Id
  caseId : String
  templateId : String
  templateVersion : Nat
  data : Dictionary String
  createdAt : Time
deriving DecidableEq, Repr

def origin (r : CaseRecord) : Origin :=
  { id := r.id, caseId := r.caseId, templateId := r.templateId
    templateVersion := r.templateVersion, data := r.data, createdAt := r.createdAt }

theorem id_eq_of_origin {r r' : CaseRecord} (h : r.origin = r'.origin) : r.id = r'.id :=
  congrArg Origin.id h

theorem data_eq_of_origin {r r' : CaseRecord} (h : r.origin = r'.origin) : r.data = r'.data :=
  congrArg Origin.data h

theorem templateId_eq_of_origin {r r' : CaseRecord} (h : r.origin = r'.origin) :
    r.templateId = r'.templateId :=
  congrArg Origin.templateId h

theorem templateVersion_eq_of_origin {r r' : CaseRecord} (h : r.origin = r'.origin) :
    r.templateVersion = r'.templateVersion :=
  congrArg Origin.templateVersion h

end CaseRecord

end Casework
