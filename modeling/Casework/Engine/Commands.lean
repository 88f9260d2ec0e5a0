import Casework.Engine.Run

/-!
# What a caller can do with a case

A case is opened on a template, started, resumed as often as it pauses, and possibly cancelled. The
record is the caller's, or the one that the store has under an id.
-/

namespace Casework.Engine

variable {σ : Type}

/-- A new record, bound to a version of the template, by default the latest published one. -/
def openCase (caseId templateId : String) (version : Option Nat) (data : Dictionary String) :
    Attempt σ CaseRecord := do
  let version ← match version with
    | some version => pure version
    | none =>
      match ← Attempt.latestVersion? templateId with
      | some version => pure version
      | none => throw (.noPublishedVersion templateId)
  match ← Attempt.template? templateId version with
  | none => throw (.templateNotFound templateId version)
  | some t =>
    let now ← Attempt.sure World.now
    let id ← Attempt.sure World.newId
    let r := CaseRecord.new id caseId t data now
    Attempt.saveRecord r
    return r

/-- Runs a case from the first step. -/
def start (e : Engine σ) : Action σ Unit := do
  let status := (← Action.record).status
  if status.isTerminal then throw (.alreadyTerminal status)
  if status ≠ .notStarted then throw (.invalidTransition status .running)
  let t ← template
  match t.ordered with
  | [] => complete
  | first :: _ =>
    Action.update ({ · with currentStep := some first.id })
    Action.transition .running
    Action.save
    e.run t first.id

/-- The executions that were under way when the run was interrupted have failed. -/
def settleInterrupted : List Execution → Action σ (List Execution)
  | [] => return []
  | e :: es => do
    if e.status = .running then
      let now ← Action.sure World.now
      return e.fail "Interrupted before completion" now :: (← settleInterrupted es)
    else return e :: (← settleInterrupted es)

/-- Runs a case from the step to go on with. A case that is found running was interrupted. -/
def resume (e : Engine σ) : Action σ Unit := do
  let status := (← Action.record).status
  if status.isTerminal then throw (.alreadyTerminal status)
  if status = .notStarted then throw (.invalidTransition status .running)
  let t ← template
  match (← Action.record).currentStep with
  | none => complete
  | some id =>
    if (t.step? id).isNone then Action.failWith (.danglingStep id)
    let executions ← settleInterrupted (← Action.record).executions
    Action.update ({ · with executions })
    if status = .paused then Action.transition .running
    Action.save
    e.run t id

/-- Ends a case. A run of it that is under way stops at its next look into the store. -/
def cancel (reason : Option String) : Action σ Unit := do
  let status := (← Action.record).status
  if status.isTerminal then throw (.alreadyTerminal status)
  Action.transition .cancelled
  Action.update ({ · with error := some (reason.getD "Cancelled") })
  Action.save

def startById (e : Engine σ) (id : Id) : Attempt σ CaseRecord := do
  Attempt.withRecord (← Attempt.record id) e.start

def resumeById (e : Engine σ) (id : Id) : Attempt σ CaseRecord := do
  Attempt.withRecord (← Attempt.record id) e.resume

def cancelById (id : Id) (reason : Option String) : Attempt σ CaseRecord := do
  Attempt.withRecord (← Attempt.record id) (cancel reason)

/-- Resolves the task that a case waits for, and resumes the case. A task that is not waited for
stays as it is. -/
def completeTask (e : Engine σ) (taskId : Id) (resolution : Resolution) :
    Attempt σ CaseRecord := do
  let some task := (← get).store.task? taskId | throw (.taskNotFound taskId)
  if task.status.isTerminal then throw (.taskAlreadyResolved taskId)
  let r ← Attempt.record task.recordId
  if r.status.isTerminal then throw (.alreadyTerminal r.status)
  if r.status ≠ .paused ∨ r.executions.getLast?.map (·.id) ≠ some task.executionId then
    throw (.taskNotAwaited taskId)
  let task := task.resolve resolution (← Attempt.sure World.now)
  Attempt.sure (World.updateStore (·.saveTask task))
  let r := { r with
    executions := amend task r.executions }
  Attempt.saveRecord r
  Attempt.withRecord r e.resume
where
  /-- The first execution with the task's number gets the resolution into its output. -/
  amend (task : CaseTask) (executions : List Execution) : List Execution :=
    match executions.findIdx? fun e => e.id == task.executionId with
    | some place =>
      executions.modify place fun e => { e with output := some (task.amendedOutput e.output) }
    | none => executions

end Casework.Engine
