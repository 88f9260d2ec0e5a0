import Casework.Engine.Config
import Casework.Engine.Error
import Casework.Executor.Basic

/-!
# Sessions

An engine works on one case record at a time, which the caller keeps even when the work ends in an
error. An attempt is work on the world alone, an action is work on the record, too.
-/

namespace Casework

structure Engine (σ : Type) where
  registry : Registry σ
  config : EngineConfig

structure Session (σ : Type) where
  record : CaseRecord
  world : World σ

abbrev Attempt (σ α : Type) := ExceptT EngineError (StateM (World σ)) α

abbrev Action (σ α : Type) := ExceptT EngineError (StateM (Session σ)) α

variable {σ α : Type}

namespace Attempt

/-- Work that cannot fail. -/
def sure (work : StateM (World σ) α) : Attempt σ α := fun w => (.ok (work w).1, (work w).2)

/-- What the store says to a call that reaches it. -/
def ask (call : StoreCall) (answer : Store → α) : Attempt σ α := fun w =>
  match World.reaches call w with
  | (true, w) => (.ok (answer w.store), w)
  | (false, w) => (.error (.callLost call), w)

def status? (id : Id) : Attempt σ (Option CaseStatus) := ask .loadStatus (·.status? id)

def record? (id : Id) : Attempt σ (Option CaseRecord) := ask .loadRecord (·.record? id)

def template? (id : String) (version : Nat) : Attempt σ (Option Template) :=
  ask .loadTemplate (·.template? id version)

def latestVersion? (templateId : String) : Attempt σ (Option Nat) :=
  ask .latestVersion (·.latestVersion? templateId)

def saveRecord (r : CaseRecord) : Attempt σ Unit := do
  ask .saveRecord fun _ => ()
  sure (World.updateStore (·.saveRecord r))

def record (id : Id) : Attempt σ CaseRecord := do
  match ← record? id with
  | some r => return r
  | none => throw (.recordNotFound id)

/-- What comes of an action on a record. -/
def withRecord (r : CaseRecord) (act : Action σ Unit) : Attempt σ CaseRecord := fun w =>
  match act ⟨r, w⟩ with
  | (.ok (), s) => (.ok s.record, s.world)
  | (.error e, s) => (.error e, s.world)

end Attempt

namespace Action

/-- An attempt leaves the record alone. -/
def ofAttempt (attempt : Attempt σ α) : Action σ α := fun s =>
  let (a, w) := attempt s.world
  (a, { s with world := w })

/-- Work on the world that cannot fail. -/
def sure (work : StateM (World σ) α) : Action σ α := ofAttempt (Attempt.sure work)

def record : Action σ CaseRecord := fun s => (.ok s.record, s)

def update (f : CaseRecord → CaseRecord) : Action σ Unit := fun s =>
  (.ok (), { s with record := f s.record })

def transition (next : CaseStatus) : Action σ Unit := do
  let current := (← record).status
  if current.canBecome next then
    let now ← sure World.now
    update (·.become next now)
  else throw (.invalidTransition current next)

def save : Action σ Unit := do
  let now ← sure World.now
  update ({ · with updatedAt := now })
  ofAttempt (Attempt.saveRecord (← record))

/-- Ends the case as failed. -/
def fail (message : String) : Action σ Unit := do
  update ({ · with error := some message })
  transition .failed
  save

/-- Ends the case as failed because of an error, and passes the error on. -/
def failWith (e : EngineError) : Action σ α := do
  fail e.message
  throw e

/-- Whether the case is cancelled in the store, whose record then takes the place of this one. -/
def adoptCancellation : Action σ Bool := do
  let id := (← record).id
  if (← ofAttempt (Attempt.status? id)) = some .cancelled then
    if let some stored ← ofAttempt (Attempt.record? id) then
      update fun _ => stored
    return true
  else return false

end Action

end Casework
