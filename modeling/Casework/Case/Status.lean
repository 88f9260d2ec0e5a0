import Casework.Naming

/-!
# The life of a case

A case is started, may pause and run again any number of times, and ends completed, failed or
cancelled. Nothing leads out of an end.
-/

namespace Casework

inductive CaseStatus where
  | notStarted | running | paused | completed | failed | cancelled
deriving DecidableEq, Repr

instance : Named CaseStatus where
  noun := "workflow status"
  all := [.notStarted, .running, .paused, .completed, .failed, .cancelled]
  name
    | .notStarted => "not_started"
    | .running => "running"
    | .paused => "paused"
    | .completed => "completed"
    | .failed => "failed"
    | .cancelled => "cancelled"

namespace CaseStatus

def name (s : CaseStatus) : String := Named.name s

def isTerminal : CaseStatus → Bool
  | .completed | .failed | .cancelled => true
  | _ => false

/-- A case can end from any status that is no end, run unless it is running, and pause only while it
is running. -/
def canBecome (current next : CaseStatus) : Bool :=
  match next with
  | .completed | .failed | .cancelled => !current.isTerminal
  | .running => current == .notStarted || current == .paused
  | .paused => current == .running
  | .notStarted => false

end CaseStatus

end Casework
