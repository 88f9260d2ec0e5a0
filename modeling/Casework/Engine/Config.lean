import Casework.Document.Shape
import Casework.Json.Basic

/-!
# Settings of an engine
-/

namespace Casework

structure EngineConfig where
  /-- How many steps one run may enter. -/
  maxVisits : Nat
deriving DecidableEq, Repr

namespace EngineConfig

def default : EngineConfig := ⟨1000⟩

/-- What is looked at in settings that are read on their own. -/
def shape : Shape := .record (Shape.wholeFields ["max_step_visits"])

def ofDocument? (d : Document) : Option EngineConfig := do
  let fields ← d.fields? ["max_step_visits"]
  return ⟨← Document.defaulted? default.maxVisits (Document.nat? (twoTo 64 - 1)) "max_step_visits"
    fields⟩

def toJson (c : EngineConfig) : Json := .object [("max_step_visits", .int c.maxVisits)]

end EngineConfig

end Casework
