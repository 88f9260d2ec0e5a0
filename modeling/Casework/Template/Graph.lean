import Casework.Template.Basic

/-!
# The steps of a template as a graph

The nodes are the steps in their order; their ids are taken to be distinct. From a step one goes on
to the step that it names for the case at hand, or else to the next one in order.
-/

namespace Casework

structure StepGraph where
  /-- The steps in their order. -/
  order : List Step

namespace StepGraph

def ofTemplate (t : Template) : StepGraph := ⟨t.ordered⟩

/-- The place of a step. -/
def position? (g : StepGraph) (id : String) : Option Nat := g.order.findIdx? fun s => s.id == id

def step? (g : StepGraph) (id : String) : Option Step := (g.position? id).bind (g.order[·]?)

/-- The step behind this one, none behind the last. -/
def nextInOrder (g : StepGraph) (s : Step) : Option String := do
  return (← g.order[(← g.position? s.id) + 1]?).id

def afterSuccess (g : StepGraph) (s : Step) : Option String := s.onSuccess.or (g.nextInOrder s)

end StepGraph

end Casework
