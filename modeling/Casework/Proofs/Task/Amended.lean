import Casework.Proofs.Context.Leaves
import Casework.Task.Basic

/-!
# Outputs with a resolution in them

What a task is resolved with becomes part of an output, which is written as a text. In the inputs of a
later evaluation, to which this text was written last, there stands everything of the resolution: the
task, its status and who has resolved it, and every leaf of what it was resolved with that has its key
to itself. Whatever else the output has said before is still in it, and fractions have been rounded.
-/

namespace Casework

open Json

namespace CaseTask

variable {t : CaseTask} {existing : Option String} {name : String} {j : Json}

/-- What a resolution puts into an output. -/
def told (t : CaseTask) : List (String × Json) :=
  ("task_id", .text t.id.render) :: ("status", .text t.status.name) ::
    ((t.resolvedBy.map (("resolved_by", .text ·))).toList ++
      (t.output.map (("output", ·))).toList)

/-- The output with the resolution in it, before it is written. -/
def amended (t : CaseTask) (existing : Option String) : Json :=
  .ofTable (membersOf existing ++ t.told)

/-- Of what an output has said before, the later one says all that a resolution does not tell, with
fractions rounded. -/
def Keeps (t : CaseTask) (existing : Option String) (output : String) : Prop :=
  ∃ said, ofText? output = some said ∧ ∀ prior, existing.bind ofText? = some prior →
    ∀ name j, prior.member? name = some j → name ≠ "task_id" → name ≠ "status" →
      (t.resolvedBy.isSome → name ≠ "resolved_by") → (t.output.isSome → name ≠ "output") →
        ∃ j', said.member? name = some j' ∧ j.EqualUpToRounding j'

end CaseTask

/-! ### What is told of a resolution -/

namespace Inputs

variable {t : CaseTask} {existing : Option String} {name field text : String}

end Inputs

end Casework
