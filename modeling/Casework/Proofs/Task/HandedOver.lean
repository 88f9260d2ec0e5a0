import Casework.Proofs.Engine.Coherence
import Casework.Proofs.Engine.FirstCall
import Casework.Proofs.Task.Amended
import Casework.Proofs.Task.Calls
import Casework.Proofs.Task.Pending

/-!
# What a resolution tells the next step

Whoever completes a task resumes the case. If a step is started then, its inputs tell of the task: what
it was resolved with has become part of the output of the execution that the case has paused behind,
and nothing has been completed since.
-/

namespace Casework

variable {σ : Type}

namespace Engine

variable {e : Engine σ} {w : World σ} {r : CaseRecord} {x : Execution} {task : CaseTask}

end Engine

/-! ### The second signature is told of the first one -/

namespace SignOff

theorem ids_injective : Function.Injective worldOpened.ids := by
  intro m n h
  cases h
  rfl

end SignOff

namespace Engine

end Engine

end Casework
