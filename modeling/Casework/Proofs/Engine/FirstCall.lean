import Casework.Proofs.Engine.Handover
import Casework.Proofs.Engine.Limit
import Casework.Proofs.Engine.Log
import Casework.Proofs.Engine.Snapshot

/-!
# The first call to an executor

Until it calls an executor for the first time, a run adds nothing to a case but executions that are
skipped. So the first executor that it calls is shown the context that the case was resumed with, and
this call stays the first one in the log, whatever the run comes to. Calls to the store may be lost on
the way, and executors may do what they like.
-/

namespace Casework

variable {σ α β : Type}

/-! ### Before and behind the first call -/

/-- What has been completed. -/
def Execution.completed (es : List Execution) : List Execution :=
  es.filter (·.status == .completed)

/-- The case is this one, in which these executions have been completed and no others, and no executor
has been called yet. -/
structure Session.Uncalled (origin : CaseRecord.Origin) (es : List Execution)
    (s : Session (Logged σ)) : Prop where
  log : s.log = []
  origin : s.record.origin = origin
  completed : Execution.completed s.record.executions = Execution.completed es

theorem Execution.completed_append_of_ne {x : Execution} (hx : x.status ≠ .completed)
    (es : List Execution) : completed (es ++ [x]) = completed es := by
  rw [completed, List.filter_append, List.filter_cons_of_neg (by simpa using hx), List.filter_nil,
    List.append_nil]
  rfl

namespace Session

variable {s : Session (Logged σ)} {P : ExecutorCall → Prop}

/-- What has not been completed may be added. -/
theorem Uncalled.extended {origin : CaseRecord.Origin} {es : List Execution}
    (h : s.Uncalled origin es) {x : Execution} (hx : x.status ≠ .completed) :
    (s.drawn.ticked.extended x).Uncalled origin es :=
  ⟨h.log, h.origin, (Execution.completed_append_of_ne hx _).trans h.completed⟩

/-- What was under way may have failed. -/
theorem Uncalled.matured {origin : CaseRecord.Origin} {es executions : List Execution}
    (h : s.Uncalled origin es) (hmatures : s.record.executions.Forall₂ Execution.Matures executions)
    (readings : Nat) :
    Uncalled origin es ⟨{ s.record with executions }, { s.world with readings }⟩ :=
  ⟨h.log, h.origin, (Execution.completed_of_matures hmatures).trans h.completed⟩

end Session

namespace Engine

open Work Casework.Action

variable {e : Engine σ} {t : Template} {step : Step} {s : Session (Logged σ)}
  {origin : CaseRecord.Origin} {es : List Execution} {P : ExecutorCall → Prop}

/-- The action calls no executor, and it leaves the case and its executions as they are. -/
structure Plain (act : Action (Logged σ) α) : Prop where
  leaves : Leaves act
  uncalled : ∀ s, s.log = [] → (act s).2.log = []

theorem Plain.behind {act : Action (Logged σ) α} (h : Plain act) (hs : s.Uncalled origin es) :
    (act s).2.Uncalled origin es := by
  have hhas : (act s).2.Has s.record.origin s.record.executions := h.leaves.has ⟨rfl, rfl⟩
  exact ⟨h.uncalled s hs.log, hhas.origin.trans hs.origin, hhas.executions ▸ hs.completed⟩

end Engine

end Casework
