import Casework.Proofs.Task.Pending

/-!
# What the work on a case leaves alone

With the built-in executors, whatever is done with a case stays with it: the records of other cases,
the templates and the tasks that were there are as they were, and a task that is new belongs to an
execution that has just begun. As long as the ids that are drawn have not been used, no two executions
share a task.
-/

namespace Casework

variable {σ : Type}

namespace Store

theorem task?_saveTask (s : Store) (task : CaseTask) (id : Id) :
    (s.saveTask task).task? id = if task.id = id then some task else s.task? id :=
  Register.find?_insert s.tasks task id

theorem task?_saveTask_self (s : Store) (task : CaseTask) :
    (s.saveTask task).task? task.id = some task :=
  (task?_saveTask s task task.id).trans (if_pos rfl)

theorem id_of_task? {s : Store} {id : Id} {task : CaseTask} (h : s.task? id = some task) :
    task.id = id :=
  Register.key_of_find? h

end Store

namespace World

/-- No task in the store has to do with an id that is still to be drawn. -/
structure Fresh (w : World σ) : Prop where
  distinct : Function.Injective w.ids
  tasks : ∀ {taskId task}, w.store.task? taskId = some task → ∀ n, w.drawn ≤ n →
    w.ids n ≠ taskId ∧ w.ids n ≠ task.executionId

/-- No two tasks in the store belong to one execution. -/
def TasksApart (w : World σ) : Prop :=
  ∀ ⦃taskId taskId' task task'⦄, w.store.task? taskId = some task →
    w.store.task? taskId' = some task' → task.executionId = task'.executionId → taskId = taskId'

/-- Whatever task the later world has, the earlier one has it for the same execution. -/
def TasksFrom (w w' : World σ) : Prop :=
  ∀ ⦃taskId task'⦄, w'.store.task? taskId = some task' →
    ∃ task, w.store.task? taskId = some task ∧ task'.executionId = task.executionId

/-- In the later world there has been work on the case and on no other. -/
structure Beside (id : Id) (w w' : World σ) : Prop where
  ids : w'.ids = w.ids
  drawn : w.drawn ≤ w'.drawn
  calm : w'.outage = none
  templates : w'.store.templates = w.store.templates
  others : ∀ {id'}, id' ≠ id → w'.store.record? id' = w.store.record? id'
  kept : ∀ {taskId task}, w.store.task? taskId = some task → w'.store.task? taskId = some task
  fresh : w'.Fresh
  apart : w.TasksApart → w'.TasksApart

theorem TasksFrom.of_eq {w w' : World σ} (h : w'.store.tasks = w.store.tasks) : w.TasksFrom w' := by
  intro taskId task htask
  rw [Store.task?, h] at htask
  exact ⟨task, htask, rfl⟩

theorem Fresh.of_tasks {w w' : World σ} (h : w.Fresh) (hids : w'.ids = w.ids)
    (hdrawn : w.drawn ≤ w'.drawn) (htasks : w.TasksFrom w') : w'.Fresh where
  distinct := hids ▸ h.distinct
  tasks htask' n hn := by
    obtain ⟨task, htask, hexecution⟩ := htasks htask'
    rw [hids, hexecution]
    exact h.tasks htask n (Nat.le_trans hdrawn hn)

theorem TasksApart.of_tasks {w w' : World σ} (h : w.TasksApart) (htasks : w.TasksFrom w') :
    w'.TasksApart := by
  intro taskId taskId' task task' htask htask' hsame
  obtain ⟨_, hfrom, hexecution⟩ := htasks htask
  obtain ⟨_, hfrom', hexecution'⟩ := htasks htask'
  exact h hfrom hfrom' (hexecution.symm.trans (hsame.trans hexecution'))

section Leaving

variable {w : World σ} {step : Step} {execution : Execution} {r : CaseRecord} {kind : TaskKind}
  {task : CaseTask}

theorem task?_leaving (w : World σ) (task : CaseTask) (id : Id) :
    (Executor.leaving w task).store.task? id =
      if task.id = id then some task else w.store.task? id :=
  Store.task?_saveTask w.store task id

/-- An id that has been drawn for an execution is not drawn for its task again. -/
theorem Fresh.leaving (h : w.Fresh) (hleaves : Executor.Leaves step execution r w kind task)
    (hdrawn : ∃ n < w.drawn, execution.id = w.ids n) : (Executor.leaving w task).Fresh := by
  refine ⟨h.distinct, fun {taskId _} htask n hn => ?_⟩
  have hlater : w.drawn < n := hn
  rw [task?_leaving] at htask
  split at htask
  · next hid =>
    obtain rfl := Option.some.inj htask
    obtain ⟨m, hm, hexecution⟩ := hdrawn
    rw [← hid, hleaves.executionId, hexecution, hleaves.id]
    exact ⟨fun heq => absurd (h.distinct heq) (by omega),
      fun heq => absurd (h.distinct heq) (by omega)⟩
  · exact h.tasks htask n (Nat.le_of_lt hlater)

theorem TasksApart.leaving (h : w.TasksApart)
    (hleaves : Executor.Leaves step execution r w kind task)
    (hunused : ∀ {taskId task}, w.store.task? taskId = some task →
      task.executionId ≠ execution.id) : (Executor.leaving w task).TasksApart := by
  intro taskId taskId' task₁ task₂ htask₁ htask₂ hsame
  rw [task?_leaving] at htask₁ htask₂
  split at htask₁ <;> split at htask₂
  · next hid hid' => exact hid.symm.trans hid'
  · obtain rfl := Option.some.inj htask₁
    exact absurd (hsame.symm.trans hleaves.executionId) (hunused htask₂)
  · obtain rfl := Option.some.inj htask₂
    exact absurd (hsame.trans hleaves.executionId) (hunused htask₁)
  · exact h htask₁ htask₂ hsame

end Leaving

namespace Beside

variable {id : Id} {w w' w'' : World σ}

theorem refl (id : Id) (hcalm : w.outage = none) (hfresh : w.Fresh) : w.Beside id w :=
  ⟨rfl, Nat.le_refl _, hcalm, rfl, fun _ => rfl, fun h => h, hfresh, fun h => h⟩

/-- Work that leaves the tasks alone. -/
theorem of_tasks (h : w.Beside id w') (hids : w''.ids = w'.ids) (hdrawn : w'.drawn ≤ w''.drawn)
    (hcalm : w''.outage = none) (htemplates : w''.store.templates = w'.store.templates)
    (htasks : w''.store.tasks = w'.store.tasks)
    (hothers : ∀ {id'}, id' ≠ id → w''.store.record? id' = w'.store.record? id') :
    w.Beside id w'' where
  ids := hids.trans h.ids
  drawn := Nat.le_trans h.drawn hdrawn
  calm := hcalm
  templates := htemplates.trans h.templates
  others hid := (hothers hid).trans (h.others hid)
  kept htask := by
    rw [Store.task?, htasks]
    exact h.kept htask
  fresh := h.fresh.of_tasks hids hdrawn (.of_eq htasks)
  apart hapart := TasksApart.of_tasks (h.apart hapart) (.of_eq htasks)

/-- An execution with an id that is not older than those of the tasks leaves a task behind. -/
theorem leaving (h : w.Beside id w') {step : Step} {execution : Execution} {r : CaseRecord}
    {kind : TaskKind} {task : CaseTask} (hleaves : Executor.Leaves step execution r w' kind task)
    (hdrawn : ∃ n < w'.drawn, execution.id = w'.ids n)
    (hunused : ∀ {taskId task}, w'.store.task? taskId = some task →
      task.executionId ≠ execution.id) : w.Beside id (Executor.leaving w' task) where
  ids := h.ids
  drawn := Nat.le_succ_of_le h.drawn
  calm := h.calm
  templates := h.templates
  others hid := h.others hid
  kept {taskId _} htask := by
    have hold := h.kept htask
    have hnew := (h.fresh.tasks hold w'.drawn (Nat.le_refl _)).1
    rw [← hleaves.id] at hnew
    rw [task?_leaving, if_neg hnew]
    exact hold
  fresh := h.fresh.leaving hleaves hdrawn
  apart hapart := (h.apart hapart).leaving hleaves hunused

end Beside

end World

/-- The session of a case, with nothing but work on it since an earlier world. -/
structure Session.Beside (id : Id) (w : World σ) (s : Session σ) : Prop
    extends w.Beside id s.world where
  id : s.record.id = id

namespace Engine

variable {e : Engine σ} {id : Id} {w : World σ}

theorem upkeep_beside (he : e.registry = .builtIn) :
    Upkeep e (fun _ => True) (Session.Beside id w) where
  ticked h := ⟨h.of_tasks rfl (Nat.le_refl _) h.calm rfl rfl fun _ => rfl, h.id⟩
  asked h hcalm := ⟨h.of_tasks rfl (Nat.le_refl _) (hcalm h.calm) rfl rfl fun _ => rfl, h.id⟩
  found _ _ := trivial
  turned h horigin _ _ := ⟨h.toBeside, (CaseRecord.id_eq_of_origin horigin).trans h.id⟩
  directed h _ _ := ⟨h.toBeside, h.id⟩
  saved {s} h := by
    refine ⟨h.of_tasks rfl (Nat.le_refl _) h.calm rfl rfl fun hid => ?_, h.id⟩
    rw [Store.record?_saveRecord, if_neg (h.id.trans_ne hid.symm)]
  adopted h hr := ⟨h.toBeside, (Register.key_of_find? hr).trans h.id⟩
  extended h _ _ := ⟨h.of_tasks rfl (Nat.le_succ _) h.calm rfl rfl fun _ => rfl, h.id⟩
  matured h _ := ⟨h.toBeside, h.id⟩
  called {s step x outage} h := by
    intro begun h' hx
    rw [he] at hx
    rcases Registry.builtIn_leavesAtMost hx step (s.execution step) begun.record begun.world with
      ⟨-, hsame⟩ | ⟨kind, -, task, hleaves, hreply⟩
    · rw [hsame]
      exact h'
    · rw [hreply]
      refine ⟨h'.leaving hleaves ⟨s.world.drawn, Nat.lt_succ_self _, rfl⟩ ?_, h'.id⟩
      intro taskId task' htask'
      exact (h.fresh.tasks htask' s.world.drawn (Nat.le_refl _)).2.symm
  settled _ h' _ _ _ := ⟨h'.toBeside, h'.id⟩

end Engine

end Casework
