import Casework.Proofs.Task.Calls

/-!
# A task is resolved at most once

A task changes only when it is completed while its case is paused behind it. Once the case has gone
on without the task, the case may well pause again, even at the same step, but then its last execution
is a new one. So nobody waits for the task any more, and whoever tries to complete it is refused and
changes nothing.
-/

namespace Casework

variable {σ : Type}

namespace Engine

open Work

variable {e : Engine σ} {w : World σ} {s : Session σ} {call : Call} {command : Command} {taskId : Id}
  {task : CaseTask}

/-! ### One call -/

/-- A call leaves a task as it is, or it is the one that resolves it. -/
theorem Call.run_task? (he : e.registry = .builtIn) (hw : w.Ready) (call : Call)
    (htask : w.store.task? taskId = some task) :
    (call.run e w).2.store.task? taskId = some task ∨
      ∃ task', call.Resolves w taskId task task' ∧
        (call.run e w).2.store.task? taskId = some task' := by
  have hcomes := call.comes (e := e) hw.calm
  generalize call.run e w = result at hcomes ⊢
  cases hcomes with
  | nothing | opened => exact .inl htask
  | carriedOut hissues haccepts =>
    rw [withRecord_world]
    have hbeside := (hissues.aftermath he hw haccepts).beside
    rcases hissues.task? htask with hsame | ⟨-, task', hresolves, htask'⟩
    · exact .inl (hbeside.kept hsame)
    · exact .inr ⟨task', hresolves, hbeside.kept htask'⟩

theorem Call.Resolves.status_cases {task' : CaseTask} (h : call.Resolves w taskId task task') :
    task'.status = .completed ∨ task'.status = .rejected := by
  obtain ⟨resolution, -, -, -, rfl⟩ := h
  rw [CaseTask.resolve, Resolution.status]
  split
  · exact .inr rfl
  · exact .inl rfl

/-- Behind a command the case does not wait for a task that was there before: if it is paused, its
last execution is a new one. -/
theorem Call.Issues.awaits_behind (he : e.registry = .builtIn) (hw : w.Ready)
    (h : call.Issues w s command) (haccepts : command.accepts s.record.status)
    (htask : w.store.task? taskId = some task)
    (hawaits : (command.act e s).2.world.Awaits task) :
    task.recordId ≠ s.record.id ∧ w.Awaits task := by
  have hgiven := h.given hw.calm
  have haftermath := h.aftermath he hw haccepts
  obtain ⟨r, hr, hpaused, hlast⟩ := hawaits
  by_cases hid : task.recordId = s.record.id
  · have hstored : (command.act e s).2.Stored := haftermath.settled.stored
    rw [hid, ← haftermath.beside.id, hstored] at hr
    obtain rfl := Option.some.inj hr
    obtain ⟨t, x, task', hwaits⟩ := haftermath.waits hpaused
    obtain ⟨n, hn, hnew⟩ := hwaits.drawn
    rw [hwaits.last, Option.map_some, hnew, hgiven.ids] at hlast
    rw [hgiven.drawn] at hn
    exact absurd (Option.some.inj hlast) (hw.fresh.tasks htask n hn).2
  · rw [haftermath.beside.others hid, hgiven.others hid] at hr
    exact ⟨hid, r, hr, hpaused, hlast⟩

/-- If nobody waits for a task, no call makes anybody wait for it. -/
theorem Call.awaits_of_run (he : e.registry = .builtIn) (hw : w.Ready) (call : Call)
    (htask : w.store.task? taskId = some task) (hawaits : (call.run e w).2.Awaits task) :
    w.Awaits task := by
  have hcomes := call.comes (e := e) hw.calm
  generalize call.run e w = result at hcomes hawaits
  cases hcomes with
  | nothing => exact hawaits
  | @opened r _ hnew =>
    obtain ⟨r', hr', hpaused, hlast⟩ := hawaits
    have hfound := (Store.record?_saveRecord w.store r task.recordId).symm.trans hr'
    split at hfound
    · obtain rfl := Option.some.inj hfound
      cases hnew.symm.trans hpaused
    · exact ⟨r', hfound, hpaused, hlast⟩
  | carriedOut hissues haccepts =>
    rw [withRecord_world] at hawaits
    exact (hissues.awaits_behind he hw haccepts htask hawaits).2

/-- The call lets the case of the task go on, or end, without the task. -/
def Call.Bypasses (call : Call) (task : CaseTask) : Prop :=
  call = .resume task.recordId ∨ ∃ reason, call = .cancel task.recordId reason

/-- A case that is paused is always resumed or cancelled when it is to be. -/
theorem Call.Bypasses.not_awaits (he : e.registry = .builtIn) (hw : w.Ready)
    (h : call.Bypasses task) (htask : w.store.task? taskId = some task) (hawaits : w.Awaits task) :
    ¬ (call.run e w).2.Awaits task := by
  intro hbehind
  obtain ⟨r, hr, hpaused, -⟩ := hawaits
  obtain ⟨command, hissued, haccepted⟩ :
      ∃ command, call.Issues w ⟨r, w⟩ command ∧ command.accepts r.status := by
    rw [hpaused]
    rcases h with rfl | ⟨reason, rfl⟩
    · exact ⟨_, .resume hr, rfl⟩
    · exact ⟨_, .cancel hr reason, rfl⟩
  have hcomes := call.comes (e := e) hw.calm
  generalize call.run e w = result at hcomes hbehind
  cases hcomes with
  | nothing hdenied => cases (hdenied hissued).symm.trans haccepted
  | opened hunissued => exact hunissued hissued
  | @carriedOut s _ hissues haccepts =>
    rw [withRecord_world] at hbehind
    refine (hissues.awaits_behind he hw haccepts htask hbehind).1 ?_
    rcases h with rfl | ⟨reason, rfl⟩
    · cases hissues with
      | resume hr => exact (Register.key_of_find? hr).symm
    · cases hissues with
      | cancel hr => exact (Register.key_of_find? hr).symm

/-- Whoever is told that there is no such task to complete has changed nothing. -/
theorem completeTask_world_of_denied (he : e.registry = .builtIn) (hw : w.Ready)
    {resolution : Resolution} {err : EngineError} (hdenies : err.deniesTask)
    (herr : (e.completeTask taskId resolution w).1 = .error err) :
    (e.completeTask taskId resolution w).2 = w := by
  have hcomes := (Call.complete taskId resolution).comes (e := e) hw.calm
  rw [Call.run] at hcomes
  generalize e.completeTask taskId resolution w = result at hcomes herr ⊢
  cases hcomes with
  | nothing => rfl
  | opened => cases herr
  | carriedOut hissues haccepts =>
    have hgranted := (hissues.aftermath he hw haccepts).granted (withRecord_error herr)
    cases hdenies.symm.trans hgranted

/-! ### Any number of calls -/

/-- The task is there, and nobody waits for it. -/
structure PassedBy (taskId : Id) (task : CaseTask) (w : World σ) : Prop where
  ready : w.Ready
  stored : w.store.task? taskId = some task
  passed : ¬ w.Awaits task

theorem Call.Bypasses.passedBy (he : e.registry = .builtIn) (hw : w.Ready)
    (h : call.Bypasses task) (htask : w.store.task? taskId = some task) (hawaits : w.Awaits task) :
    PassedBy taskId task (call.run e w).2 where
  ready := call.run_ready he hw
  stored := by
    rcases call.run_task? he hw htask with hsame | ⟨_, ⟨resolution, rfl, -⟩, -⟩
    · exact hsame
    · rcases h with hother | ⟨_, hother⟩
      · cases hother
      · cases hother
  passed := h.not_awaits he hw htask hawaits

theorem PassedBy.run (he : e.registry = .builtIn) (h : PassedBy taskId task w) (call : Call) :
    PassedBy taskId task (call.run e w).2 where
  ready := call.run_ready he h.ready
  stored := by
    rcases call.run_task? he h.ready h.stored with hsame | ⟨_, ⟨_, -, -, hawaits, -⟩, -⟩
    · exact hsame
    · exact absurd hawaits h.passed
  passed hawaits := h.passed (call.awaits_of_run he h.ready h.stored hawaits)

theorem PassedBy.denied (h : PassedBy taskId task w) (resolution : Resolution) :
    ∃ err : EngineError, err.deniesTask ∧ e.completeTask taskId resolution w = (.error err, w) := by
  refine completeTask_denied h.ready.calm (fun task' htask' _ hawaits => ?_) resolution
  obtain rfl := Option.some.inj (h.stored.symm.trans htask')
  exact h.passed hawaits

/-- A task that has been resolved stays as it is. -/
theorem after_task?_of_resolved (he : e.registry = .builtIn) (hw : w.Ready)
    (htask : w.store.task? taskId = some task) (hresolved : task.status ≠ .pending)
    (later : List Call) : (e.after w later).store.task? taskId = some task := by
  refine (after_induction (P := fun w => w.Ready ∧ w.store.task? taskId = some task) ?_
    ⟨hw, htask⟩ later).2
  rintro w call ⟨hw, htask⟩
  refine ⟨call.run_ready he hw, ?_⟩
  rcases call.run_task? he hw htask with hsame | ⟨_, ⟨_, -, hpending, -, -⟩, -⟩
  · exact hsame
  · exact absurd hpending hresolved

/-- Whatever callers do, a task changes exactly if it is completed while it is pending and the case
waits for it, and once it is resolved it stays as it is. If the case goes on without it, it can never
be completed any more, and whoever is told so has changed nothing. -/
theorem task_resolved_once_while_awaited (he : e.registry = .builtIn) {w₀ : World σ}
    (h : w₀.Ready) (calls : List Call) :
    let w := e.after w₀ calls
    (∀ {taskId task}, w.store.task? taskId = some task →
      (∀ call : Call,
        (∃ task', call.Resolves w taskId task task' ∧
          (task'.status = .completed ∨ task'.status = .rejected) ∧
          (call.run e w).2.store.task? taskId = some task') ∨
        (∀ task', ¬ call.Resolves w taskId task task') ∧
          (call.run e w).2.store.task? taskId = some task) ∧
      (task.status ≠ .pending →
        ∀ later, (e.after w later).store.task? taskId = some task) ∧
      (w.Awaits task → ∀ call : Call, call.Bypasses task → ∀ later resolution,
        let w' := e.after w (call :: later)
        ∃ err : EngineError, err.deniesTask ∧
          e.completeTask taskId resolution w' = (.error err, w'))) ∧
    ∀ taskId resolution (err : EngineError), err.deniesTask →
      (e.completeTask taskId resolution w).1 = .error err →
      (e.completeTask taskId resolution w).2 = w := by
  intro w
  have hw : w.Ready := after_ready he h calls
  refine ⟨fun {taskId task} htask => ⟨fun call => ?_, ?_, ?_⟩, ?_⟩
  · by_cases hresolves : ∃ task', call.Resolves w taskId task task'
    · obtain ⟨task', hresolves⟩ := hresolves
      exact .inl ⟨task', hresolves, hresolves.status_cases, hresolves.task? he hw htask⟩
    · rw [not_exists] at hresolves
      refine .inr ⟨hresolves, (call.run_task? he hw htask).resolve_right ?_⟩
      rintro ⟨task', hother, -⟩
      exact hresolves task' hother
  · exact fun hresolved => after_task?_of_resolved he hw htask hresolved
  · intro hawaits call hbypasses later
    have hpassed := hbypasses.passedBy he hw htask hawaits
    exact (after_induction (fun call h => h.run he call) hpassed later).denied
  · exact fun _ _ _ hdenies herr => completeTask_world_of_denied he hw hdenies herr

open SignOff in
theorem task_resolved_once_while_awaited_signOff :
    ∃ task, worldStarted.store.task? ⟨2⟩ = some task ∧ task.status = .pending ∧
      ∀ later resolution, let w := engine.after worldStarted (.resume ⟨0⟩ :: later)
        ∃ err : EngineError, err.deniesTask ∧
          engine.completeTask ⟨2⟩ resolution w = (.error err, w) := by
  obtain ⟨task, htask, hpending, hid, hawaits⟩ := awaits_first
  have hlaws := (task_resolved_once_while_awaited (e := engine) rfl ready
    [.openCase "case" "sign-off" none .empty, .start ⟨0⟩]).1 htask
  exact ⟨task, htask, hpending, hlaws.2.2 hawaits (.resume ⟨0⟩) (.inl (by rw [hid]))⟩

end Engine

end Casework
