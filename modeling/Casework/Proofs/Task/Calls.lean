import Casework.Proofs.Engine.Drive
import Casework.Proofs.Task.Waiting

/-!
# Calls from outside

Callers open cases, start, resume and cancel them by their ids and complete their tasks, in any order.
As long as no call to the store is lost, there are three things that one of these can come to: nothing
at all, a new case, or a command on the record that the store has. `Call.Issues` says which command
that is, and `Call.comes` that there is nothing else.
-/

namespace Casework

variable {σ : Type}

/-- The case that the task belongs to is paused, and its last execution is that of the task. -/
def World.Awaits (w : World σ) (task : CaseTask) : Prop :=
  ∃ r, w.store.record? task.recordId = some r ∧ r.status = .paused ∧
    r.executions.getLast?.map (·.id) = some task.executionId

/-- No call to the store is going to be lost, and ids that are drawn are new. -/
structure World.Ready (w : World σ) : Prop where
  calm : w.outage = none
  fresh : w.Fresh

namespace Engine

open Work

inductive Call where
  | openCase (caseId templateId : String) (version : Option Nat) (data : Dictionary String)
  | start (id : Id)
  | resume (id : Id)
  | cancel (id : Id) (reason : Option String)
  | complete (taskId : Id) (resolution : Resolution)

def Call.run (e : Engine σ) : Call → Attempt σ CaseRecord
  | .openCase caseId templateId version data => Engine.openCase caseId templateId version data
  | .start id => e.startById id
  | .resume id => e.resumeById id
  | .cancel id reason => cancelById id reason
  | .complete taskId resolution => e.completeTask taskId resolution

/-- The world behind calls that have been made one after the other. -/
def after (e : Engine σ) (w : World σ) (calls : List Call) : World σ :=
  calls.foldl (fun w (call : Call) => (call.run e w).2) w

/-- What every call keeps is kept by all of them. -/
theorem after_induction {e : Engine σ} {P : World σ → Prop}
    (hrun : ∀ {w} (call : Call), P w → P (call.run e w).2) {w : World σ} (h : P w)
    (calls : List Call) : P (e.after w calls) := by
  induction calls generalizing w with
  | nil => exact h
  | cons call calls ih => exact ih (hrun call h)

variable {e : Engine σ} {w : World σ} {s : Session σ} {call : Call} {command : Command}

/-! ### The command that a call comes to -/

/-- The call turns to a stored record with a command. To complete a task is to resume the case, once
the task is resolved and the resolution is in the output. -/
inductive Call.Issues (w : World σ) : Call → Session σ → Command → Prop
  | start {id : Id} {r : CaseRecord} (hr : w.store.record? id = some r) :
      Issues w (.start id) ⟨r, w⟩ (.launch .start)
  | resume {id : Id} {r : CaseRecord} (hr : w.store.record? id = some r) :
      Issues w (.resume id) ⟨r, w⟩ (.launch .resume)
  | cancel {id : Id} {r : CaseRecord} (hr : w.store.record? id = some r) (reason : Option String) :
      Issues w (.cancel id reason) ⟨r, w⟩ (.cancel reason)
  | complete {taskId : Id} {task : CaseTask} {r : CaseRecord}
      (htask : w.store.task? taskId = some task) (hpending : task.status = .pending)
      (hr : w.store.record? task.recordId = some r) (hpaused : r.status = .paused)
      (hlast : r.executions.getLast?.map (·.id) = some task.executionId) (resolution : Resolution) :
      Issues w (.complete taskId resolution)
        (Session.amended ⟨r, w⟩ (task.resolve resolution (w.clock w.readings))) (.launch .resume)

/-- What a call can come to: nothing, as there is no command that fits, a new case, or a command. -/
inductive Call.Comes (e : Engine σ) (w : World σ) (call : Call) :
    Except EngineError CaseRecord × World σ → Prop
  | nothing {err : EngineError} (hdenied : ∀ {s command}, call.Issues w s command →
      command.accepts s.record.status = false) : Comes e w call (.error err, w)
  | opened {r : CaseRecord} (hunissued : ∀ {s command}, ¬ call.Issues w s command)
      (hnew : r.status = .notStarted) : Comes e w call (.ok r, opening w r)
  | carriedOut {s : Session σ} {command : Command} (h : call.Issues w s command)
      (haccepts : command.accepts s.record.status) :
      Comes e w call (Attempt.withRecord s.record (command.act e) s.world)

theorem comes_byId (command : Command) (h : w.outage = none) {id : Id}
    (hissues : ∀ {r}, w.store.record? id = some r → call.Issues w ⟨r, w⟩ command)
    (honly : ∀ {s command'}, call.Issues w s command' →
      w.store.record? id = some s.record ∧ command' = command) :
    call.Comes e w ((do Attempt.withRecord (← Attempt.record id) (command.act e)) w) := by
  cases hr : w.store.record? id with
  | none =>
    rw [bind_of_error (record_of_unknown h hr)]
    refine .nothing fun hissued => ?_
    cases hr.symm.trans (honly hissued).1
  | some r =>
    rw [bind_of_ok (record_of_stored h hr)]
    cases haccepts : command.accepts r.status with
    | true => exact .carriedOut (hissues hr) haccepts
    | false =>
      obtain ⟨err, -, hact⟩ := command.refused (e := e) (s := ⟨r, w⟩) haccepts
      rw [Attempt.withRecord, hact]
      refine .nothing fun hissued => ?_
      obtain ⟨hr', rfl⟩ := honly hissued
      obtain rfl := Option.some.inj (hr.symm.trans hr')
      exact haccepts

/-- A task that is not pending or not awaited is not completed. -/
theorem completeTask_denied (h : w.outage = none) {taskId : Id}
    (hdenied : ∀ task, w.store.task? taskId = some task → task.status = .pending → ¬ w.Awaits task)
    (resolution : Resolution) : ∃ err : EngineError, err.deniesTask ∧
      e.completeTask taskId resolution w = (.error err, w) := by
  obtain ⟨outage, hcalm, ⟨err, herr, hsame⟩ |
    ⟨task, r, htask, hpending, hr, hpaused, hlast, -⟩⟩ :=
      completeTask_cases (e := e) taskId resolution w
  · rw [hcalm h, ← h] at hsame
    exact ⟨err, herr.resolve_right fun hlost => hlost.1 h, hsame⟩
  · exact absurd ⟨r, hr, hpaused, hlast⟩ (hdenied task htask hpending)

theorem completeTask_awaited (h : w.outage = none) {taskId : Id} {task : CaseTask} {r : CaseRecord}
    (htask : w.store.task? taskId = some task) (hpending : task.status = .pending)
    (hr : w.store.record? task.recordId = some r) (hpaused : r.status = .paused)
    (hlast : r.executions.getLast?.map (·.id) = some task.executionId) (resolution : Resolution) :
    let s := Session.amended ⟨r, w⟩ (task.resolve resolution (w.clock w.readings))
    e.completeTask taskId resolution w = Attempt.withRecord s.record e.resume s.world := by
  have hget : (get : Attempt σ (World σ)) w = (.ok w, w) := rfl
  have hawaited : ¬ (r.status ≠ .paused ∨
      r.executions.getLast?.map (·.id) ≠ some task.executionId) := by
    rw [not_or, not_not, not_not]
    exact ⟨hpaused, hlast⟩
  let resolved := task.resolve resolution (w.clock w.readings)
  let ticked : World σ := { w with readings := w.readings + 1 }
  let kept : World σ := { ticked with store := w.store.saveTask resolved }
  have hnow : Attempt.sure World.now w = (.ok (w.clock w.readings), ticked) := rfl
  have hkeep : Attempt.sure (World.updateStore (·.saveTask resolved)) ticked = (.ok (), kept) := rfl
  have hsave := Attempt.saveRecord_of_no_outage (w := kept) h
    { r with executions := completeTask.amend resolved r.executions }
  have hopen : task.status.isTerminal = false := by rw [hpending]; rfl
  have hlive : r.status.isTerminal = false := by rw [hpaused]; rfl
  rw [completeTask, bind_of_ok hget]
  simp only [htask, hopen, Bool.false_eq_true, if_false]
  rw [bind_of_ok (record_of_stored h hr)]
  simp only [hlive, Bool.false_eq_true, if_false, if_neg hawaited]
  rw [bind_of_ok hnow, bind_of_ok hkeep, bind_of_ok hsave]
  rfl

theorem accepts_resume {r : CaseRecord} (hpaused : r.status = .paused) :
    (Command.launch .resume).accepts r.status := by
  rw [hpaused]
  rfl

theorem comes_complete (h : w.outage = none) (taskId : Id) (resolution : Resolution) :
    (Call.complete taskId resolution).Comes e w (e.completeTask taskId resolution w) := by
  by_cases hawaited : ∃ task, w.store.task? taskId = some task ∧ task.status = .pending ∧
      w.Awaits task
  · obtain ⟨task, htask, hpending, r, hr, hpaused, hlast⟩ := hawaited
    have hissued := Call.Issues.complete htask hpending hr hpaused hlast resolution
    rw [completeTask_awaited h htask hpending hr hpaused hlast]
    exact .carriedOut hissued (accepts_resume hpaused)
  · have hdenied (task : CaseTask) (htask : w.store.task? taskId = some task)
        (hpending : task.status = .pending) : ¬ w.Awaits task :=
      fun hawaits => hawaited ⟨task, htask, hpending, hawaits⟩
    obtain ⟨err, -, hsame⟩ := completeTask_denied (e := e) h hdenied resolution
    rw [hsame]
    refine .nothing fun hissued => ?_
    cases hissued with
    | complete htask hpending hr hpaused hlast =>
      exact absurd ⟨_, hr, hpaused, hlast⟩ (hdenied _ htask hpending)

/-- Nothing else can come of a call. -/
theorem Call.comes (h : w.outage = none) (call : Call) : call.Comes e w (call.run e w) := by
  cases call with
  | openCase caseId templateId version data =>
    rw [run]
    rcases openCase_cases h caseId templateId version data with ⟨err, hfailed⟩ | ⟨t, -, hopened⟩
    · rw [hfailed]
      exact .nothing fun hissued => by cases hissued
    · rw [hopened]
      exact .opened (fun hissued => by cases hissued) rfl
  | start id =>
    refine comes_byId (.launch .start) h .start fun hissued => ?_
    cases hissued with
    | start hr => exact ⟨hr, rfl⟩
  | resume id =>
    refine comes_byId (.launch .resume) h .resume fun hissued => ?_
    cases hissued with
    | resume hr => exact ⟨hr, rfl⟩
  | cancel id reason =>
    refine comes_byId (.cancel reason) h (.cancel · reason) fun hissued => ?_
    cases hissued with
    | cancel hr => exact ⟨hr, rfl⟩
  | complete taskId resolution => exact comes_complete h taskId resolution

/-! ### What a command is given -/

/-- The session of a command and the world before the call differ in the task that is resolved and
in the record of the case at most. -/
structure Given (w : World σ) (s : Session σ) : Prop where
  calm : s.world.outage = none
  ids : s.world.ids = w.ids
  drawn : s.world.drawn = w.drawn
  templates : s.world.store.templates = w.store.templates
  others : ∀ {id}, id ≠ s.record.id → s.world.store.record? id = w.store.record? id
  tasks : w.TasksFrom s.world

/-- The call resolves the task, which is pending and awaited. -/
def Call.Resolves (w : World σ) (call : Call) (taskId : Id) (task task' : CaseTask) : Prop :=
  ∃ resolution, call = .complete taskId resolution ∧ task.status = .pending ∧ w.Awaits task ∧
    task' = task.resolve resolution (w.clock w.readings)

namespace Call.Issues

theorem given (h : call.Issues w s command) (hcalm : w.outage = none) : Given w s := by
  have hsame (r : CaseRecord) : Given w ⟨r, w⟩ :=
    ⟨hcalm, rfl, rfl, rfl, fun _ => rfl, .of_eq rfl⟩
  cases h with
  | start | resume | cancel => exact hsame _
  | @complete taskId task r htask _ hr _ _ resolution =>
    refine ⟨hcalm, rfl, rfl, rfl, ?_, ?_⟩
    · intro id hid
      exact (Store.record?_saveRecord _ _ _).trans (if_neg fun hsame => hid hsame.symm)
    · intro taskId' task' htask'
      have hid : task.id = taskId := Store.id_of_task? htask
      have hfound := (Store.task?_saveTask w.store _ taskId').symm.trans htask'
      split at hfound
      · next hsame =>
        obtain rfl : taskId = taskId' := hid.symm.trans hsame
        obtain rfl := Option.some.inj hfound
        exact ⟨task, htask, rfl⟩
      · exact ⟨task', hfound, rfl⟩

/-- A task is still there, or it belongs to the case and has just been resolved. -/
theorem task? (h : call.Issues w s command) {taskId : Id} {task : CaseTask}
    (htask : w.store.task? taskId = some task) :
    s.world.store.task? taskId = some task ∨ task.recordId = s.record.id ∧
      ∃ task', call.Resolves w taskId task task' ∧ s.world.store.task? taskId = some task' := by
  cases h with
  | start | resume | cancel => exact .inl htask
  | @complete taskId' task' r htask' hpending hr hpaused hlast resolution =>
    have hid : task'.id = taskId' := Store.id_of_task? htask'
    let resolved := task'.resolve resolution (w.clock w.readings)
    have hfound : (w.store.saveTask resolved).task? taskId = _ :=
      Store.task?_saveTask w.store resolved taskId
    split at hfound
    · next hsame =>
      obtain rfl : taskId' = taskId := hid.symm.trans hsame
      obtain rfl := Option.some.inj (htask.symm.trans htask')
      have hrecord : r.id = task.recordId := Register.key_of_find? hr
      exact .inr ⟨hrecord.symm, resolved,
        ⟨resolution, rfl, hpending, ⟨r, hr, hpaused, hlast⟩, rfl⟩, hfound⟩
    · exact .inl (hfound.trans htask)

theorem aftermath (he : e.registry = .builtIn) (hw : w.Ready) (h : call.Issues w s command)
    (haccepts : command.accepts s.record.status) : Aftermath s (command.act e s) := by
  have hgiven := h.given hw.calm
  have hfresh : s.world.Fresh :=
    hw.fresh.of_tasks hgiven.ids (Nat.le_of_eq hgiven.drawn.symm) hgiven.tasks
  exact command.aftermath he hgiven.calm hfresh haccepts

end Call.Issues

theorem completeTask_aftermath (he : e.registry = .builtIn) (hw : w.Ready) {taskId : Id}
    {task : CaseTask} {r : CaseRecord} (htask : w.store.task? taskId = some task)
    (hpending : task.status = .pending) (hr : w.store.record? task.recordId = some r)
    (hpaused : r.status = .paused)
    (hlast : r.executions.getLast?.map (·.id) = some task.executionId) (resolution : Resolution) :
    let s := Session.amended ⟨r, w⟩ (task.resolve resolution (w.clock w.readings))
    e.completeTask taskId resolution w = Attempt.withRecord s.record e.resume s.world ∧
      Aftermath s (e.resume s) := by
  have hissues := Call.Issues.complete htask hpending hr hpaused hlast resolution
  exact ⟨completeTask_awaited hw.calm htask hpending hr hpaused hlast resolution,
    hissues.aftermath he hw (accepts_resume hpaused)⟩

/-- Whoever completes a task that is pending and awaited resolves it. -/
theorem Call.Resolves.task? (he : e.registry = .builtIn) (hw : w.Ready) {taskId : Id}
    {task task' : CaseTask} (h : call.Resolves w taskId task task')
    (htask : w.store.task? taskId = some task) :
    (call.run e w).2.store.task? taskId = some task' := by
  obtain ⟨resolution, rfl, hpending, ⟨r, hr, hpaused, hlast⟩, rfl⟩ := h
  obtain rfl : task.id = taskId := Store.id_of_task? htask
  let resolved := task.resolve resolution (w.clock w.readings)
  obtain ⟨hresult, haftermath⟩ :=
    completeTask_aftermath he hw htask hpending hr hpaused hlast resolution
  rw [run, hresult, withRecord_world]
  exact haftermath.beside.kept (Store.task?_saveTask_self w.store resolved)

/-! ### Calls one after the other -/

theorem opening_fresh (h : w.Fresh) (r : CaseRecord) : (opening w r).Fresh :=
  h.of_tasks rfl (Nat.le_succ _) (.of_eq rfl)

theorem Call.run_ready (he : e.registry = .builtIn) (h : w.Ready) (call : Call) :
    (call.run e w).2.Ready := by
  have hcomes := call.comes (e := e) h.calm
  generalize call.run e w = result at hcomes ⊢
  cases hcomes with
  | nothing => exact h
  | opened => exact ⟨h.calm, opening_fresh h.fresh _⟩
  | carriedOut hissues haccepts =>
    rw [withRecord_world]
    have hbeside := (hissues.aftermath he h haccepts).beside
    exact ⟨hbeside.calm, hbeside.fresh⟩

theorem after_ready (he : e.registry = .builtIn) (h : w.Ready) (calls : List Call) :
    (e.after w calls).Ready :=
  after_induction (P := World.Ready) (fun call hw => call.run_ready he hw) h calls

end Engine

/-! ### A case that needs two signatures -/

namespace SignOff

def first : Step := ⟨"first", "First signature", .humanTask, 1, none, true, none, none⟩

def second : Step := ⟨"second", "Second signature", .humanTask, 2, none, true, none, none⟩

def template : Template where
  id := "sign-off"
  version := 1
  name := "Sign-off"
  description := none
  steps := [first, second]
  publishedAt := some ⟨0⟩

def engine : Engine Unit := ⟨.builtIn, .default⟩

/-- There are no cases and no tasks yet. -/
def world : World Unit where
  store := { Store.empty with templates := Register.empty.insert template }
  clock n := ⟨n⟩
  readings := 0
  ids n := ⟨n⟩
  drawn := 0
  outage := none
  memory := ()

def opened : CaseRecord := .new ⟨0⟩ "case" template .empty ⟨0⟩

def worldOpened : World Unit := engine.after world [.openCase "case" "sign-off" none .empty]

/-- The case waits for the first signature. -/
def worldStarted : World Unit :=
  engine.after world [.openCase "case" "sign-off" none .empty, .start ⟨0⟩]

theorem ordered_eq : template.ordered = [first, second] :=
  Template.ordered_eq_of_pairwise rfl (.refl _) (by decide)

/-- The world in which the case has come to wait for the first signature. -/
def behindStart (r : CaseRecord) (w : World Unit) : World Unit :=
  (engine.runFrom ⟨[first, second]⟩ 1000 false "first" (Engine.startedAt ⟨r, w⟩ first)).2.world

theorem startById_eq {r : CaseRecord} {w : World Unit} (hcalm : w.outage = none) {id : Id}
    (hr : w.store.record? id = some r) (hnew : r.status = .notStarted)
    (hbound : Session.Bound ⟨r, w⟩ template) : (engine.startById id w).2 = behindStart r w := by
  rw [Engine.startById_world hcalm hr, Engine.start_eq_runFrom hcalm hnew hbound ordered_eq]
  rfl

theorem worldStarted_eq : worldStarted = behindStart opened worldOpened :=
  startById_eq rfl rfl rfl ⟨rfl, rfl⟩

theorem ready : world.Ready where
  calm := rfl
  fresh := by
    refine ⟨fun m n h => ?_, fun htask => ?_⟩
    · cases h
      rfl
    · cases htask

theorem awaits_first : ∃ task, worldStarted.store.task? ⟨2⟩ = some task ∧
    task.status = .pending ∧ task.recordId = ⟨0⟩ ∧ worldStarted.Awaits task := by
  have htask : (worldStarted.store.task? ⟨2⟩).map
      (fun task => (task.status, task.recordId, task.executionId)) =
    some (.pending, ⟨0⟩, ⟨1⟩) := by
    rw [worldStarted_eq]
    rfl
  have hrecord : (worldStarted.store.record? ⟨0⟩).map
      (fun r => (r.status, r.executions.getLast?.map (·.id))) = some (.paused, some ⟨1⟩) := by
    rw [worldStarted_eq]
    rfl
  obtain ⟨task, hstored, htask⟩ := Option.map_eq_some_iff.1 htask
  obtain ⟨r, hr, hrecord⟩ := Option.map_eq_some_iff.1 hrecord
  simp only [Prod.mk.injEq] at htask hrecord
  obtain ⟨hpending, hid, hexecution⟩ := htask
  refine ⟨task, hstored, hpending, hid, r, hid ▸ hr, hrecord.1, ?_⟩
  rw [hexecution]
  exact hrecord.2

end SignOff
end Casework
