import Casework.Proofs.Task.Beside

/-!
# A case that pauses waits for a task

With the built-in executors a run comes to a pause only behind a step that has just left a task
behind. The execution of that step is the last one of the case, and neither its id nor that of the
task was in use before the run.
-/

namespace Casework

variable {σ : Type}

/-- What a visit has met behind which the case is paused. -/
theorem CaseRecord.Gist.encounter_of_paused {g : StepGraph} {step : Step} {viaFailure : Bool}
    {a : Gist} {met : Encounter} (hrunning : a.status = .running)
    (hpaused : (a.visit g step viaFailure met).2.status = .paused) :
    ∃ input output, met = .outcome input (.pause output) := by
  cases met with
  | noExecutor =>
    by_cases hvia : viaFailure
    · simp [visit, hvia, failedWith] at hpaused
    · by_cases hrequired : step.required <;>
        simp [visit, hvia, hrequired, failedWith, extended, hrunning] at hpaused
  | outcome input o =>
    cases o with
    | pause output => exact ⟨input, output, rfl⟩
    | success output => simp [visit, extended, hrunning] at hpaused
    | failure message =>
      cases hfailure : step.onFailure with
      | some target => simp [visit, hfailure, extended, hrunning] at hpaused
      | none =>
        by_cases hrequired : step.required <;>
          simp [visit, hfailure, hrequired, failedWith, extended, hrunning] at hpaused

/-- In the template that the case is bound to, its last execution is one of a step that waits for the
task. -/
structure World.Waits (t : Template) (w : World σ) (r : CaseRecord) (x : Execution)
    (task : CaseTask) : Prop where
  bound : Session.Bound ⟨r, w⟩ t
  last : r.executions.getLast? = some x
  stored : w.store.task? task.id = some task
  pending : task.status = .pending
  recordId : task.recordId = r.id
  executionId : task.executionId = x.id
  stepId : task.stepId = x.stepId
  kind : ∃ step, t.step? x.stepId = some step ∧ step.type.taskKind? = some task.kind
  output : x.output = some (Executor.pendingOutput task.kind task.id)

/-- The case has gone on from the earlier session, and so has the drawing of ids. -/
structure Session.GoesOnTo (s s' : Session σ) : Prop where
  ids : s'.world.ids = s.world.ids
  drawn : s.world.drawn ≤ s'.world.drawn
  added : s.record.executions.map (·.id) <+: s'.record.executions.map (·.id)

/-- Since the earlier session executions have been added to the case. The last of them waits for a
task, and its id is one that has been drawn since. -/
structure Session.WaitsAnew (t : Template) (s s' : Session σ) (x : Execution) (task : CaseTask) :
    Prop extends s'.world.Waits t s'.record x task where
  drawn : ∃ n, s.world.drawn ≤ n ∧ x.id = s.world.ids n
  added : ∃ ids, s'.record.executions.map (·.id) = s.record.executions.map (·.id) ++ ids ++ [x.id]

theorem Session.WaitsAnew.from_earlier {t : Template} {s s' s'' : Session σ} {x : Execution}
    {task : CaseTask} (h : s'.WaitsAnew t s'' x task) (hearlier : s.GoesOnTo s') :
    s.WaitsAnew t s'' x task where
  toWaits := h.toWaits
  drawn := by
    obtain ⟨n, hn, hid⟩ := h.drawn
    exact ⟨n, Nat.le_trans hearlier.drawn hn, hearlier.ids ▸ hid⟩
  added := by
    obtain ⟨before, hbefore⟩ := hearlier.added
    obtain ⟨ids, hids⟩ := h.added
    refine ⟨before ++ ids, ?_⟩
    rw [hids, ← hbefore, List.append_assoc _ before]

namespace Engine

open Work Casework.Action

variable {e : Engine σ} {g : StepGraph} {step : Step} {t : Template} {s : Session σ}

/-! ### Visits -/

/-- A visit behind which the case is paused has called an executor that told it to wait. -/
theorem visit_of_paused (he : e.registry.Discreet) (h : s.Underway) {viaFailure : Bool}
    (hpaused : (e.visit g step viaFailure s).2.record.status = .paused) :
    let entered := s.directed (some step.id)
    ∃ x output, e.registry.executor? step.type = some x ∧
      (x step (entered.execution step) (entered.begun step).record
        (entered.begun step).world).1.outcome = .pause output ∧
      (e.visit g step viaFailure s).2 = Visit.pausedIn g s step (e.worldBehind step s) output := by
  have hleads := @visit_leads σ e he g step s h.calm h.running viaFailure
  have htold : (s.record.gist.visit g step viaFailure (e.encounter step s)).2.status = .paused := by
    rw [← hleads.gist]
    exact hpaused
  obtain ⟨input, output, hmet⟩ := CaseRecord.Gist.encounter_of_paused h.running htold
  rw [encounter, called] at hmet
  cases hx : e.registry.executor? step.type with
  | none =>
    simp only [hx, Option.map_none] at hmet
    cases hmet
  | some x =>
    simp only [hx, Option.map_some] at hmet
    obtain ⟨-, houtcome⟩ := Encounter.outcome.inj hmet
    have hlive := worldBehind_live he h.running (Registry.contains_of_executor? hx)
    have hcalm := worldBehind_calm he.calm h.calm step
    rw [worldBehind_of_some hx] at hlive hcalm ⊢
    refine ⟨x, output, rfl, houtcome, ?_⟩
    rw [visit, bind_of_ok (direct_apply _ s)]
    simp only [hx]
    rw [Visit.withExecutor_of_live h.calm hcalm hlive, houtcome,
      Visit.apply_pause hcalm h.running output]

/-- A case that is paused behind a step waits for the task that the step has left behind. -/
theorem pausedIn_waits (ht : s.Bound t) (hstep : step ∈ t.steps) {w : World σ}
    (htemplates : w.store.templates = s.world.store.templates) {record : CaseRecord}
    (hrecord : record.id = s.record.id) {kind : TaskKind} (hkind : kind ∈ step.type.taskKind?)
    {task : CaseTask} (hleaves : Executor.Leaves step ((s.directed (some step.id)).execution step)
      record w kind task) :
    ∃ x, s.WaitsAnew t (Visit.pausedIn g s step (Executor.leaving w task)
      (some (Executor.pendingOutput kind task.id))) x task := by
  generalize houtput : Executor.pendingOutput kind task.id = output
  let behind := Executor.leaving w task
  let x := ((s.directed (some step.id)).execution step).complete (some output)
    (behind.clock behind.readings)
  have horigin := Visit.pausedIn_origin g s step behind (some output)
  have hexecutions : (Visit.pausedIn g s step behind (some output)).record.executions =
      s.record.executions ++ [x] := Visit.pausedIn_executions g s step behind (some output)
  refine ⟨x, ?_, ⟨s.world.drawn, Nat.le_refl _, rfl⟩, [], ?_⟩
  · exact {
      bound := ht.of_origin horigin htemplates
      last := by rw [hexecutions, List.getLast?_concat]
      stored := Store.task?_saveTask_self w.store task
      pending := hleaves.status
      recordId := hleaves.recordId.trans (hrecord.trans (CaseRecord.id_eq_of_origin horigin).symm)
      executionId := hleaves.executionId
      stepId := hleaves.stepId
      kind := ⟨step, Template.step?_of_mem ht.2 hstep, hleaves.kind ▸ hkind⟩
      output := by
        rw [hleaves.kind, houtput]
        rfl }
  · rw [hexecutions, List.map_append, List.append_nil]
    rfl

/-- The execution of a step behind which the case is paused waits for the task that it has left. -/
theorem visit_waits (he : e.registry = .builtIn) (h : s.Underway) (ht : s.Bound t)
    (hstep : step ∈ t.steps) {viaFailure : Bool}
    (hpaused : (e.visit g step viaFailure s).2.record.status = .paused) :
    ∃ x task, s.WaitsAnew t (e.visit g step viaFailure s).2 x task := by
  have hdiscreet : e.registry.Discreet := he ▸ Registry.builtIn_discreet
  obtain ⟨x, output, hx, houtcome, hvisit⟩ := visit_of_paused hdiscreet h hpaused
  let begun := (s.directed (some step.id)).begun step
  let execution := (s.directed (some step.id)).execution step
  rw [worldBehind_of_some hx] at hvisit
  rw [he] at hx
  rcases Registry.builtIn_leavesAtMost hx step execution begun.record begun.world with
    ⟨hprompt, -⟩ | ⟨kind, hkind, task, hleaves, hreply⟩
  · exact absurd houtcome (hprompt output)
  · rw [hreply] at houtcome hvisit
    obtain rfl : some (Executor.pendingOutput kind task.id) = output := Outcome.pause.inj houtcome
    have htemplates : begun.world.store.templates = s.world.store.templates := rfl
    have hrecord : begun.record.id = s.record.id := rfl
    obtain ⟨x, hwaits⟩ := pausedIn_waits (g := g) ht hstep htemplates hrecord hkind hleaves
    rw [hvisit]
    exact ⟨x, task, hwaits⟩

/-! ### Runs -/

/-- What is known of a case on its way: nothing else has been touched, and its history goes on. -/
structure OnTheWay (t : Template) (s s' : Session σ) : Prop where
  bound : s'.Bound t
  beside : s'.Beside s.record.id s.world
  added : s.record.executions.map (·.id) <+: s'.record.executions.map (·.id)

theorem OnTheWay.goesOnTo {s' : Session σ} (h : OnTheWay t s s') : s.GoesOnTo s' :=
  ⟨h.beside.ids, h.beside.drawn, h.added⟩

theorem OnTheWay.visit (he : e.registry = .builtIn) {s' : Session σ} (h : OnTheWay t s s')
    (h' : s'.Underway) (hstep : step ∈ t.steps) (viaFailure : Bool) :
    OnTheWay t s (e.visit (.ofTemplate t) step viaFailure s').2 := by
  have hdiscreet : e.registry.Discreet := he ▸ Registry.builtIn_discreet
  have hleads := @visit_leads σ e hdiscreet (.ofTemplate t) step s' h'.calm h'.running viaFailure
  have hbeside := (upkeep_beside he).ensures_visit (.any _ _) trivial h.bound.2 hstep viaFailure s'
    h.beside
  refine ⟨h.bound.of_origin hleads.continues.origin ?_, hbeside.property, ?_⟩
  · exact hleads.templates.trans (worldBehind_templates hdiscreet step s')
  · exact h.added.trans (hleads.continues.executions.map (·.id))

/-- A run that ends in a pause has added to the history, and the case waits for a new task. -/
theorem run_waits (he : e.registry = .builtIn) (h : s.Underway) (hfresh : s.world.Fresh)
    (ht : s.Bound t) {first : String}
    (hpaused : (e.run t first s).2.record.status = .paused) :
    ∃ x task, s.WaitsAnew t (e.run t first s).2 x task := by
  have hcalm : e.registry.Calm := Registry.Discreet.calm (he ▸ Registry.builtIn_discreet)
  refine runFrom_rule hcalm (fun _ _ s' => OnTheWay t s s')
    (fun s' => s'.record.status = .paused → ∃ x task, s.WaitsAnew t s' x task) ?_ ?_ ?_ _ h
    ⟨ht, ⟨.refl _ h.calm hfresh, rfl⟩, List.prefix_rfl⟩ hpaused
  · intro id step viaFailure s' h' hid hway
    obtain ⟨hstep, -⟩ := StepGraph.mem_of_step? hid
    have hbehind := hway.visit he h' hstep viaFailure
    have hwaits (hpaused : (e.visit (.ofTemplate t) step viaFailure s').2.record.status = .paused) :
        ∃ x task, s.WaitsAnew t (e.visit (.ofTemplate t) step viaFailure s').2 x task := by
      obtain ⟨x, task, hwaits⟩ := visit_waits he h' hway.bound hstep hpaused
      exact ⟨x, task, hwaits.from_earlier hway.goesOnTo⟩
    exact (Behind.of_forall (P := fun s'' => OnTheWay t s s'' ∧ (s''.record.status = .paused →
      ∃ x task, s.WaitsAnew t s'' x task)) ⟨hbehind, hwaits⟩).imp (fun _ _ h => h.1) fun h => h.2
  · exact fun _ _ hpaused => nomatch hpaused
  · exact fun _ _ _ hpaused => nomatch hpaused

/-! ### Commands -/

theorem SetsOut.goesOnTo {s' : Session σ} (h : SetsOut t s s') : s.GoesOnTo s' :=
  ⟨h.ids, Nat.le_of_eq h.drawn.symm, h.executions ▸ List.prefix_rfl⟩

theorem Course.waits (he : e.registry = .builtIn) (hfresh : s.world.Fresh)
    {final : Except EngineError Unit × Session σ} (h : Course e s final)
    (hpaused : final.2.record.status = .paused) :
    ∃ t x task, s.WaitsAnew t final.2 x task := by
  cases h with
  | fails => cases hpaused
  | completes => cases hpaused
  | @runs t first s' h =>
    have htemplates : s'.world.store.templates = s.world.store.templates :=
      congrArg Surroundings.templates h.surroundings
    have hfresh' : s'.world.Fresh :=
      hfresh.of_tasks h.ids (Nat.le_of_eq h.drawn.symm)
        (.of_eq (congrArg Surroundings.tasks h.surroundings))
    have hbound : s'.Bound t := h.bound.of_origin h.origin htemplates
    obtain ⟨x, task, hwaits⟩ := run_waits he h.underway hfresh' hbound hpaused
    exact ⟨t, x, task, hwaits.from_earlier h.goesOnTo⟩

/-- What is known behind a command that fits the status of the case. -/
structure Aftermath (s : Session σ) (final : Except EngineError Unit × Session σ) : Prop where
  settled : final.2.Settled final.1
  beside : final.2.Beside s.record.id s.world
  waits : final.2.record.status = .paused → ∃ t x task, s.WaitsAnew t final.2 x task
  granted : ∀ {err}, final.1 = .error err → err.deniesTask = false

/-- Apart from refusals, no error of a command is one of those that deny a task. -/
theorem act_grants (e : Engine σ) (command : Command) (s : Session σ) {err : EngineError}
    (herr : (command.act e s).1 = .error err) : err.isRefusal ∨ err.deniesTask = false := by
  have hkeep : Upkeep e (fun _ => True) fun _ => True := by constructor <;> intros <;> trivial
  have hpermits : EngineError.Permits (fun _ => True) (fun _ : Session σ => True)
      fun err => err.isRefusal ∨ err.deniesTask = false :=
    ⟨.inl, fun _ => .inr rfl, fun _ _ => .inr rfl, fun _ => .inr rfl, fun _ _ => .inr rfl,
      fun _ _ => .inr rfl, fun _ _ _ _ => .inr rfl⟩
  exact (hkeep.upholds_command hpermits command s trivial).permitted herr

theorem Command.aftermath (he : e.registry = .builtIn) (command : Command)
    (hcalm : s.world.outage = none) (hfresh : s.world.Fresh)
    (haccepts : command.accepts s.record.status) : Aftermath s (command.act e s) where
  settled := command.settles (Registry.Discreet.calm (he ▸ Registry.builtIn_discreet)) hcalm haccepts
  beside := ((upkeep_beside he).upholds_command (.any _ _) command s
    ⟨.refl _ hcalm hfresh, rfl⟩).property
  waits hpaused := by
    cases command with
    | launch launch => exact (launch.course hcalm haccepts).waits he hfresh hpaused
    | cancel reason =>
      have hlive : s.record.status.isTerminal = false := by simpa [Command.accepts] using haccepts
      rw [Command.act, cancel_apply hcalm hlive] at hpaused
      cases hpaused
  granted {err} herr := by
    have hsettled :=
      command.settles (Registry.Discreet.calm (he ▸ Registry.builtIn_discreet)) hcalm haccepts
    refine (act_grants e command s herr).resolve_left fun hrefusal => ?_
    cases (hsettled.error herr).1.symm.trans hrefusal

end Engine

end Casework
