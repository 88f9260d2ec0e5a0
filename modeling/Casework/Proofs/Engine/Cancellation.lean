import Casework.Proofs.Engine.Log
import Casework.Proofs.Engine.Pointer

/-!
# A case that is cancelled while a step is under way

Whoever cancels a case in the store while an executor is at work has the last word. Whatever the
executor replies, the record in the store is taken over, the execution of the step is broken off in
it, and no other executor is called. From then on the case has ended, and whatever is done with it
is refused.
-/

namespace Casework

variable {σ : Type}

/-! ### Executions with ids of their own -/

/-- The executor draws its ids where all ids are drawn, and gives none back. -/
def Executor.Draws (x : Executor σ) : Prop :=
  ∀ step execution record (w : World σ),
    let w' := (x step execution record w).2
    w'.ids = w.ids ∧ w.drawn ≤ w'.drawn

def Registry.Draws (reg : Registry σ) : Prop :=
  ∀ {type x}, reg.executor? type = some x → Executor.Draws x

theorem Registry.Spares.draws {reg : Registry σ} {id : Id} (h : reg.Spares id) : reg.Draws :=
  fun hx step execution record w =>
    have hspares := h hx step execution record w
    ⟨hspares.ids, hspares.drawn⟩

/-- The executions on record have ids that have been drawn, and no id is drawn twice. -/
structure Session.Numbered (s : Session σ) : Prop where
  distinct : Function.Injective s.world.ids
  drawn : ∀ id ∈ s.record.executions.map (·.id), ∃ n < s.world.drawn, id = s.world.ids n

namespace Session.Numbered

variable {s s' : Session σ}

theorem new (h : s.Numbered) {x : Execution} (hx : x ∈ s.record.executions) :
    x.id ≠ s.world.ids s.world.drawn := by
  intro hsame
  obtain ⟨n, hn, hid⟩ := h.drawn x.id (List.mem_map_of_mem hx)
  have hdrawn : n = s.world.drawn := h.distinct (hid.symm.trans hsame)
  omega

theorem of_ids (h : s.Numbered) (hids : s'.world.ids = s.world.ids)
    (hdrawn : s.world.drawn ≤ s'.world.drawn)
    (hexecutions : s'.record.executions.map (·.id) = s.record.executions.map (·.id)) :
    s'.Numbered where
  distinct := hids ▸ h.distinct
  drawn id hid := by
    rw [hexecutions] at hid
    obtain ⟨n, hn, heq⟩ := h.drawn id hid
    exact ⟨n, Nat.lt_of_lt_of_le hn hdrawn, hids ▸ heq⟩

theorem concat (h : s.Numbered) (hids : s'.world.ids = s.world.ids)
    (hdrawn : s.world.drawn < s'.world.drawn) {x : Execution}
    (hx : x.id = s.world.ids s.world.drawn)
    (hexecutions : s'.record.executions = s.record.executions ++ [x]) : s'.Numbered where
  distinct := hids ▸ h.distinct
  drawn id hid := by
    rw [hexecutions, List.map_append, List.mem_append] at hid
    rw [hids]
    rcases hid with hid | hid
    · obtain ⟨n, hn, heq⟩ := h.drawn id hid
      exact ⟨n, Nat.lt_trans hn hdrawn, heq⟩
    · exact ⟨s.world.drawn, hdrawn, (List.mem_singleton.1 hid).trans hx⟩

end Session.Numbered

/-- The last execution is broken off if it is under way and no other has its id. -/
theorem Session.brokenOff_of_last {s : Session σ} {es : List Execution} {x : Execution}
    (hexecutions : s.record.executions = es ++ [x]) (hnew : ∀ y ∈ es, y.id ≠ x.id)
    (hrunning : x.status = .running) :
    s.brokenOff x.id = (s.settled es.length (·.fail "Cancelled during execution")).saved := by
  rw [brokenOff, hexecutions, Execution.findIdx?_last hnew]
  simp only
  rw [if_pos]
  simp [hrunning]

namespace Engine

open Work Casework.Action

variable {e : Engine σ} {g : StepGraph} {t : Template} {step : Step} {s s' : Session σ}
  {p q : Point σ} {launch : Launch}

theorem worldBehind_draws (he : e.registry.Draws) (hexecutor : e.registry.contains step.type)
    (s : Session σ) : (e.worldBehind step s).ids = s.world.ids ∧
      s.world.drawn < (e.worldBehind step s).drawn := by
  obtain ⟨x, hx⟩ := Registry.exists_of_contains hexecutor
  let begun := (s.directed (some step.id)).begun step
  rw [worldBehind_of_some hx]
  exact he hx step ((s.directed (some step.id)).execution step) begun.record begun.world

theorem visit_numbered (he : e.registry.Calm) (hdraws : e.registry.Draws) (h : s.Underway)
    (hnumbered : s.Numbered) {viaFailure via : Bool} {next : Option String}
    (hvisit : e.visit g step viaFailure s = (.ok (.goOn next via), s')) : s'.Numbered := by
  obtain ⟨-, x, hexecutions, hx, -⟩ := goOn_cases he h hvisit
  have hworld : s'.world.ids = s.world.ids ∧ s.world.drawn < s'.world.drawn := by
    rcases visit_yields_or_brokenOff he g step h viaFailure with hyields | ⟨_, _, _, hbroken⟩
    · rw [hvisit] at hyields
      cases hyields with
      | givesUp _ hover _ => exact absurd rfl (hover next via)
      | skips => exact ⟨rfl, Nat.lt_succ_self _⟩
      | goesOn hexecutor => exact worldBehind_draws hdraws hexecutor s
    · cases hvisit.symm.trans hbroken
  exact hnumbered.concat hworld.1 hworld.2 hx hexecutions

theorem Passes.numbered (he : e.registry.Calm) (hdraws : e.registry.Draws) (h : e.Passes g p q)
    (hp : p.session.Underway) (hnumbered : p.session.Numbered) : q.session.Numbered := by
  induction h with
  | here => exact hnumbered
  | visit _ hvisit _ ih =>
    exact ih (visit_underway he hp hvisit) (visit_numbered he hdraws hp hnumbered hvisit)

theorem Enters.numbered (h : e.Enters t s launch p) (hcalm : s.world.outage = none)
    (ht : s.Bound t) (hnumbered : s.Numbered) : p.session.Numbered := by
  cases h with
  | start => exact hnumbered.of_ids rfl (Nat.le_refl _) rfl
  | resume hstatus =>
    have hout := resumedAt_setsOut hcalm hstatus ht
    exact hnumbered.of_ids hout.ids hout.drawn.ge hout.executions

theorem RunsThrough.numbered (hp : e.RunsThrough t s launch p) (he : e.registry.Calm)
    (hdraws : e.registry.Draws) (hcalm : s.world.outage = none) (ht : s.Bound t)
    (hnumbered : s.Numbered) : p.session.Numbered := by
  obtain ⟨entry, henters, hpasses⟩ := hp
  exact hpasses.numbered he hdraws (henters.underway hcalm) (henters.numbered hcalm ht hnumbered)

/-! ### The run ends -/

/-- The calls to executors that a command has made when its run comes to the point. -/
def CallsUpTo (e : Engine σ) (t : Template) (s : Session σ) (launch : Launch) (p : Point σ)
    (log : List ExecutorCall) : Prop :=
  ∃ q, e.logged.RunsThrough t (s.logging []) launch q ∧ q.unlogged = p ∧ q.session.log = log

/-- While the step is under way somebody cancels the case in the store. -/
def Withdraws (e : Engine σ) (step : Step) (s : Session σ) (reason : String) (now : Time) : Prop :=
  ∃ later, (e.worldBehind step s).store.record? s.record.id =
    some (((s.directed (some step.id)).begun step).record.withdrawn reason now later)

/-- Whoever cancels the case by its id, which is still on its way, does so. -/
theorem withdraws_of_cancelById {w : World σ} (h : s.record.status = .running)
    (hw : w.outage = none)
    (hstored : w.store.record? s.record.id = some ((s.directed (some step.id)).begun step).record)
    (reason : Option String)
    (hbehind : (e.worldBehind step s).store.record? s.record.id =
      (cancelById s.record.id reason w).2.store.record? s.record.id) :
    e.Withdraws step s (reason.getD "Cancelled") (w.clock w.readings) := by
  let begun : Session σ := ⟨((s.directed (some step.id)).begun step).record, w⟩
  have hlive : begun.record.status.isTerminal = false := by
    show s.record.status.isTerminal = false
    rw [h]
    rfl
  rw [cancelById_world hw hstored, cancel_apply (s := begun) hw hlive] at hbehind
  exact ⟨_, hbehind.trans (Session.saved_stored ((begun.become .cancelled).blamed _))⟩

/-- Executors that spare the case can at most cancel it while a step is under way. -/
theorem withdrawn_of_cancelledAs (he : e.registry.Spares s.record.id) (h : s.Underway)
    (hexecutor : e.registry.contains step.type) {r : CaseRecord}
    (hr : Session.CancelledAs ⟨s.record, e.worldBehind step s⟩ r) : ∃ reason now later,
      r = ((s.directed (some step.id)).begun step).record.withdrawn reason now later := by
  obtain ⟨x, hx⟩ := Registry.exists_of_contains hexecutor
  let begun := (s.directed (some step.id)).begun step
  have hbegun : begun.world.store.record? s.record.id = some begun.record := Session.saved_stored _
  have hspares : begun.world.Spares s.record.id (e.worldBehind step s) := by
    rw [worldBehind_of_some hx]
    exact he hx _ _ _ _
  rcases hspares.record with hsame | ⟨r', reason, now, later, hr', -, hwithdrawn⟩
  · obtain rfl := Option.some.inj ((hsame.trans hbegun).symm.trans hr.1)
    cases h.running.symm.trans hr.2
  · obtain rfl := Option.some.inj (hbegun.symm.trans hr')
    exact ⟨reason, now, later, Option.some.inj (hr.1.symm.trans hwithdrawn)⟩

theorem Withdraws.contains {reason : String} {now : Time} (h : e.Withdraws step s reason now)
    (hs : s.Underway) : e.registry.contains step.type := by
  by_contra hexecutor
  obtain ⟨later, hstored⟩ := h
  have hsame : s.world.store.record? s.record.id = some s.record := hs.stored
  rw [worldBehind_of_none (Registry.executor?_of_not_contains hexecutor), hsame] at hstored
  have hstatus := congrArg CaseRecord.status (Option.some.inj hstored)
  cases hs.running.symm.trans hstatus

theorem RunsThrough.act_of_cancelledAs (hp : e.RunsThrough t s launch p) (he : e.registry.Calm)
    (hcalm : s.world.outage = none) (ht : s.Bound t) (hunderway : p.session.Underway)
    (hleft : 0 < p.left) (hnext : p.next = some step.id) (hstep : step ∈ t.steps)
    (hexecutor : e.registry.contains step.type) {r : CaseRecord}
    (hr : Session.CancelledAs ⟨p.session.record, e.worldBehind step p.session⟩ r) :
    launch.act e s = (.ok (), Session.brokenOff ⟨r, e.worldBehind step p.session⟩
      (p.session.world.ids p.session.world.drawn)) := by
  rw [hp.act_eq he hcalm ht]
  obtain ⟨left, viaFailure, next, s'⟩ := p
  obtain rfl : next = some step.id := hnext
  obtain ⟨left, rfl⟩ := Nat.exists_eq_succ_of_ne_zero hleft.ne'
  have hvisit :=
    visit_of_cancelledAs (g := .ofTemplate t) he hunderway.calm hexecutor hr viaFailure
  exact (Halts.stops (StepGraph.step?_of_mem ht.2 hstep) hvisit).runOn_eq hunderway

/-- The run that comes to the point calls the executor of the step and no other. -/
theorem RunsThrough.calls_of_cancelledAs (hp : e.RunsThrough t s launch p) (he : e.registry.Calm)
    (hcalm : s.world.outage = none) (ht : s.Bound t) (hunderway : p.session.Underway)
    (hleft : 0 < p.left) (hnext : p.next = some step.id) (hstep : step ∈ t.steps)
    (hexecutor : e.registry.contains step.type) {r : CaseRecord}
    (hr : Session.CancelledAs ⟨p.session.record, e.worldBehind step p.session⟩ r) :
    let begun := (p.session.directed (some step.id)).begun step
    ∃ log, e.CallsUpTo t s launch p log ∧ e.calls launch s =
      log ++ [⟨step, (p.session.directed (some step.id)).execution step, begun.record⟩] := by
  obtain ⟨q, hq, rfl⟩ := hp.exists_logged
  obtain ⟨x, hx⟩ := Registry.exists_of_contains hexecutor
  obtain ⟨hworld, hlog⟩ := worldBehind_logged_of_some hx q.session
  refine ⟨q.session.log, ⟨q, hq, rfl, rfl⟩, ?_⟩
  have hexecutor' : e.logged.registry.contains step.type := by
    rw [Registry.contains, logged, Registry.executor?]
    simp [hx]
  have hr' : Session.CancelledAs ⟨q.session.record, e.logged.worldBehind step q.session⟩ r := by
    refine ⟨Eq.trans ?_ hr.1, hr.2⟩
    exact congrArg (·.store.record? q.session.record.id) hworld
  have hact := hq.act_of_cancelledAs (logged_calm he) hcalm ht
    ⟨hunderway.calm, hunderway.running, hunderway.stored⟩ hleft hnext hstep hexecutor' hr'
  have hmemory := congrArg Surroundings.memory (Session.brokenOff_surroundings
    ⟨r, e.logged.worldBehind step q.session⟩ (q.session.world.ids q.session.world.drawn))
  rw [calls, hact]
  exact (congrArg Prod.snd hmemory).trans hlog

/-! ### The case has ended -/

/-- A command on a case that has ended is refused. -/
theorem Command.act_of_terminal (command : Command) (e : Engine σ)
    (hover : s.record.status.isTerminal) :
    command.act e s = (.error (.alreadyTerminal s.record.status), s) := by
  cases command with
  | launch launch => exact launch.act_of_terminal e hover
  | cancel reason => exact cancel_of_terminal hover reason

/-- If a task is completed, it is one of the case that is still pending. -/
def Operation.Pends (id : Id) (w : World σ) : Operation → Prop
  | .complete taskId _ =>
    ∃ task, w.store.task? taskId = some task ∧ task.recordId = id ∧ task.status = .pending
  | _ => True

section Ended

variable {id : Id} {w w' : World σ} {r : CaseRecord}

theorem byId_of_terminal (command : Command) (h : w.outage = none)
    (hr : w.store.record? id = some r) (hover : r.status.isTerminal) :
    (do Attempt.withRecord (← Attempt.record id) (command.act e) : Attempt σ CaseRecord) w =
      (.error (.alreadyTerminal r.status), w) := by
  rw [bind_of_ok (record_of_stored h hr), Attempt.withRecord,
    command.act_of_terminal (s := ⟨r, w⟩) e hover]

/-- Nothing is done any more with a case that has ended. -/
theorem Operation.run_of_terminal (op : Operation) (h : w.outage = none)
    (hr : w.store.record? id = some r) (hover : r.status.isTerminal) (hop : op.Pends id w) :
    op.run e id w = (.error (.alreadyTerminal r.status), w) := by
  cases op with
  | start => exact byId_of_terminal (.launch .start) h hr hover
  | resume => exact byId_of_terminal (.launch .resume) h hr hover
  | cancel reason => exact byId_of_terminal (e := e) (.cancel reason) h hr hover
  | complete taskId resolution =>
    obtain ⟨task, htask, rfl, hpending⟩ := hop
    have hget : (get : Attempt σ (World σ)) w = (.ok w, w) := rfl
    have hopen : ¬ task.status.isTerminal := by
      rw [hpending]
      exact Bool.false_ne_true
    rw [run, completeTask, bind_of_ok hget, htask]
    simp only [if_neg hopen]
    rw [bind_of_ok (record_of_stored h hr)]
    simp only [if_pos hover]
    rfl

/-- A case that has ended stays in the store as it is. -/
theorem Sees.kept {w₀ : World σ} (h : e.Sees id w₀ w) (hr : w₀.store.record? id = some r)
    (hover : r.status.isTerminal) : w.store.record? id = some r := by
  induction h with
  | opened => exact hr
  | operate _ op hop ih =>
    rcases op.fails_or_runs (e := e) hop with hfails | ⟨r', s, command, hruns⟩
    · exact hfails.spares.kept ih hover
    · obtain rfl : r' = r := Option.some.inj (hruns.stored.symm.trans ih)
      cases hruns.live.symm.trans hover
  | outage _ _ ih => exact ih
  | saveTemplate _ hsave ih =>
    rw [Store.record?, (World.Furnishes.saveTemplate hsave).records]
    exact ih
  | install _ c ih =>
    rw [Store.record?, (World.Furnishes.install c _).records]
    exact ih
  | meanwhile _ hw _ ih => exact hw.kept ih hover

end Ended

/-! ### Cancellation has the last word -/

/-- The session of a case that somebody has cancelled while the step was under way, whose execution
is broken off. -/
def brokenOffIn (s : Session σ) (step : Step) (w : World σ) (reason : String) (now later : Time) :
    Session σ :=
  let begun := (s.directed (some step.id)).begun step
  (Session.settled ⟨begun.record.withdrawn reason now later, w⟩ s.record.executions.length
    (·.fail "Cancelled during execution")).saved

section BrokenOff

variable (s : Session σ) (step : Step) (w : World σ) (reason : String) (now later : Time)

theorem brokenOffIn_executions : (brokenOffIn s step w reason now later).record.executions =
    s.record.executions ++ [((s.directed (some step.id)).execution step).fail
      "Cancelled during execution" (w.clock w.readings)] :=
  Visit.modify_length_append _ _ _

theorem brokenOffIn_surroundings :
    (brokenOffIn s step w reason now later).world.surroundings = w.surroundings := by
  rfl

theorem brokenOffIn_stored : (brokenOffIn s step w reason now later).Stored :=
  Session.saved_stored _

theorem brokenOffIn_id : (brokenOffIn s step w reason now later).record.id = s.record.id := by
  -- One move at a time, as the whole chain would be unfolded at once otherwise.
  have hsaved (s : Session σ) : s.saved.record.id = s.record.id := rfl
  have hsettled (s : Session σ) (place : Nat) (f : Execution → Time → Execution) :
      (s.settled place f).record.id = s.record.id := rfl
  rw [brokenOffIn, hsaved, hsettled]
  rfl

theorem brokenOff_withdrawn (h : s.Numbered) :
    let begun := (s.directed (some step.id)).begun step
    Session.brokenOff ⟨begun.record.withdrawn reason now later, w⟩ (s.world.ids s.world.drawn) =
      brokenOffIn s step w reason now later := by
  intro begun
  exact Session.brokenOff_of_last (s := ⟨begun.record.withdrawn reason now later, w⟩)
    (x := (s.directed (some step.id)).execution step) rfl (fun _ hy => h.new hy) rfl

end BrokenOff

/-- What a command comes to whose run is at the point when somebody cancels the case while the step
is under way. -/
structure Prevails (e : Engine σ) (t : Template) (s : Session σ) (launch : Launch) (p : Point σ)
    (step : Step) (reason : String) (now : Time) (final : Except EngineError Unit × Session σ) :
    Prop where
  result : final.1 = .ok ()
  calls : ∃ log, e.CallsUpTo t s launch p log ∧ e.calls launch s = log ++
    [⟨step, (p.session.directed (some step.id)).execution step,
      ((p.session.directed (some step.id)).begun step).record⟩]
  surroundings : final.2.world.surroundings = (e.worldBehind step p.session).surroundings
  stored : final.2.world.store.record? p.session.record.id = some final.2.record
  status : final.2.record.status = .cancelled
  error : final.2.record.error = some reason
  completedAt : final.2.record.completedAt = some now
  brokenOff : ∃ x, final.2.record.executions = p.session.record.executions ++ [x] ∧
    x.stepId = step.id ∧ x.status = .failed ∧ x.error = some "Cancelled during execution" ∧
    x.output = none
  settled : ∀ x ∈ final.2.record.executions, x.status ≠ .running
  refused : ∀ {w}, e.Sees p.session.record.id final.2.world w → w.outage = none →
    ∀ op : Operation, op.Pends p.session.record.id w →
      op.run e p.session.record.id w = (.error (.alreadyTerminal .cancelled), w)

/-- A cancellation that comes while a step is under way prevails, whatever the executor replies. -/
theorem cancellation_prevails {reason : String} {now : Time} (he : e.registry.Calm)
    (hdraws : e.registry.Draws) (hcalm : s.world.outage = none) (ht : s.Bound t)
    (hnumbered : s.Numbered) (hnew : s.record.status = .notStarted → s.record.executions = [])
    (hp : e.RunsThrough t s launch p) (hleft : 0 < p.left) (hnext : p.next = some step.id)
    (hstep : step ∈ t.steps) (hwithdraws : e.Withdraws step p.session reason now) :
    e.Prevails t s launch p step reason now (launch.act e s) := by
  have hsteady := hp.steady he hcalm hnew
  have hunderway := hsteady.underway
  have hnumbered := hp.numbered he hdraws hcalm ht hnumbered
  have hexecutor := hwithdraws.contains hunderway
  obtain ⟨later, hstored⟩ := hwithdraws
  have hact : launch.act e s =
      (.ok (), brokenOffIn p.session step (e.worldBehind step p.session) reason now later) := by
    rw [hp.act_of_cancelledAs he hcalm ht hunderway hleft hnext hstep hexecutor ⟨hstored, rfl⟩,
      brokenOff_withdrawn _ _ _ _ _ _ hnumbered]
  have hcalls := hp.calls_of_cancelledAs he hcalm ht hunderway hleft hnext hstep hexecutor
    ⟨hstored, rfl⟩
  rw [hact]
  have hexecutions :=
    brokenOffIn_executions p.session step (e.worldBehind step p.session) reason now later
  have hstored :=
    brokenOffIn_stored p.session step (e.worldBehind step p.session) reason now later
  rw [Session.Stored, brokenOffIn_id] at hstored
  refine ⟨rfl, hcalls, brokenOffIn_surroundings .., hstored, rfl, rfl, rfl,
    ⟨_, hexecutions, rfl, rfl, rfl, rfl⟩, ?_, ?_⟩
  · rw [hexecutions]
    refine List.forall_mem_append.2 ⟨hsteady.settled, List.forall_mem_singleton.2 ?_⟩
    intro hrunning
    cases hrunning
  · exact fun hsees hw op hop => op.run_of_terminal hw (hsees.kept hstored rfl) rfl hop

namespace Withdrawal

def assess : Step := ⟨"assess", "Assessment", .calculation, 1, none, true, none, none⟩

/-- The claim is about to be assessed. -/
def submitted : Point Unit := ⟨1000, false, some "assess", startedAt opened assess⟩

theorem runsThrough : engine.RunsThrough template opened .start submitted := by
  have hordered : template.ordered = [assess] := List.mergeSort_singleton _
  exact ⟨submitted, .start rfl hordered, .here submitted⟩

theorem withdraws : engine.Withdraws assess submitted.session "withdrawn" ⟨5⟩ := by
  let begun := (submitted.session.directed (some "assess")).begun assess
  have hstored : begun.Stored := Session.saved_stored _
  exact @withdraws_of_cancelById _ engine assess submitted.session begun.world rfl rfl hstored
    (some "withdrawn") rfl

end Withdrawal

open Withdrawal in
/-- The claim is withdrawn while it is assessed, and the assessment comes to nothing. -/
theorem cancellation_prevails_withdrawal :
    engine.Prevails Withdrawal.template opened .start submitted assess "withdrawn" ⟨5⟩
      (engine.start opened) := by
  have hbound : opened.Bound Withdrawal.template :=
    ⟨(Session.opened_fresh Withdrawal.template ()).template, by rfl⟩
  have hids : Function.Injective opened.world.ids := by
    intro m n h
    cases h
    rfl
  exact cancellation_prevails calm (Registry.Spares.draws (spares ⟨0⟩)) rfl hbound ⟨hids, nofun⟩
    (fun _ => rfl) runsThrough (by decide) rfl (by decide) withdraws

end Engine

end Casework
