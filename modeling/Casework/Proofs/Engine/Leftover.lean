import Casework.Proofs.Engine.Coherence
import Casework.Proofs.Engine.Interruption
import Mathlib.Data.List.Infix

/-!
# What an interruption leaves behind

Whoever is interrupted while a step is under way leaves the case running in the store, with the last
execution still under way. A case that goes on from there marks the execution as failed first, and
whatever the run then comes to, no execution is left under way. But a case that is cancelled ends as
it is, and so does one that is resumed without a step to go on with: for want of a valid template,
for want of the step in the template, or because all steps are done. In these the execution stays
under way for good.
-/

namespace Casework

variable {σ : Type}

/-- An execution that was under way may have failed since, but none begins to wait. -/
theorem Execution.ne_pending_of_forall₂ {es es' : List Execution} (h : es.Forall₂ Matures es')
    (hes : ∀ x ∈ es, x.status ≠ .pending) : ∀ x ∈ es', x.status ≠ .pending := by
  induction h with
  | nil => exact hes
  | cons hmatures _ ih =>
    obtain ⟨hx, hes⟩ := List.forall_mem_cons.1 hes
    refine List.forall_mem_cons.2 ⟨?_, ih hes⟩
    cases hmatures with
    | kept => exact hx
    | failed => exact nofun

namespace CaseRecord

/-- No execution is waiting or under way. -/
def Cleared (r : CaseRecord) : Prop := ∀ x ∈ r.executions, x.status.Finished

/-- If the case was interrupted, no more than its last execution is still under way. -/
structure Interruptible (r : CaseRecord) : Prop where
  earlier : ∀ x ∈ r.executions.dropLast, x.status.Finished
  last : ∀ x, r.executions.getLast? = some x →
    x.status.Finished ∨ r.status = .running ∧ x.status = .running

variable {r r' : CaseRecord}

theorem cleared_iff_marks : r.Cleared ↔ Execution.AllFinished r.gist.marks := by
  simp [Cleared, Execution.AllFinished, Gist.marks, gist, Execution.gist, Execution.Gist.mark]

theorem cleared_of_marks (h : r'.gist.marks = r.gist.marks) (hr : r.Cleared) : r'.Cleared := by
  rw [cleared_iff_marks, h]
  exact cleared_iff_marks.1 hr

theorem cleared_congr (h : r'.executions = r.executions) : r'.Cleared ↔ r.Cleared := by
  rw [Cleared, Cleared, h]

theorem Cleared.interruptible (h : r.Cleared) : r.Interruptible where
  earlier x hx := h x (List.mem_of_mem_dropLast hx)
  last x hx := .inl (h x (List.mem_of_getLast? hx))

namespace Interruptible

theorem of_mem (h : r.Interruptible) {x : Execution} (hx : x ∈ r.executions) :
    x.status.Finished ∨ r.status = .running ∧ x.status = .running := by
  obtain ⟨last, hlast⟩ : ∃ last, r.executions.getLast? = some last :=
    Option.ne_none_iff_exists'.1 fun hnone => by
      rw [List.getLast?_eq_none_iff.1 hnone] at hx
      cases hx
  rw [← List.dropLast_append_getLast? last hlast, List.mem_append, List.mem_singleton] at hx
  rcases hx with hx | rfl
  · exact .inl (h.earlier x hx)
  · exact h.last x hlast

theorem ne_pending (h : r.Interruptible) {x : Execution} (hx : x ∈ r.executions) :
    x.status ≠ .pending := by
  rcases h.of_mem hx with hfinished | ⟨-, hrunning⟩
  · exact hfinished.1
  · rw [hrunning]
    exact nofun

/-- Only a case that is running was interrupted. -/
theorem running_or_cleared (h : r.Interruptible) : r.status = .running ∨ r.Cleared := by
  by_cases hrunning : r.status = .running
  · exact .inl hrunning
  · exact .inr fun x hx => (h.of_mem hx).resolve_right fun hx => hrunning hx.1

end Interruptible

end CaseRecord

/-- Once the case has ended in the store, none of its executions is waiting or under way. -/
def World.EndsCleared (id : Id) (w : World σ) : Prop :=
  ∀ r, w.store.record? id = some r → r.status.isTerminal → r.Cleared

namespace World

variable {id : Id} {w w' : World σ} {r : CaseRecord}

theorem endsCleared_iff_of_stored (hr : w.store.record? id = some r) :
    w.EndsCleared id ↔ (r.status.isTerminal → r.Cleared) := by
  refine ⟨fun h => h r hr, fun h r' hr' => ?_⟩
  obtain rfl := Option.some.inj (hr.symm.trans hr')
  exact h

theorem endsCleared_of_live (hr : w.store.record? id = some r)
    (hlive : r.status.isTerminal = false) : w.EndsCleared id := by
  rw [endsCleared_iff_of_stored hr, hlive]
  exact nofun

/-- Whoever cancels the case leaves its executions as they are. -/
theorem endsCleared_of_spares (hw : w.Spares id w') (hr : w.store.record? id = some r)
    (hlive : r.status.isTerminal = false) (hcleared : r.Cleared) : w'.EndsCleared id := by
  rcases hw.record with hsame | ⟨r', reason, now, later, hr', -, hwithdrawn⟩
  · exact endsCleared_of_live (hsame.trans hr) hlive
  · obtain rfl := Option.some.inj (hr'.symm.trans hr)
    exact (endsCleared_iff_of_stored hwithdrawn).2 fun _ => hcleared

end World

namespace Session

/-- The case is in the store, and none of its executions is waiting or under way. -/
structure Clears (id : Id) (s : Session σ) : Prop where
  id : s.record.id = id
  stored : s.Stored
  cleared : s.record.Cleared

/-- The case has ended in the store, with the executions that were on record before. -/
structure EndsAsIs (r : CaseRecord) (s : Session σ) : Prop where
  id : s.record.id = r.id
  stored : s.Stored
  ended : s.record.status.isTerminal
  executions : s.record.executions = r.executions

variable {id : Id} {s : Session σ}

theorem Clears.endsCleared (h : s.Clears id) : s.world.EndsCleared id := by
  have hstored : s.world.store.record? id = some s.record := h.id ▸ h.stored
  exact (World.endsCleared_iff_of_stored hstored).2 fun _ => h.cleared

theorem EndsAsIs.endsCleared_iff_cleared {r : CaseRecord} (h : s.EndsAsIs r) :
    s.world.EndsCleared r.id ↔ r.Cleared := by
  have hstored : s.world.store.record? r.id = some s.record := h.id ▸ h.stored
  rw [World.endsCleared_iff_of_stored hstored, forall_prop_of_true h.ended,
    CaseRecord.cleared_congr h.executions]

theorem Clears.of_endsAsIs {s' : Session σ} (h : s.Clears id) (hends : s'.EndsAsIs s.record) :
    s'.Clears id where
  id := hends.id.trans h.id
  stored := hends.stored
  cleared := (CaseRecord.cleared_congr hends.executions).2 h.cleared

/-- There is a step in the template of the case for it to go on with. -/
def GoesOn (s : Session σ) : Prop :=
  ∃ t id, s.Bound t ∧ s.record.currentStep = some id ∧ (t.step? id).isSome

end Session

namespace Engine

variable {e : Engine σ} {t : Template} {s s' : Session σ} {launch : Launch} {id : Id} {w : World σ}
  {r : CaseRecord}

/-! ### Runs -/

/-- A visit leaves no execution under way, even if somebody cancels the case meanwhile. -/
theorem visit_clears (he : e.registry.Calm) (hspares : e.registry.Spares id) (g : StepGraph)
    (step : Step) (h : s.Underway) (hid : s.record.id = id) (hnumbered : s.Numbered)
    (hcleared : s.record.Cleared) (viaFailure : Bool) :
    (e.visit g step viaFailure s).2.Clears id := by
  rcases visit_leads_or_brokenOff he g step h viaFailure with
    hleads | ⟨r, hexecutor, hr, hbroken⟩
  · refine ⟨(CaseRecord.id_eq_of_origin hleads.continues.origin).trans hid,
      hleads.continues.stored, ?_⟩
    rw [CaseRecord.cleared_iff_marks, hleads.gist]
    exact CaseRecord.Gist.visit_allFinished _ (CaseRecord.cleared_iff_marks.1 hcleared)
  · obtain ⟨reason, now, later, rfl⟩ :=
      withdrawn_of_cancelledAs (hid ▸ hspares) h hexecutor hr
    have hexecutions :=
      brokenOffIn_executions s step (e.worldBehind step s) reason now later
    rw [hbroken, brokenOff_withdrawn _ _ _ _ _ _ hnumbered]
    refine ⟨(brokenOffIn_id ..).trans hid, brokenOffIn_stored .., ?_⟩
    rw [CaseRecord.Cleared, hexecutions]
    exact List.forall_mem_append.2 ⟨hcleared, List.forall_mem_singleton.2 ⟨nofun, nofun⟩⟩

/-- So does a run, whatever it comes to. -/
theorem run_clears (he : e.registry.Calm) (hspares : e.registry.Spares id) (h : s.Underway)
    (hid : s.record.id = id) (hnumbered : s.Numbered) (hcleared : s.record.Cleared)
    (t : Template) (first : String) : (e.run t first s).2.Clears id := by
  refine runFrom_rule he
    (fun _ _ s' => s'.record.id = id ∧ s'.Numbered ∧ s'.record.Cleared) (Session.Clears id) ?_ ?_ ?_
    _ h ⟨hid, hnumbered, hcleared⟩
  · rintro _ step viaFailure s h - ⟨hid, hnumbered, hcleared⟩
    have hclears :=
      visit_clears he hspares (.ofTemplate t) step h hid hnumbered hcleared viaFailure
    match hvisit : e.visit (.ofTemplate t) step viaFailure s with
    | (.error err, s') =>
      rw [hvisit] at hclears
      exact hclears
    | (.ok .stop, s') =>
      rw [hvisit] at hclears
      exact hclears
    | (.ok (.goOn next via), s') =>
      rw [hvisit] at hclears
      exact ⟨hclears.id, visit_numbered he hspares.draws h hnumbered hvisit, hclears.cleared⟩
  · exact fun _ hway => ⟨hway.1, Session.saved_stored _, hway.2.2⟩
  · exact fun _ _ hway => ⟨hway.1, Session.failed_stored .., hway.2.2⟩

/-! ### Commands -/

/-- Whoever resumes the case marks what was interrupted as failed. -/
theorem resumedAt_cleared (h : ∀ x ∈ s.record.executions, x.status ≠ .pending) :
    (resumedAt s).record.Cleared := by
  obtain ⟨executions, readings, -, hmended, hmatures, hsettled⟩ := mended_eq s
  have hpending := Execution.ne_pending_of_forall₂ hmatures h
  rw [resumedAt, hmended]
  split <;> exact fun x hx => ⟨hpending x hx, hsettled x hx⟩

theorem Enters.cleared {p : Point σ} (h : e.Enters t s launch p)
    (hleft : s.record.Interruptible) : p.session.record.Cleared := by
  cases h with
  | start hnew =>
    rcases hleft.running_or_cleared with hrunning | hcleared
    · cases hnew.symm.trans hrunning
    · exact hcleared
  | resume => exact resumedAt_cleared fun _ hx => hleft.ne_pending hx

/-- A case that comes to run is cleared of what was interrupted. -/
theorem Enters.clears {left : Nat} {first : String} (he : e.registry.Calm)
    (hspares : e.registry.Spares id) (h : s.world.outage = none) (hid : s.record.id = id)
    (hnumbered : s.Numbered) (hleft : s.record.Interruptible) (ht : s.Bound t)
    (henters : e.Enters t s launch ⟨left, false, some first, s'⟩) :
    (launch.act e s).2.Clears id := by
  obtain rfl : left = e.config.maxVisits := henters.left_eq
  rw [henters.runOn_eq h ht]
  exact run_clears he hspares (henters.underway h)
    ((CaseRecord.id_eq_of_origin henters.origin).trans hid) (henters.numbered h ht hnumbered)
    (henters.cleared hleft) t first

theorem resume_clears (he : e.registry.Calm) (hspares : e.registry.Spares id)
    (h : s.world.outage = none) (hid : s.record.id = id) (hnumbered : s.Numbered)
    (hleft : s.record.Interruptible)
    (hstatus : s.record.status = .running ∨ s.record.status = .paused) (hgoesOn : s.GoesOn) :
    (e.resume s).2.Clears id := by
  obtain ⟨t, next, ht, hcurrent, hnext⟩ := hgoesOn
  exact Enters.clears he hspares h hid hnumbered hleft ht (.resume hstatus hcurrent hnext)

theorem failed_endsAsIs (s : Session σ) (message : String) :
    (s.failed message).EndsAsIs s.record :=
  ⟨rfl, Session.failed_stored .., rfl, rfl⟩

theorem completed_endsAsIs (s : Session σ) : s.completed.EndsAsIs s.record :=
  ⟨rfl, Session.saved_stored _, rfl, rfl⟩

theorem cancelled_endsAsIs (s : Session σ) (reason : Option String) :
    (cancelled s reason).EndsAsIs s.record :=
  ⟨rfl, Session.saved_stored _, rfl, rfl⟩

/-- A case without a step to go on with ends as it is. -/
theorem resume_endsAsIs (h : s.world.outage = none)
    (hstatus : s.record.status = .running ∨ s.record.status = .paused) (hends : ¬ s.GoesOn) :
    (e.resume s).2.EndsAsIs s.record := by
  have haccepts : Launch.resume.accepts s.record.status := by
    rcases hstatus with hstatus | hstatus <;> rw [hstatus] <;> rfl
  rcases bound_or_fails h (Launch.resume.live_of_accepts haccepts) with
    ⟨t, ht⟩ | ⟨err, -, htemplate⟩
  · rw [resume_apply h hstatus ht]
    cases hcurrent : s.record.currentStep with
    | none => exact completed_endsAsIs s
    | some next =>
      by_cases hnext : (t.step? next).isNone
      · simp only [if_pos hnext]
        exact failed_endsAsIs s _
      · have hthere : (t.step? next).isSome := by
          rw [← Option.not_isNone, eq_false_of_ne_true hnext]
          rfl
        exact absurd ⟨t, next, ht, hcurrent, hthere⟩ hends
  · rw [show e.resume s = _ from Launch.resume.act_of_template_error haccepts htemplate]
    exact failed_endsAsIs s _

/-- What a command finds cleared, it leaves so. -/
theorem Command.clears (he : e.registry.Calm) (hspares : e.registry.Spares id) (command : Command)
    (h : s.world.outage = none) (hnumbered : s.Numbered) (hclears : s.Clears id) :
    (command.act e s).2.Clears id := by
  cases command with
  | cancel reason =>
    rw [act]
    cases hlive : s.record.status.isTerminal with
    | true =>
      rw [cancel_of_terminal hlive]
      exact hclears
    | false =>
      rw [cancel_apply h hlive]
      exact hclears.of_endsAsIs (cancelled_endsAsIs s reason)
  | launch launch =>
    rcases launch.act_cases h with ⟨final, hact, hfinal⟩ | ⟨t, first, s', ht, henters⟩
    · rw [act, hact e]
      rcases hfinal with ⟨err, -, rfl⟩ | ⟨err, -, rfl⟩ | rfl
      · exact hclears
      · exact hclears.of_endsAsIs (failed_endsAsIs s _)
      · exact hclears.of_endsAsIs (completed_endsAsIs s)
    · exact (henters e).clears he hspares h hclears.id hnumbered hclears.cleared.interruptible ht

/-! ### Operations -/

/-- The operation ends the case, if at all, without a look at what was interrupted. -/
def Operation.Overlooks (s : Session σ) : Operation → Prop
  | .cancel _ => True
  | .resume => ¬ s.GoesOn
  | .start | .complete _ _ => False

namespace Operation

variable {op : Operation} {r' : CaseRecord}

theorem Readies.recordId (h : op.Readies r r') : r'.id = r.id := by
  cases op with
  | complete taskId resolution =>
    obtain ⟨-, task, -, rfl⟩ := h
    rfl
  | start | resume | cancel => rw [show r' = r from h]

theorem Readies.ids (h : op.Readies r r') :
    r'.executions.map (·.id) = r.executions.map (·.id) := by
  cases op with
  | complete taskId resolution =>
    obtain ⟨-, task, -, rfl⟩ := h
    exact completeTask.ids_amend task r.executions
  | start | resume | cancel => rw [show r' = r from h]

theorem Readies.cleared (h : op.Readies r r') (hr : r.Cleared) : r'.Cleared := by
  cases op with
  | complete taskId resolution =>
    obtain ⟨-, task, -, rfl⟩ := h
    refine CaseRecord.cleared_of_marks ?_ hr
    simp only [CaseRecord.Gist.marks, CaseRecord.gist, List.map_map]
    exact Session.amend_marks task r.executions
  | start | resume | cancel => rwa [show r' = r from h]

/-- What an operation finds cleared, it leaves so. -/
theorem endsCleared_of_cleared (he : e.registry.Calm) (hspares : e.registry.Spares id)
    (hop : op.Concerns id w) (hcalm : w.outage = none) (hr : w.store.record? id = some r)
    (hnumbered : Session.Numbered ⟨r, w⟩) (hlive : r.status.isTerminal = false)
    (hcleared : r.Cleared) : (op.run e id w).2.EndsCleared id := by
  rcases op.fails_or_runs (e := e) hop with hfails | ⟨r', s, command, hruns⟩
  · exact World.endsCleared_of_spares hfails.spares hr hlive hcleared
  · obtain rfl := Option.some.inj (hr.symm.trans hruns.stored)
    have hid : s.record.id = id := hruns.readied.recordId.trans (Register.key_of_find? hr)
    have hclears : s.Clears id :=
      ⟨hid, by rw [Session.Stored, hid]; exact hruns.saved, hruns.readied.cleared hcleared⟩
    have hnumbered : s.Numbered := hnumbered.of_ids hruns.ids hruns.drawn.ge hruns.readied.ids
    rw [hruns.result]
    exact (command.clears he hspares (hruns.calm hcalm) hnumbered hclears).endsCleared

/-- Where it is not overlooked, what was interrupted is marked as failed, or the case goes on. -/
theorem endsCleared_of_interrupted (he : e.registry.Calm) (hspares : e.registry.Spares id)
    (hop : op.Concerns id w) (hcalm : w.outage = none) (hr : w.store.record? id = some r)
    (hnumbered : Session.Numbered ⟨r, w⟩) (hrunning : r.status = .running)
    (hleft : r.Interruptible) (hlooks : ¬ op.Overlooks ⟨r, w⟩) :
    (op.run e id w).2.EndsCleared id := by
  have hlive : r.status.isTerminal = false := by
    rw [hrunning]
    rfl
  have hkept := World.endsCleared_of_live hr hlive
  cases op with
  | start =>
    have hstarted : r.status ≠ .notStarted := by
      rw [hrunning]
      exact nofun
    rw [run, startById_world hcalm hr, start_of_started (s := ⟨r, w⟩) hstarted]
    exact hkept
  | resume =>
    rw [run, resumeById_world hcalm hr]
    exact (resume_clears (s := ⟨r, w⟩) he hspares hcalm (Register.key_of_find? hr) hnumbered hleft
      (.inl hrunning) (not_not.1 hlooks)).endsCleared
  | cancel => exact absurd trivial hlooks
  | complete taskId resolution =>
    obtain ⟨outage, -, ⟨err, -, hdenied⟩ | ⟨task, r', htask, hr', hpaused, -⟩⟩ :=
      completeTask_saves_cases (e := e) taskId resolution w
    · rw [run, hdenied]
      exact hkept
    · rw [hop task htask] at hr'
      obtain rfl := Option.some.inj (hr.symm.trans hr')
      cases hrunning.symm.trans hpaused

/-- Where it is overlooked, the case ends as it was interrupted. -/
theorem endsCleared_iff_of_overlooks (hcalm : w.outage = none)
    (hr : w.store.record? id = some r) (hrunning : r.status = .running)
    (hover : op.Overlooks ⟨r, w⟩) : (op.run e id w).2.EndsCleared id ↔ r.Cleared := by
  obtain rfl : r.id = id := Register.key_of_find? hr
  cases op with
  | start | complete => exact hover.elim
  | resume =>
    rw [run, resumeById_world hcalm hr]
    exact (resume_endsAsIs (s := ⟨r, w⟩) hcalm (.inl hrunning) hover).endsCleared_iff_cleared
  | cancel reason =>
    have hlive : r.status.isTerminal = false := by
      rw [hrunning]
      rfl
    rw [run, cancelById_world hcalm hr, cancel_apply (s := ⟨r, w⟩) hcalm hlive]
    exact (cancelled_endsAsIs ⟨r, w⟩ reason).endsCleared_iff_cleared

end Operation

end Engine

/-! ### A delivery that is interrupted -/

namespace Delivery

open Engine

/-- A delivery that has been drafted, but can still be changed. -/
def draft : Template := { template with publishedAt := none }

/-- Once the executor has replied, the store does not tell whether the case has been cancelled. -/
def interrupted : Session Unit :=
  let s : Session Unit := .opened draft ()
  ((engine true).start { s with world := { s.world with outage := some ⟨.loadStatus, 1⟩ } }).2

/-- The draft without anything to deliver. -/
def redraft : Template := { draft with steps := [inform] }

/-- Somebody has saved the draft anew. -/
def redrafted : World Unit :=
  let store := interrupted.world.store
  { interrupted.world with
    store := { store with templates := store.templates.insert redraft } }

/-- The delivery has started, and the second look for a cancellation will be in vain. -/
def unwatched : Session Unit :=
  let s : Session Unit := .opened draft ()
  startedAt { s with world := { s.world with outage := some ⟨.loadStatus, 1⟩ } } deliver

theorem interrupted_eq : interrupted =
    ((engine true).runFrom ⟨[deliver, inform]⟩ 1000 false "deliver" unwatched).2 := by
  have hordered : draft.ordered = [deliver, inform] := ordered_eq
  have hrun := run_eq_runFrom (e := engine true) hordered "deliver"
  rw [interrupted, start_of_template (t := draft) rfl rfl, hordered]
  exact congrArg (fun act => (act unwatched).2) hrun

theorem spares (staffed : Bool) (id : Id) : (engine staffed).registry.Spares id := by
  intro type x hx step execution record w
  obtain ⟨r, rfl⟩ := answering_of_executor hx
  exact ⟨rfl, Nat.le_refl _, .inl rfl⟩

theorem interrupted_stored :
    interrupted.world.store.record? ⟨0⟩ = some interrupted.record := by
  rw [interrupted_eq]
  rfl

theorem interrupted_calm : interrupted.world.outage = none := by
  rw [interrupted_eq]
  rfl

theorem interrupted_running : interrupted.record.status = .running := by
  rw [interrupted_eq]
  rfl

/-- The delivery is still under way. -/
theorem interrupted_executions : ∃ x : Execution,
    interrupted.record.executions = [x] ∧ x.id = ⟨1⟩ ∧ x.status = .running := by
  have hmarks : interrupted.record.executions.map (fun x => (x.id, x.status)) =
      [(⟨1⟩, .running)] := by
    rw [interrupted_eq]
    rfl
  obtain ⟨x, hx, hmark⟩ := List.map_eq_singleton_iff.1 hmarks
  obtain ⟨hid, hstatus⟩ := Prod.mk.inj hmark
  exact ⟨x, hx, hid, hstatus⟩

theorem interrupted_interruptible : interrupted.record.Interruptible := by
  obtain ⟨x, hx, -, hrunning⟩ := interrupted_executions
  constructor
  · rw [hx, List.dropLast_singleton]
    exact List.forall_mem_nil _
  · rw [hx]
    intro y hy
    obtain rfl := Option.some.inj hy
    exact .inr ⟨interrupted_running, hrunning⟩

theorem interrupted_not_cleared : ¬ interrupted.record.Cleared := by
  intro hcleared
  obtain ⟨x, hx, -, hrunning⟩ := interrupted_executions
  exact (hcleared x (by rw [hx]; exact List.mem_singleton_self x)).2 hrunning

theorem interrupted_numbered : interrupted.Numbered := by
  obtain ⟨x, hx, hid, -⟩ := interrupted_executions
  have hsupply : interrupted.world.ids = (⟨·⟩) ∧ interrupted.world.drawn = 2 := by
    rw [interrupted_eq]
    exact ⟨rfl, rfl⟩
  obtain ⟨hids, hdrawn⟩ := hsupply
  constructor
  · rw [hids]
    intro m n h
    cases h
    rfl
  · rw [hx, hids, hdrawn]
    intro id hmem
    exact ⟨1, by decide, (List.mem_singleton.1 hmem).trans hid⟩

theorem interrupted_currentStep : interrupted.record.currentStep = some "deliver" := by
  rw [interrupted_eq]
  rfl

theorem interrupted_bound : interrupted.Bound draft := by
  rw [interrupted_eq]
  exact ⟨rfl, rfl⟩

theorem redraft_saved : interrupted.world.store.saveTemplate redraft = .ok redrafted.store := by
  have hdraft : interrupted.world.store.template? redraft.id redraft.version = some draft := by
    rw [interrupted_eq]
    rfl
  rw [Store.saveTemplate, hdraft]
  rfl

theorem redrafted_calm : redrafted.outage = none := interrupted_calm

theorem redrafted_stored : redrafted.store.record? ⟨0⟩ = some interrupted.record :=
  interrupted_stored

theorem redrafted_bound : Session.Bound ⟨interrupted.record, redrafted⟩ redraft := by
  have hkey : (redraft.id, redraft.version) =
      (interrupted.record.templateId, interrupted.record.templateVersion) := by
    rw [interrupted_eq]
    rfl
  have hfound := Register.find?_insert interrupted.world.store.templates redraft
    (interrupted.record.templateId, interrupted.record.templateVersion)
  rw [if_pos hkey] at hfound
  exact ⟨hfound, rfl⟩

end Delivery

/-! ### Which operations leave nothing behind -/

namespace Engine

variable {e : Engine σ} {id : Id} {w : World σ} {r : CaseRecord}

/-- No execution is left under way where an operation ends a case that may have been interrupted,
unless one was under way before and the operation overlooks it. -/
theorem endsCleared_iff (he : e.registry.Calm) (hspares : e.registry.Spares id) {op : Operation}
    (hop : op.Concerns id w) (hcalm : w.outage = none) (hr : w.store.record? id = some r)
    (hnumbered : Session.Numbered ⟨r, w⟩) (hlive : r.status.isTerminal = false)
    (hleft : r.Interruptible) :
    (op.run e id w).2.EndsCleared id ↔ r.Cleared ∨ ¬ op.Overlooks ⟨r, w⟩ := by
  have hkeeps := op.endsCleared_of_cleared he hspares hop hcalm hr hnumbered hlive
  rcases hleft.running_or_cleared with hrunning | hcleared
  · constructor
    · intro hends
      rw [or_iff_not_imp_right, not_not]
      intro hover
      exact (Operation.endsCleared_iff_of_overlooks hcalm hr hrunning hover).1 hends
    · rintro (hcleared | hlooks)
      · exact hkeeps hcleared
      · exact Operation.endsCleared_of_interrupted he hspares hop hcalm hr hnumbered hrunning hleft
          hlooks
  · exact ⟨fun _ => .inl hcleared, fun _ => hkeeps hcleared⟩

open Delivery in
/-- A delivery that was interrupted stays under way if it is cancelled, but not if it is resumed. -/
theorem endsCleared_iff_delivery :
    ¬ ((Operation.cancel none).run (engine true) ⟨0⟩ interrupted.world).2.EndsCleared ⟨0⟩ ∧
      (Operation.resume.run (engine true) ⟨0⟩ interrupted.world).2.EndsCleared ⟨0⟩ := by
  have hlive : interrupted.record.status.isTerminal = false := by
    rw [interrupted_running]
    rfl
  have hiff (op : Operation) (hop : op.Concerns ⟨0⟩ interrupted.world) :=
    endsCleared_iff (Registry.Discreet.calm (discreet true)) (spares true ⟨0⟩) hop interrupted_calm
      interrupted_stored interrupted_numbered hlive interrupted_interruptible
  refine ⟨fun hends => ?_, ?_⟩
  · rcases (hiff (.cancel none) trivial).1 hends with hcleared | hlooks
    · exact interrupted_not_cleared hcleared
    · exact hlooks trivial
  · refine (hiff .resume trivial).2 (.inr (not_not.2 ?_))
    exact ⟨draft, "deliver", interrupted_bound, interrupted_currentStep, rfl⟩

open Delivery in
/-- If the step is no longer there, the case fails, and the delivery is left under way. -/
theorem resume_not_endsCleared_delivery :
    interrupted.world.store.saveTemplate redraft = .ok redrafted.store ∧
      redrafted.store.record? ⟨0⟩ = some interrupted.record ∧
      interrupted.record.status = .running ∧ interrupted.record.Interruptible ∧
      (Operation.resume.run (engine true) ⟨0⟩ redrafted).2.store.status? ⟨0⟩ = some .failed ∧
      ¬ (Operation.resume.run (engine true) ⟨0⟩ redrafted).2.EndsCleared ⟨0⟩ := by
  have hresume : (Operation.resume.run (engine true) ⟨0⟩ redrafted).2 =
      ((Session.mk interrupted.record redrafted).failed
        (EngineError.danglingStep "deliver").message).world := by
    rw [Operation.run, resumeById_world redrafted_calm redrafted_stored,
      resume_apply (s := ⟨interrupted.record, redrafted⟩) redrafted_calm (.inl interrupted_running)
        redrafted_bound, interrupted_currentStep]
    rfl
  have hid : interrupted.record.id = ⟨0⟩ := Register.key_of_find? interrupted_stored
  have hfailed := Session.failed_stored ⟨interrupted.record, redrafted⟩
    (EngineError.danglingStep "deliver").message
  refine ⟨redraft_saved, redrafted_stored, interrupted_running, interrupted_interruptible, ?_, ?_⟩
  · rw [hresume, Store.status?, ← hid]
    exact congrArg (Option.map (·.status)) hfailed
  · rw [hresume, ← hid, (failed_endsAsIs ⟨interrupted.record, redrafted⟩ _).endsCleared_iff_cleared]
    exact interrupted_not_cleared

end Engine

end Casework
