import Casework.Proofs.Engine.Launch
import Casework.Proofs.Template.Order

/-!
# Driving a case

A case is driven by starting it, by resuming it and by completing its tasks, in any order and each
time with the record that the store has. Whatever holds of a new case and is kept by visits, holds of
the stored record between any two of these. `Invariant` lists what has to be shown for that.
-/

namespace Casework

variable {σ : Type}

/-! ### Cases at rest -/

namespace Session

/-- A case between two runs, of which none was interrupted. -/
structure Resting (s : Session σ) (t : Template) : Prop where
  calm : s.world.outage = none
  stored : s.Stored
  bound : s.Bound t
  finished : Execution.AllFinished s.record.gist.marks
  settled : s.record.status ≠ .running
  untouched : s.record.status = .notStarted → s.record.gist.marks = []

theorem Fresh.resting {s : Session σ} {t : Template} {data : Dictionary String}
    (h : s.Fresh t data) (ht : t.validate = .ok ()) : s.Resting t where
  calm := h.calm
  stored := h.stored
  bound := ⟨h.template, ht⟩
  finished := by
    rw [h.marks]
    exact nofun
  settled := by
    rw [h.status]
    exact nofun
  untouched _ := h.marks

theorem Resting.aside {r : CaseRecord} {w w' : World σ} {t : Template}
    (h : Resting ⟨r, w⟩ t) (hrecord : w'.store.record? r.id = w.store.record? r.id)
    (haside : w.surroundings.Aside w'.surroundings) : Resting ⟨r, w'⟩ t where
  calm := haside.outage.trans h.calm
  stored := hrecord.trans h.stored
  bound := ⟨by rw [Store.template?, haside.templates]; exact h.bound.1, h.bound.2⟩
  finished := h.finished
  settled := h.settled
  untouched := h.untouched

/-- The session in which a task has been resolved, with the resolution in the output of its
execution. -/
def amended (s : Session σ) (task : CaseTask) : Session σ :=
  let r := { s.record with executions := Engine.completeTask.amend task s.record.executions }
  ⟨r, { s.ticked.world with store := (s.world.store.saveTask task).saveRecord r }⟩

theorem amend_marks (task : CaseTask) (es : List Execution) :
    (Engine.completeTask.amend task es).map (·.gist.mark) = es.map (·.gist.mark) := by
  rw [Engine.completeTask.amend]
  cases es.findIdx? fun e => e.id == task.executionId with
  | none => rfl
  | some place =>
    refine List.ext_getElem? fun i => ?_
    rw [List.getElem?_map, List.getElem?_map, List.getElem?_modify]
    cases es[i]? with
    | none => rfl
    | some e => by_cases h : place = i <;> simp [h, Execution.gist, Execution.Gist.mark]

theorem amended_marks (s : Session σ) (task : CaseTask) :
    (s.amended task).record.gist.marks = s.record.gist.marks := by
  simp only [CaseRecord.Gist.marks, CaseRecord.gist, List.map_map]
  exact amend_marks task s.record.executions

theorem Resting.amended {s : Session σ} {t : Template} (h : s.Resting t) (task : CaseTask) :
    (s.amended task).Resting t where
  calm := h.calm
  stored := Store.record?_saveRecord_self _ _
  bound := h.bound
  finished := by
    rw [amended_marks]
    exact h.finished
  settled := h.settled
  untouched := by
    rw [amended_marks]
    exact h.untouched

end Session

/-! ### What driving keeps -/

namespace Engine

open Work Casework.Action

/-- The engine keeps a property of cases at rest, by way of one of cases that are on the way to a
step or to the end. The surroundings may be assumed to have a property of their own. -/
structure Invariant (e : Engine σ) (t : Template) (K : Surroundings σ → Prop)
    (onTheWay : Option String → Bool → CaseRecord.Gist → Prop)
    (atRest : CaseRecord.Gist → Prop) : Prop where
  discreet : e.registry.Discreet
  surroundings : ∀ step s, K s.world.surroundings → K (e.worldBehind step s).surroundings
  aside : ∀ {u u'}, u.Aside u' → K u → K u'
  visit : ∀ {step viaFailure} {s : Session σ}, step ∈ t.steps → s.Underway → K s.world.surroundings →
    onTheWay (some step.id) viaFailure s.record.gist →
    Behind onTheWay atRest
      (s.record.gist.visit (.ofTemplate t) step viaFailure (e.encounter step s))
  complete : ∀ {viaFailure a}, onTheWay none viaFailure a →
    atRest { a with status := .completed, currentStep := none }
  fail : ∀ {id viaFailure a} message, onTheWay (some id) viaFailure a →
    atRest (a.failedWith message)
  opened : ∀ {a}, a.status = .notStarted → a.marks = [] → atRest a
  start : ∀ {a first others}, t.ordered = first :: others → a.marks = [] → atRest a →
    onTheWay (some first.id) false { a with status := .running, currentStep := some first.id }
  startEmpty : ∀ {a}, t.ordered = [] → a.marks = [] → atRest a →
    atRest { a with status := .completed, currentStep := none }
  resume : ∀ {a}, a.status = .paused → atRest a →
    onTheWay a.currentStep false { a with status := .running }
  amend : ∀ {a a'}, a'.status = a.status → a'.currentStep = a.currentStep → a'.marks = a.marks →
    atRest a → atRest a'

namespace Invariant

variable {e : Engine σ} {t : Template} {K : Surroundings σ → Prop}
  {onTheWay : Option String → Bool → CaseRecord.Gist → Prop} {atRest : CaseRecord.Gist → Prop}
  {id : Id} {s : Session σ}

/-- What holds of the session of a case at rest. -/
structure Kept (id : Id) (t : Template) (K : Surroundings σ → Prop)
    (atRest : CaseRecord.Gist → Prop) (s : Session σ) : Prop where
  id : s.record.id = id
  resting : s.Resting t
  surroundings : K s.world.surroundings
  gist : atRest s.record.gist

/-- What holds of the session of a case on the way. -/
structure Keeping (id : Id) (t : Template) (K : Surroundings σ → Prop)
    (onTheWay : Option String → Bool → CaseRecord.Gist → Prop) (next : Option String)
    (viaFailure : Bool) (s : Session σ) : Prop where
  id : s.record.id = id
  calm : s.world.outage = none
  stored : s.Stored
  bound : s.Bound t
  finished : Execution.AllFinished s.record.gist.marks
  surroundings : K s.world.surroundings
  gist : onTheWay next viaFailure s.record.gist

/-- A visit keeps what a session on the way has, or leaves it at rest. -/
theorem behind_visit (inv : Invariant e t K onTheWay atRest) {step : Step} {viaFailure : Bool}
    (h : s.Underway) (hstep : step ∈ t.steps)
    (hkeeping : Keeping id t K onTheWay (some step.id) viaFailure s) :
    Behind (Keeping id t K onTheWay) (Kept id t K atRest)
      (e.visit (.ofTemplate t) step viaFailure s) := by
  have hleads := @visit_leads σ e inv.discreet (.ofTemplate t) step s h.calm h.running viaFailure
  have hgist := behind_of_leads hleads
    (inv.visit hstep h hkeeping.surroundings hkeeping.gist)
  have hstatus := behind_of_leads hleads (CaseRecord.Gist.visit_status _ h.running)
  have hid := (CaseRecord.id_eq_of_origin hleads.continues.origin).trans hkeeping.id
  have hcalm := hleads.outage.trans ((worldBehind_outage inv.discreet step s).trans h.calm)
  have hbound := hkeeping.bound.of_origin hleads.continues.origin
    (hleads.templates.trans (worldBehind_templates inv.discreet step s))
  have hfinished : Execution.AllFinished
      (e.visit (.ofTemplate t) step viaFailure s).2.record.gist.marks := by
    rw [hleads.gist]
    exact CaseRecord.Gist.visit_allFinished _ hkeeping.finished
  have hsurroundings : K (e.visit (.ofTemplate t) step viaFailure s).2.world.surroundings := by
    rw [hleads.surroundings]
    exact inv.surroundings step s hkeeping.surroundings
  refine (hgist.and hstatus).imp ?_ ?_
  · intro next via hway
    exact ⟨hid, hcalm, hleads.continues.stored, hbound, hfinished, hsurroundings, hway.1⟩
  · intro hover
    refine ⟨hid, ⟨hcalm, hleads.continues.stored, hbound, hfinished, ?_, ?_⟩, hsurroundings,
      hover.1⟩
    · rcases hover.2 with hpaused | hfailed
      · exact fun hrunning => nomatch hpaused.symm.trans hrunning
      · exact fun hrunning => nomatch hfailed.symm.trans hrunning
    · rcases hover.2 with hpaused | hfailed
      · exact fun hnew => nomatch hpaused.symm.trans hnew
      · exact fun hnew => nomatch hfailed.symm.trans hnew

theorem kept_completed (hid : s.record.id = id) (hcalm : s.world.outage = none) (hbound : s.Bound t)
    (hfinished : Execution.AllFinished s.record.gist.marks) (hK : K s.world.surroundings)
    (hgist : atRest { s.record.gist with status := .completed, currentStep := none }) :
    Kept id t K atRest s.completed where
  id := hid
  resting := ⟨hcalm, Session.saved_stored _, hbound, hfinished, nofun, nofun⟩
  surroundings := hK
  gist := hgist

theorem kept_failed (hid : s.record.id = id) (hcalm : s.world.outage = none) (hbound : s.Bound t)
    (hfinished : Execution.AllFinished s.record.gist.marks) (hK : K s.world.surroundings)
    {message : String} (hgist : atRest (s.record.gist.failedWith message)) :
    Kept id t K atRest (s.failed message) where
  id := hid
  resting := ⟨hcalm, Session.failed_stored _ _, hbound, hfinished, nofun, nofun⟩
  surroundings := hK
  gist := hgist

/-- A run comes to rest. -/
theorem kept_run (inv : Invariant e t K onTheWay atRest) (h : s.Underway) {first : String}
    (hkeeping : Keeping id t K onTheWay (some first) false s) :
    Kept id t K atRest (e.run t first s).2 := by
  have hcalm : e.registry.Calm := Registry.Discreet.calm inv.discreet
  refine runFrom_rule hcalm (Keeping id t K onTheWay) (Kept id t K atRest) ?_ ?_ ?_ _ h hkeeping
  · intro stepId step viaFailure s h hid hkeeping
    obtain ⟨hstep, rfl⟩ := StepGraph.mem_of_step? hid
    exact inv.behind_visit h hstep hkeeping
  · intro viaFailure s h hkeeping
    exact kept_completed hkeeping.id h.calm hkeeping.bound hkeeping.finished hkeeping.surroundings
      (inv.complete hkeeping.gist)
  · intro stepId viaFailure s message h hkeeping
    exact kept_failed hkeeping.id h.calm hkeeping.bound hkeeping.finished hkeeping.surroundings
      (inv.fail message hkeeping.gist)

theorem kept_start (inv : Invariant e t K onTheWay atRest) (h : Kept id t K atRest s) :
    Kept id t K atRest (e.start s).2 := by
  by_cases hnew : s.record.status = .notStarted
  · rw [start_apply h.resting.calm hnew h.resting.bound]
    have hmarks := h.resting.untouched hnew
    cases hordered : t.ordered with
    | nil =>
      exact kept_completed h.id h.resting.calm h.resting.bound h.resting.finished h.surroundings
        (inv.startEmpty hordered hmarks h.gist)
    | cons first others =>
      have hunderway : (startedAt s first).Underway := Session.launched_underway h.resting.calm
      exact inv.kept_run hunderway ⟨h.id, h.resting.calm, hunderway.stored, h.resting.bound,
        h.resting.finished, h.surroundings, inv.start hordered hmarks h.gist⟩
  · rw [start_of_started hnew]
    exact h

theorem kept_resume (inv : Invariant e t K onTheWay atRest) (h : Kept id t K atRest s) :
    Kept id t K atRest (e.resume s).2 := by
  by_cases hpaused : s.record.status = .paused
  · have hway : ∀ next, s.record.currentStep = next →
        onTheWay next false { s.record.gist with status := .running } := by
      rintro _ rfl
      exact inv.resume hpaused h.gist
    rw [resume_of_paused h.resting.calm hpaused h.resting.finished h.resting.bound]
    cases hcurrent : s.record.currentStep with
    | none =>
      have hgist := inv.complete (hway none hcurrent)
      exact kept_completed h.id h.resting.calm h.resting.bound h.resting.finished h.surroundings hgist
    | some next =>
      by_cases hid : (t.step? next).isNone
      · have hgist := inv.fail (EngineError.danglingStep next).message (hway (some next) hcurrent)
        simp only [if_pos hid]
        exact kept_failed h.id h.resting.calm h.resting.bound h.resting.finished h.surroundings hgist
      · simp only [if_neg hid]
        refine inv.kept_run (Session.launched_underway h.resting.calm) ?_
        exact ⟨h.id, h.resting.calm, Session.saved_stored _, h.resting.bound, h.resting.finished,
          h.surroundings, hway (some next) hcurrent⟩
  · rw [resume_of_not_paused h.resting.settled hpaused]
    exact h

theorem kept_aside (inv : Invariant e t K onTheWay atRest) {r : CaseRecord} {w w' : World σ}
    (h : Kept id t K atRest ⟨r, w⟩) (hrecord : w'.store.record? id = w.store.record? id)
    (haside : w.surroundings.Aside w'.surroundings) : Kept id t K atRest ⟨r, w'⟩ where
  id := h.id
  resting := h.resting.aside (by rw [show r.id = id from h.id]; exact hrecord) haside
  surroundings := inv.aside haside h.surroundings
  gist := h.gist

theorem kept_amended (inv : Invariant e t K onTheWay atRest) (h : Kept id t K atRest s)
    (task : CaseTask) : Kept id t K atRest (s.amended task) where
  id := h.id
  resting := h.resting.amended task
  surroundings := inv.aside ⟨_, _, rfl⟩ h.surroundings
  gist := inv.amend (a := s.record.gist) rfl rfl (Session.amended_marks s task) h.gist

end Invariant

/-! ### Commands on the stored record -/

section Stored

variable {e : Engine σ} {id : Id} {w : World σ} {r : CaseRecord}

/-- A task of the case is refused, or resolved and the case resumed. -/
theorem completeTask_world (h : w.outage = none) (hr : w.store.record? id = some r) {taskId : Id}
    (hid : ∀ task, w.store.task? taskId = some task → task.recordId = id)
    (resolution : Resolution) : (e.completeTask taskId resolution w).2 = w ∨
      ∃ task, (e.completeTask taskId resolution w).2 =
        (e.resume (Session.amended ⟨r, w⟩ task)).2.world := by
  obtain ⟨outage, hcalm, ⟨_, -, hsame⟩ | ⟨task, r', htask, -, hr', -, -, hgoesOn⟩⟩ :=
    completeTask_cases (e := e) taskId resolution w
  · refine .inl ?_
    rw [hsame, hcalm h, ← h]
  · rw [hid task htask, hr] at hr'
    obtain rfl := Option.some.inj hr'
    refine .inr ⟨task.resolve resolution (w.clock w.readings), ?_⟩
    rw [hgoesOn, bind_of_ok (Attempt.saveRecord_of_no_outage (hcalm h) _), withRecord_world,
      hcalm h, ← h]
    rfl

end Stored

/-- The worlds that the stored case is driven to by starting it, by resuming it and by completing
its tasks. Meanwhile there may be work on other cases. -/
inductive Drives (e : Engine σ) (id : Id) (w : World σ) : World σ → Prop
  | done : Drives e id w w
  | start {w' : World σ} (h : Drives e id w w') : Drives e id w (e.startById id w').2
  | resume {w' : World σ} (h : Drives e id w w') : Drives e id w (e.resumeById id w').2
  | complete {w' : World σ} (h : Drives e id w w') {taskId : Id}
      (hid : ∀ task, w'.store.task? taskId = some task → task.recordId = id)
      (resolution : Resolution) : Drives e id w (e.completeTask taskId resolution w').2
  | meanwhile {w' w'' : World σ} (h : Drives e id w w')
      (hrecord : w''.store.record? id = w'.store.record? id)
      (haside : w'.surroundings.Aside w''.surroundings) : Drives e id w w''

namespace Invariant

variable {e : Engine σ} {t : Template} {K : Surroundings σ → Prop}
  {onTheWay : Option String → Bool → CaseRecord.Gist → Prop} {atRest : CaseRecord.Gist → Prop}
  {id : Id}

/-- The stored case has the property in question. -/
def Holds (id : Id) (t : Template) (K : Surroundings σ → Prop)
    (atRest : CaseRecord.Gist → Prop) (w : World σ) : Prop :=
  ∃ r, w.store.record? id = some r ∧ Kept id t K atRest ⟨r, w⟩

theorem Kept.holds {s : Session σ} (h : Kept id t K atRest s) : Holds id t K atRest s.world := by
  have hstored : s.world.store.record? s.record.id = some s.record := h.resting.stored
  rw [h.id] at hstored
  exact ⟨s.record, hstored, h⟩

/-- However a case is driven, the stored record keeps the property. -/
theorem holds_of_drives (inv : Invariant e t K onTheWay atRest) {w w' : World σ}
    (h : Holds id t K atRest w) (hdrives : e.Drives id w w') : Holds id t K atRest w' := by
  induction hdrives with
  | done => exact h
  | start _ ih =>
    obtain ⟨r, hr, hkept⟩ := ih
    rw [startById_world hkept.resting.calm hr]
    exact (inv.kept_start hkept).holds
  | resume _ ih =>
    obtain ⟨r, hr, hkept⟩ := ih
    rw [resumeById_world hkept.resting.calm hr]
    exact (inv.kept_resume hkept).holds
  | complete _ hid resolution ih =>
    obtain ⟨r, hr, hkept⟩ := ih
    rcases completeTask_world (e := e) hkept.resting.calm hr hid resolution with hrefused | hresolved
    · rw [hrefused]
      exact ⟨r, hr, hkept⟩
    · obtain ⟨task, hresolved⟩ := hresolved
      rw [hresolved]
      exact (inv.kept_resume (inv.kept_amended hkept task)).holds
  | meanwhile _ hrecord haside ih =>
    obtain ⟨r, hr, hkept⟩ := ih
    exact ⟨r, hrecord.trans hr, inv.kept_aside hkept hrecord haside⟩

/-- So does that of a case that has just been opened. -/
theorem holds_of_fresh (inv : Invariant e t K onTheWay atRest) (ht : t.validate = .ok ())
    {r : CaseRecord} {w w' : World σ} {data : Dictionary String}
    (hfresh : Session.Fresh ⟨r, w⟩ t data) (hsurroundings : K w.surroundings)
    (hdrives : e.Drives r.id w w') : Holds r.id t K atRest w' := by
  refine inv.holds_of_drives ⟨r, hfresh.stored, ?_⟩ hdrives
  exact ⟨rfl, hfresh.resting ht, hsurroundings, inv.opened hfresh.status hfresh.marks⟩

end Invariant

end Engine

end Casework
